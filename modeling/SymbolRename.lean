import SymbolRename.Text.WordChar
import SymbolRename.Text.Utf8
import SymbolRename.Text.Hex
import SymbolRename.Text.Decimal
import SymbolRename.Digest.Sha256
import SymbolRename.Rename.Scan
import SymbolRename.Rename.Rule
import SymbolRename.Rename.Engine
import SymbolRename.Text.Lines
import SymbolRename.Diff.Script
import SymbolRename.Diff.Compact
import SymbolRename.Diff.Hunk
import SymbolRename.Diff.Patch
import SymbolRename.Source
import SymbolRename.Json.Value
import SymbolRename.Json.Writer
import SymbolRename.Json.Reader
import SymbolRename.Json.Record
import SymbolRename.Timestamp
import SymbolRename.Report.Outcome
import SymbolRename.Report.Codec
import SymbolRename.Disk.Path
import SymbolRename.Report.Console
import SymbolRename.Report.Markdown
import SymbolRename.Disk.Tree
import SymbolRename.Disk.Lookup
import SymbolRename.Disk.Publish
import SymbolRename.Backup
import SymbolRename.Resolve
import SymbolRename.Run
import SymbolRename.Restore
import SymbolRename.Artifact
import SymbolRename.Toml.Value
import SymbolRename.Toml.Scalar
import SymbolRename.Toml.Reader
import SymbolRename.Config
import SymbolRename.Calendar
import SymbolRename.Command.Arguments
import SymbolRename.Command.Execute
import SymbolRename.Command.Footprint
import SymbolRename.Main
import SymbolRename.Proofs.Rename.Namespacing
import SymbolRename.Proofs.Rename.Places
import SymbolRename.Proofs.Rename.Independence
import SymbolRename.Proofs.Rename.Occurrences
import SymbolRename.Proofs.Disk.Changes
import SymbolRename.Proofs.Disk.Suffix
import SymbolRename.Proofs.Disk.Commit
import SymbolRename.Proofs.Disk.Publishing
import SymbolRename.Proofs.Run.Entry
import SymbolRename.Proofs.Run.Effect
import SymbolRename.Proofs.Restore.Entries
import SymbolRename.Proofs.Restore.Reversal
import SymbolRename.Proofs.Run.Interruption
import SymbolRename.Proofs.Report.Summary
import SymbolRename.Proofs.Report.Projection
import SymbolRename.Proofs.Run.Check
import SymbolRename.Proofs.Run.Sequence
import SymbolRename.Proofs.Run.Unmingled
import SymbolRename.Proofs.Run.Again
import SymbolRename.Proofs.Run.Fidelity
import SymbolRename.Proofs.Run.Order
import SymbolRename.Proofs.Run.Truthful
import SymbolRename.Proofs.Restore.Effect
import SymbolRename.Proofs.Restore.Interruption
import SymbolRename.Proofs.Text.Decimal
import SymbolRename.Proofs.Json.RoundTrip
import SymbolRename.Proofs.Json.Record
import SymbolRename.Proofs.Json.Respelling
import SymbolRename.Proofs.Report.Timestamp
import SymbolRename.Proofs.Report.RoundTrip
import SymbolRename.Proofs.Report.Respelling
import SymbolRename.Proofs.Toml.Layout
import SymbolRename.Proofs.Toml.Spelling
import SymbolRename.Proofs.Toml.Table
import SymbolRename.Proofs.Toml.Document
import SymbolRename.Proofs.Config.Meaning
import SymbolRename.Proofs.Command.Execution
import SymbolRename.Proofs.Run.Narration
import SymbolRename.Proofs.Command.FatalErrors
import SymbolRename.Proofs.Run.BackupPlace
import SymbolRename.Proofs.Rename.ByteScan
import SymbolRename.Proofs.Text.Exactness
import SymbolRename.Proofs.Text.Locality
import SymbolRename.Proofs.Diff.Script
import SymbolRename.Proofs.Diff.Hunks
import SymbolRename.Proofs.Diff.Patch
