import SymbolRename.Diff.Patch
import SymbolRename.Rename.Engine

/-!
# Source files

A source file in memory: the bytes that were read, the text they stand for, and the text that is to
replace it.
-/

namespace SymbolRename

/-- What happens to bytes that are not UTF-8. -/
inductive DecodePolicy where
  /-- The file is refused. -/
  | strict
  /-- Each ill-formed unit becomes one replacement character. -/
  | lenient
  deriving DecidableEq, Repr

/-- A decoded text, and whether anything was replaced in it. -/
structure Decoded where
  text : String
  lossy : Bool
  deriving DecidableEq, Repr

/-- Decodes bytes under a policy.  The error is the length of the longest well-formed start. -/
def decodeBytes (policy : DecodePolicy) (bytes : Bytes) : Except Nat Decoded :=
  if Utf8.valid bytes then .ok ⟨String.ofList (Utf8.decodeLossy bytes), false⟩
  else match policy with
    | .strict => .error (Utf8.validUpTo bytes)
    | .lenient => .ok ⟨String.ofList (Utf8.decodeLossy bytes), true⟩

/-- A file of the file list while it is being processed. -/
structure SourceFile where
  /-- The path as configured. -/
  path : String
  /-- The path joined onto the root. -/
  absPath : String
  raw : Bytes
  /-- The text that the bytes stand for. -/
  text : String
  lossy : Bool
  /-- The text that is to be written. -/
  transformed : String
  changed : Bool
  deriving DecidableEq, Repr

namespace SourceFile

/-- A file as it was read, before anything is done to it. -/
def ofDecoded (path absPath : String) (raw : Bytes) (decoded : Decoded) : SourceFile where
  path := path
  absPath := absPath
  raw := raw
  text := decoded.text
  lossy := decoded.lossy
  transformed := decoded.text
  changed := false

/-- Puts the names in the file under the namespace. -/
def namespaced (file : SourceFile) : SourceFile :=
  let result := namespaceText file.text.toList
  { file with transformed := String.ofList result.text, changed := result.changed }

/-- The patch from the text that was read to the text that is to be written.  It is empty for a file
that is not changed. -/
def patch (file : SourceFile) : String :=
  if file.changed then
    String.ofList (Diff.patch file.path file.text.toList file.transformed.toList)
  else ""

end SourceFile
end SymbolRename
