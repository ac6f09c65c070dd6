import SymbolRename.Backup
import SymbolRename.Resolve
import SymbolRename.Toml.Reader

/-!
# Configuration

A configuration names the files to process, the suffix of backups and the decoding policy.  It is
read from three tables of a TOML document, none of which is required, and no other key is allowed.
A table may also be written as an array of its values in order.
-/

namespace SymbolRename

structure Config where
  paths : List String
  suffix : String
  policy : DecodePolicy
  deriving DecidableEq, Repr

namespace Config

/-- The name of the configuration file in the root directory. -/
def fileName : String := "nsprefix.toml"

def default : Config := ⟨[], defaultBackupSuffix, .strict⟩

/-! ## Reading -/

/-- Why a text is not a configuration. -/
inductive ParseError where
  /-- It is not a TOML document. -/
  | malformed
  /-- It holds a key that is not known, or a value of the wrong type. -/
  | unexpected
  | emptySuffix
  deriving DecidableEq, Repr

def text? : TomlValue → Option String
  | .string text => some text
  | _ => none

/-- The items of an array of either kind. -/
def items? : TomlValue → Option (List TomlValue)
  | .array items => some items
  | .tables items => some items
  | _ => none

def texts? (value : TomlValue) : Option (List String) :=
  (items? value).bind fun items ↦ items.mapM text?

/-- Whether a value is an empty array or an empty table. -/
def isEmpty : TomlValue → Bool
  | .array [] => true
  | .tables [] => true
  | .table _ [] => true
  | _ => false

def policyOfName? (name : String) : Option DecodePolicy :=
  if name = "strict" then some .strict
  else if name = "lenient" then some .lenient
  else none

/-- A policy is written as its name, or as a table with its name for the only key and nothing in
it. -/
def policy? : TomlValue → Option DecodePolicy
  | .string name => policyOfName? name
  | .table _ [(name, value)] => if isEmpty value then policyOfName? name else none
  | _ => none

/-- A table with one known key, which may be missing. -/
def single? {α : Type} (key : String) (default : α) (read? : TomlValue → Option α) :
    TomlValue → Option α
  | .table _ [] => some default
  | .table _ [(name, value)] => if name = key then read? value else none
  | value =>
    match items? value with
    | some [] => some default
    | some (first :: _) => read? first
    | none => none

/-- The value of one of the three tables, or its default if the document does not have it. -/
def section? {α : Type} (table : TomlTable) (name : String) (default : α)
    (read? : TomlValue → Option α) : Option α :=
  match table.lookup name with
  | none => some default
  | some value => read? value

/-- The configuration that a document describes. -/
def ofTable? (table : TomlTable) : Option Config := do
  if table.all fun member ↦ ["files", "backups", "decode"].contains member.1 then
    let paths ← section? table "files" [] (single? "paths" [] texts?)
    let suffix ← section? table "backups" defaultBackupSuffix
      (single? "suffix" defaultBackupSuffix text?)
    let policy ← section? table "decode" .strict (single? "policy" .strict policy?)
    some ⟨paths, suffix, policy⟩
  else none

/-- Reads a configuration from the text of a document. -/
def parse (text : String) : Except ParseError Config :=
  match TomlTable.ofText? text with
  | none => .error .malformed
  | some table =>
    match ofTable? table with
    | none => .error .unexpected
    | some config => if config.suffix = "" then .error .emptySuffix else .ok config

/-- The error and its causes. -/
def ParseError.chain : ParseError → List String
  | .malformed => ["invalid TOML", "the document is malformed"]
  | .unexpected => ["invalid TOML", "a key is not known or a value does not fit its key"]
  | .emptySuffix => ["backups.suffix must not be empty"]

/-! ## Configuration files -/

/-- Why a configuration file could not be used. -/
inductive LoadError where
  | read (path : String) (refusal : Refusal)
  /-- The file is not UTF-8. -/
  | decode (path : String)
  | parse (path : String) (error : ParseError)
  deriving DecidableEq, Repr

def LoadError.chain : LoadError → List String
  | .read path refusal => ["read config file " ++ path, refusal.message path]
  | .decode path =>
    ["read config file " ++ path,
      FileRequest.readFrom.failure path ++ ": stream did not contain valid UTF-8"]
  | .parse path error => ("parse config file " ++ path) :: error.chain

/-- Reads the configuration file at a path. -/
def load (disk : Disk) (path : String) : Except LoadError Config :=
  match disk.readBytes path with
  | .error refusal => .error (.read path refusal)
  | .ok bytes =>
    match Utf8.decode? bytes with
    | none => .error (.decode path)
    | some text => (parse (String.ofList text)).mapError (.parse path ·)

/-- The configuration file of a root directory, if there is one. -/
def find? (disk : Disk) (root : String) : Option String :=
  let path := joinPath root fileName
  if disk.pathExists path then some path else none

/-- The configuration of a root directory. -/
def loadOrDefault (disk : Disk) (root : String) : Except LoadError Config :=
  match find? disk root with
  | none => .ok default
  | some path => load disk path

/-! ## Arguments -/

/-- What a command works with. -/
structure Merged where
  files : List String
  suffix : String
  policy : DecodePolicy
  deriving DecidableEq, Repr

/-- Puts the arguments of a command over a configuration.  A list of files that is not empty
replaces the configured one, which replaces the built-in one. -/
def merge (config : Config) (files : List String) (lenient : Bool) (suffix? : Option String) :
    Merged where
  files := if files ≠ [] then files else if config.paths ≠ [] then config.paths else defaultFiles
  suffix := suffix?.getD config.suffix
  policy := if lenient then .lenient else config.policy

end Config
end SymbolRename
