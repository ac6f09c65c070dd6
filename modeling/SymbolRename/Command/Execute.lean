import SymbolRename.Artifact
import SymbolRename.Command.Arguments
import SymbolRename.Config
import SymbolRename.Restore

/-!
# Carrying out a command

A command is carried out on a disk.  The result lists what is printed and what is changed, in order,
the exit code, and the error if the command ended with one.

Resolving the root directory can fail in one way only, `CommandError.root`: names on a disk are
texts, so there is no resolved root that is not a text and no error for one.
-/

namespace SymbolRename

def toolName : String := "nsprefix"
def toolVersion : String := "0.1.0"
def toolInfo : ToolInfo := ⟨toolName, some toolVersion⟩

/-! ## Errors -/

/-- Why a command could not be carried out to its end. -/
inductive CommandError where
  | root (path : String) (cause : OsError)
  /-- The configuration file, found in the root directory or named by an argument. -/
  | config (found : Bool) (error : Config.LoadError)
  | setup (error : SetupError)
  | runReport (error : ArtifactError)
  | restoreReport (error : PublishError)
  deriving DecidableEq, Repr

/-- The error and its causes. -/
def CommandError.chain : CommandError → List String
  | .root path cause =>
    ["resolve root directory " ++ path, Refusal.message path ⟨.canonicalize, cause⟩]
  | .config true error => ("load " ++ Config.fileName ++ " config") :: error.chain
  | .config false error => error.chain
  | .setup error => [error.message]
  | .runReport error => error.chain
  | .restoreReport error => "write restore report" :: error.chain

/-- A text in which every line after the first is indented. -/
def indentLines (width : Nat) (text : String) : String :=
  String.ofList <| text.toList.flatMap fun c ↦
    if c = '\n' then '\n' :: List.replicate width ' ' else [c]

/-- Causes one below the other, with numbers. -/
def numberedCauses (number : Nat) : List String → String
  | [] => ""
  | cause :: causes =>
    let digits := decimal number
    "\n" ++ String.ofList (List.replicate (5 - digits.length) ' ' ++ digits) ++ ": " ++
      indentLines 7 cause ++ numberedCauses (number + 1) causes

/-- An error with its causes below it.  A single cause has no number. -/
def chainText : List String → String
  | [] => ""
  | [error] => error
  | [error, cause] => error ++ "\n\nCaused by:\n    " ++ indentLines 4 cause
  | error :: causes => error ++ "\n\nCaused by:" ++ numberedCauses 0 causes

/-- A character of a text that may be shown on a terminal.  Characters that would drive the terminal
are shown by their numbers. -/
def terminalChars (c : Char) : List Char :=
  if c ∈ ['\x07', '\x08', '\x0C', '\x1B', '\x7F'] then '\\' :: 'x' :: hexByte c.toNat.toUInt8
  else if 0x80 ≤ c.toNat ∧ c.toNat ≤ 0x9F then
    ['\\', 'u', '\x7b'] ++ hexByte c.toNat.toUInt8 ++ ['\x7d']
  else [c]

def CommandError.message (error : CommandError) : String :=
  String.ofList ((chainText error.chain).toList.flatMap terminalChars)

/-! ## Effects -/

/-- What a command does to the world, step by step. -/
inductive Effect where
  | print (text : String)
  | mutation (mutation : Mutation)
  deriving DecidableEq, Repr

/-- A command that has been carried out. -/
structure Execution where
  effects : List Effect
  exitCode : Nat
  error? : Option CommandError
  deriving DecidableEq, Repr

namespace Execution

/-- A command that ends with an error after the given effects. -/
def failed (effects : List Effect) (error : CommandError) : Execution := ⟨effects, 1, some error⟩

/-- A command that comes to its end. -/
def ended (effects : List Effect) (exitCode : Nat) : Execution := ⟨effects, exitCode, none⟩

/-- All that is printed. -/
def output (execution : Execution) : String :=
  String.join (execution.effects.filterMap fun
    | .print text => some text
    | .mutation _ => none)

/-- All changes to the disk, in order. -/
def mutations (execution : Execution) : List Mutation :=
  execution.effects.filterMap fun
    | .print _ => none
    | .mutation m => some m

end Execution

/-- A run as it is shown on the console. -/
def RunEvent.effect (root : String) : RunEvent → Effect
  | .started path => .print (Console.fileStart root path)
  | .mutation m => .mutation m
  | .finished outcome => .print (Console.fileOutcome root outcome)

/-! ## Commands -/

/-- The configuration that a command uses. -/
def Disk.configuration (disk : Disk) (root : String) :
    Option String → Except CommandError Config
  | some path => (Config.load disk path).mapError (.config false ·)
  | none => (Config.loadOrDefault disk root).mapError (.config true ·)

def executeRun (disk : Disk) (clock : Clock) (root : String) (config : Config) (dryRun : Bool)
    (options : RunOptions) : Execution :=
  let merged := config.merge options.files options.lenient options.backupSuffix?
  let settings : RunSettings := ⟨root, merged.files, merged.policy, merged.suffix, dryRun⟩
  let header := [Effect.print (Console.header dryRun)]
  match disk.run settings toolInfo clock with
  | .error e => .failed header (.setup e)
  | .ok result =>
    let shown :=
      header ++ result.events.map (RunEvent.effect root) ++
        [.print (Console.footer result.report)]
    let (published, made) :=
      (disk.applyAll result.mutations).publishRun result.report options.report?
        options.reportMarkdown?
    let effects := shown ++ made.map .mutation
    match published with
    | .error e => .failed effects (.runReport e)
    | .ok () => .ended effects result.report.exitCode

def executeRestore (disk : Disk) (root : String) (config : Config) (options : RestoreOptions) :
    Execution :=
  let merged := config.merge options.files false options.backupSuffix?
  let settings : RestoreSettings := ⟨root, merged.files, merged.suffix, options.removeBackups⟩
  match disk.restore settings toolInfo with
  | .error e => .failed [] (.setup e)
  | .ok (report, restored) =>
    let shown := restored.map .mutation ++ [.print (Console.restore report)]
    match options.report? with
    | none => .ended shown report.exitCode
    | some path =>
      let (published, made) := (disk.applyAll restored).publishJson path report.toJson
      let effects := shown ++ made.map .mutation
      match published with
      | .error e => .failed effects (.restoreReport e)
      | .ok () => .ended effects report.exitCode

def executeListFiles (disk : Disk) (root : String) (config : Config) (files : List String) :
    Execution :=
  let merged := config.merge files false none
  .ended (merged.files.map fun path ↦
    .print (Console.listLine path (disk.isFile (joinPath root path)))) 0

/-- Carries a command out. -/
def Invocation.execute (invocation : Invocation) (disk : Disk) (clock : Clock) : Execution :=
  match disk.canonicalize invocation.root with
  | .error e => .failed [] (.root invocation.root e)
  | .ok root =>
    match disk.configuration root invocation.config? with
    | .error e => .failed [] e
    | .ok config =>
      match invocation.action with
      | .run dryRun options => executeRun disk clock root config dryRun options
      | .restore options => executeRestore disk root config options
      | .listFiles files => executeListFiles disk root config files

/-! ## Requests without a disk -/

def versionText : String := toolName ++ " " ++ toolVersion ++ "\n"

def usageText : String :=
  "Usage: " ++ toolName ++ " [--root <DIR>] [--config <FILE>] [COMMAND]\n\n" ++
  "Commands:\n" ++
  "  run         put the symbols of the files under the namespace (default)\n" ++
  "  check       show what a run would change\n" ++
  "  restore     copy backups over the files\n" ++
  "  list-files  list the files and whether they exist\n\n" ++
  "Options of run and check: --file <PATH>, --lenient, --backup-suffix <SUFFIX>,\n" ++
  "  --report <PATH>, --report-md <PATH>\n" ++
  "Options of restore: --file <PATH>, --backup-suffix <SUFFIX>, --remove-backups,\n" ++
  "  --report <PATH>\n" ++
  "Options of list-files: --file <PATH>\n"

/-- Carries out what a command line asks for.  A command line that cannot be understood has exit
code 2 and prints nothing. -/
def executeRequest (disk : Disk) (clock : Clock) : Arguments.Request → Execution
  | .invoke invocation => invocation.execute disk clock
  | .version => .ended [.print versionText] 0
  | .help => .ended [.print usageText] 0
  | .usageError => .ended [] 2

end SymbolRename
