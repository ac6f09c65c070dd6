/-!
# Command line arguments

The root directory and the configuration file may be given before and after the name of the command;
what stands after it wins.  All other options belong to their command.  A value follows its option
as the next argument or after an equals sign; as an argument of its own it must not look like an
option.
-/

namespace SymbolRename

/-- Options of a namespacing run or a check. -/
structure RunOptions where
  files : List String
  lenient : Bool
  backupSuffix? : Option String
  report? : Option String
  reportMarkdown? : Option String
  deriving DecidableEq, Repr

/-- Options of a restore. -/
structure RestoreOptions where
  files : List String
  backupSuffix? : Option String
  removeBackups : Bool
  report? : Option String
  deriving DecidableEq, Repr

inductive Action where
  /-- Put the symbols under the namespace, or only tell what would change. -/
  | run (dryRun : Bool) (options : RunOptions)
  | restore (options : RestoreOptions)
  | listFiles (files : List String)
  deriving DecidableEq, Repr

/-- A command line that can be carried out. -/
structure Invocation where
  root : String
  config? : Option String
  action : Action
  deriving DecidableEq, Repr

namespace Arguments

/-- What an option takes. -/
inductive OptionKind where
  | flag
  | value
  /-- A value; the option may be repeated. -/
  | values
  deriving DecidableEq, Repr

/-- The options of a command with what they take. -/
abbrev Options := List (String × OptionKind)

/-- The options that were given, in order.  A flag has an empty value. -/
abbrev Given := List (String × String)

inductive CommandName where
  | run
  | check
  | restore
  | listFiles
  | help
  deriving DecidableEq, Repr

def CommandName.ofText? (text : String) : Option CommandName :=
  if text = "run" then some .run
  else if text = "check" then some .check
  else if text = "restore" then some .restore
  else if text = "list-files" then some .listFiles
  else if text = "help" then some .help
  else none

/-- The options that every command has. -/
def sharedOptions : Options := [("root", .value), ("config", .value)]

def CommandName.options : CommandName → Options
  | .run | .check =>
    sharedOptions ++
      [("file", .values), ("lenient", .flag), ("backup-suffix", .value), ("report", .value),
        ("report-md", .value)]
  | .restore =>
    sharedOptions ++
      [("file", .values), ("backup-suffix", .value), ("remove-backups", .flag), ("report", .value)]
  | .listFiles => sharedOptions ++ [("file", .values)]
  | .help => []

/-! ## Scanning -/

/-- What the options at the front of a list of arguments lead to. -/
inductive Scan where
  /-- All arguments are options. -/
  | options (given : Given)
  /-- The options end at a command, with arguments of its own. -/
  | command (given : Given) (name : CommandName) (arguments : List String)
  | version
  | help
  | usageError
  deriving DecidableEq, Repr

/-- The shape of an argument. -/
inductive Shape where
  | word
  /-- `--` -/
  | endOfOptions
  | short (letter : Char)
  | long (name : String) (value? : Option String)
  deriving DecidableEq, Repr

/-- An argument that starts with a hyphen is an option, unless it is the hyphen alone. -/
def shape (argument : String) : Shape :=
  match argument.toList with
  | ['-', '-'] => .endOfOptions
  | '-' :: '-' :: rest =>
    match rest.span (· != '=') with
    | (name, _ :: value) => .long (String.ofList name) (some (String.ofList value))
    | (name, []) => .long (String.ofList name) none
  | '-' :: letter :: _ => .short letter
  | _ => .word

/-- Whether an option may be given once more. -/
def mayRepeat (kind : OptionKind) (given : Given) (name : String) : Bool :=
  kind == .values || !(given.map Prod.fst).contains name

/-- Scans arguments.  Only before the command may the version be asked for, and may a command
follow. -/
def scan (options : Options) (beforeCommand : Bool) (given : Given) : List String → Scan
  | [] => .options given
  | argument :: rest =>
    match shape argument with
    | .word =>
      match CommandName.ofText? argument with
      | some name => if beforeCommand then .command given name rest else .usageError
      | none => .usageError
    | .endOfOptions => if rest.isEmpty then .options given else .usageError
    | .short letter =>
      if letter = 'h' then .help
      else if letter = 'V' ∧ beforeCommand then .version
      else .usageError
    | .long name value? =>
      if name = "help" ∧ value? = none then .help
      else if name = "version" ∧ value? = none ∧ beforeCommand then .version
      else
        match options.lookup name with
        | none => .usageError
        | some kind =>
          if !mayRepeat kind given name then .usageError
          else
            match kind, value?, rest with
            | .flag, none, rest => scan options beforeCommand (given ++ [(name, "")]) rest
            | .flag, some _, _ => .usageError
            | _, some value, rest => scan options beforeCommand (given ++ [(name, value)]) rest
            | _, none, value :: rest =>
              if shape value = .word then
                scan options beforeCommand (given ++ [(name, value)]) rest
              else .usageError
            | _, none, [] => .usageError

/-! ## Commands -/

def valuesOf (name : String) (given : Given) : List String :=
  (given.filter fun option ↦ option.1 = name).map Prod.snd

def valueOf? (name : String) (given : Given) : Option String :=
  given.lookup name

def isGiven (name : String) (given : Given) : Bool :=
  (valueOf? name given).isSome

/-- What a command does under its options. -/
def action (name : CommandName) (given : Given) : Option Action :=
  let files := valuesOf "file" given
  let runOptions : RunOptions :=
    ⟨files, isGiven "lenient" given, valueOf? "backup-suffix" given, valueOf? "report" given,
      valueOf? "report-md" given⟩
  match name with
  | .run => some (.run false runOptions)
  | .check => some (.run true runOptions)
  | .restore =>
    some (.restore ⟨files, valueOf? "backup-suffix" given, isGiven "remove-backups" given,
      valueOf? "report" given⟩)
  | .listFiles => some (.listFiles files)
  | .help => none

/-- What a command line asks for. -/
inductive Request where
  | invoke (invocation : Invocation)
  | version
  | help
  | usageError
  deriving DecidableEq, Repr

/-- The request that a command makes with options before and after its name. -/
def request (before : Given) (name : CommandName) (after : Given) : Request :=
  match action name after with
  | none => .help
  | some action =>
    let shared (option : String) : Option String :=
      (valueOf? option after).orElse fun _ ↦ valueOf? option before
    .invoke ⟨(shared "root").getD ".", shared "config", action⟩

/-- The request of a list of arguments.  Without a command it is a run. -/
def parse (arguments : List String) : Request :=
  match scan sharedOptions true [] arguments with
  | .options given => request given .run []
  | .command _ .help names =>
    if names = [] ∨ (names.length = 1 ∧ names.all fun name ↦ (CommandName.ofText? name).isSome)
    then .help
    else .usageError
  | .command before name arguments =>
    match scan name.options false [] arguments with
    | .options after => request before name after
    | .help => .help
    | _ => .usageError
  | .version => .version
  | .help => .help
  | .usageError => .usageError

end Arguments
end SymbolRename
