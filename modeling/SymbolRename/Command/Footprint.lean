import SymbolRename.Command.Execute

/-!
# What a command looks at

A command depends on the disk only through the nodes on the way to a few paths.  Which paths these
are becomes known in steps: the root directory leads to the configuration, and the configuration to
the files.
-/

namespace SymbolRename

/-- The paths that an action looks up below a resolved root. -/
def Action.paths (root : String) (config : Config) : Action → List String
  | .run _ options =>
    let merged := config.merge options.files options.lenient options.backupSuffix?
    let files := merged.files.map (entryPath root)
    files ++ files.map (backupPath merged.suffix) ++ options.report?.toList ++
      options.reportMarkdown?.toList
  | .restore options =>
    let merged := config.merge options.files false options.backupSuffix?
    let files := merged.files.map (entryPath root)
    files ++ files.map (backupPath merged.suffix) ++ options.report?.toList
  | .listFiles files => (config.merge files false none).files.map (joinPath root)

/-- The paths that a command looks up, as far as the nodes of `disk` tell. -/
def Invocation.paths (invocation : Invocation) (disk : Disk) : List String :=
  invocation.root ::
    match disk.canonicalize invocation.root with
    | .error _ => []
    | .ok root =>
      invocation.config?.getD (joinPath root Config.fileName) ::
        match disk.configuration root invocation.config? with
        | .error _ => []
        | .ok config => invocation.action.paths root config

/-- How many times `Invocation.paths` can grow. -/
def Invocation.pathStages : Nat := 3

end SymbolRename
