import SymbolRename.Command.Execute

/-!
# What becomes of a command

`Invocation.Executes` lists all ways in which a command can end, with what it has done by then.  The
ways part where something goes wrong: at the root directory, at the configuration, at the check that
stands before a run or a restore, and at last when a report is written.
-/

namespace SymbolRename

def RunOptions.settings (options : RunOptions) (root : String) (config : Config) (dryRun : Bool) :
    RunSettings :=
  let merged := config.merge options.files options.lenient options.backupSuffix?
  ⟨root, merged.files, merged.policy, merged.suffix, dryRun⟩

def RestoreOptions.settings (options : RestoreOptions) (root : String) (config : Config) :
    RestoreSettings :=
  let merged := config.merge options.files false options.backupSuffix?
  ⟨root, merged.files, merged.suffix, options.removeBackups⟩

/-- What a run does before its reports are written. -/
def RunResult.shown (result : RunResult) (root : String) (dryRun : Bool) : List Effect :=
  .print (Console.header dryRun) :: result.events.map (RunEvent.effect root) ++
    [.print (Console.footer result.report)]

/-- The root directory and the configuration of a command are found. -/
structure Invocation.Ready (invocation : Invocation) (disk : Disk) (root : String)
    (config : Config) : Prop where
  root_eq : disk.canonicalize invocation.root = .ok root
  config_eq : disk.configuration root invocation.config? = .ok config

inductive Invocation.Executes (invocation : Invocation) (disk : Disk) (clock : Clock) :
    Execution → Prop where
  | noRoot {cause : OsError} (hroot : disk.canonicalize invocation.root = .error cause) :
      Executes invocation disk clock (.failed [] (.root invocation.root cause))
  | noConfig {root : String} {error : CommandError}
      (hroot : disk.canonicalize invocation.root = .ok root)
      (hconfig : disk.configuration root invocation.config? = .error error) :
      Executes invocation disk clock (.failed [] error)
  | runRefused {root : String} {config : Config} {dryRun : Bool} {options : RunOptions}
      {error : SetupError} (hready : invocation.Ready disk root config)
      (haction : invocation.action = .run dryRun options)
      (hrun : disk.run (options.settings root config dryRun) toolInfo clock = .error error) :
      Executes invocation disk clock (.failed [.print (Console.header dryRun)] (.setup error))
  | ran {root : String} {config : Config} {dryRun : Bool} {options : RunOptions}
      {result : RunResult} {made : List Mutation} (hready : invocation.Ready disk root config)
      (haction : invocation.action = .run dryRun options)
      (hrun : disk.run (options.settings root config dryRun) toolInfo clock = .ok result)
      (hpublished : (disk.applyAll result.mutations).publishRun result.report options.report?
        options.reportMarkdown? = (.ok (), made)) :
      Executes invocation disk clock
        (.ended (result.shown root dryRun ++ made.map .mutation) result.report.exitCode)
  | ranUnreported {root : String} {config : Config} {dryRun : Bool} {options : RunOptions}
      {result : RunResult} {made : List Mutation} {error : ArtifactError}
      (hready : invocation.Ready disk root config)
      (haction : invocation.action = .run dryRun options)
      (hrun : disk.run (options.settings root config dryRun) toolInfo clock = .ok result)
      (hpublished : (disk.applyAll result.mutations).publishRun result.report options.report?
        options.reportMarkdown? = (.error error, made)) :
      Executes invocation disk clock
        (.failed (result.shown root dryRun ++ made.map .mutation) (.runReport error))
  | restoreRefused {root : String} {config : Config} {options : RestoreOptions}
      {error : SetupError} (hready : invocation.Ready disk root config)
      (haction : invocation.action = .restore options)
      (hrestore : disk.restore (options.settings root config) toolInfo = .error error) :
      Executes invocation disk clock (.failed [] (.setup error))
  | restored {root : String} {config : Config} {options : RestoreOptions} {report : RestoreReport}
      {restored : List Mutation} (hready : invocation.Ready disk root config)
      (haction : invocation.action = .restore options)
      (hrestore : disk.restore (options.settings root config) toolInfo = .ok (report, restored))
      (hreport : options.report? = none) :
      Executes invocation disk clock
        (.ended (restored.map .mutation ++ [.print (Console.restore report)]) report.exitCode)
  | restoredReported {root path : String} {config : Config} {options : RestoreOptions}
      {report : RestoreReport} {restored made : List Mutation}
      (hready : invocation.Ready disk root config)
      (haction : invocation.action = .restore options)
      (hrestore : disk.restore (options.settings root config) toolInfo = .ok (report, restored))
      (hreport : options.report? = some path)
      (hpublished : (disk.applyAll restored).publishJson path report.toJson = (.ok (), made)) :
      Executes invocation disk clock
        (.ended (restored.map .mutation ++ [.print (Console.restore report)] ++
          made.map .mutation) report.exitCode)
  | restoredUnreported {root path : String} {config : Config} {options : RestoreOptions}
      {report : RestoreReport} {restored made : List Mutation} {error : PublishError}
      (hready : invocation.Ready disk root config)
      (haction : invocation.action = .restore options)
      (hrestore : disk.restore (options.settings root config) toolInfo = .ok (report, restored))
      (hreport : options.report? = some path)
      (hpublished : (disk.applyAll restored).publishJson path report.toJson =
        (.error error, made)) :
      Executes invocation disk clock
        (.failed (restored.map .mutation ++ [.print (Console.restore report)] ++
          made.map .mutation) (.restoreReport error))
  | listed {root : String} {config : Config} {files : List String}
      (hready : invocation.Ready disk root config)
      (haction : invocation.action = .listFiles files) :
      Executes invocation disk clock (executeListFiles disk root config files)

namespace Invocation

variable {invocation : Invocation} {disk : Disk} {root : String} {config : Config}

theorem Ready.execute_eq (h : invocation.Ready disk root config) (clock : Clock) :
    invocation.execute disk clock =
      match invocation.action with
      | .run dryRun options => executeRun disk clock root config dryRun options
      | .restore options => executeRestore disk root config options
      | .listFiles files => executeListFiles disk root config files := by
  cases haction : invocation.action with
  | _ => simp only [execute, h.root_eq, h.config_eq, haction]

theorem Ready.executes_run (h : invocation.Ready disk root config) (clock : Clock) {dryRun : Bool}
    {options : RunOptions} (haction : invocation.action = .run dryRun options) :
    invocation.Executes disk clock (executeRun disk clock root config dryRun options) := by
  unfold executeRun
  dsimp only
  split
  · next hrun => exact .runRefused h haction hrun
  · next result hrun =>
    split
    · next hpublished => exact .ranUnreported h haction hrun (Prod.ext hpublished rfl)
    · next hpublished => exact .ran h haction hrun (Prod.ext hpublished rfl)

theorem Ready.executes_restore (h : invocation.Ready disk root config) (clock : Clock)
    {options : RestoreOptions} (haction : invocation.action = .restore options) :
    invocation.Executes disk clock (executeRestore disk root config options) := by
  unfold executeRestore
  dsimp only
  split
  · next hrestore => exact .restoreRefused h haction hrestore
  · next hrestore =>
    split
    · next hreport => exact .restored h haction hrestore hreport
    · next hreport =>
      split
      · next hpublished =>
        exact .restoredUnreported h haction hrestore hreport (Prod.ext hpublished rfl)
      · next hpublished =>
        exact .restoredReported h haction hrestore hreport (Prod.ext hpublished rfl)

theorem executes_execute (invocation : Invocation) (disk : Disk) (clock : Clock) :
    invocation.Executes disk clock (invocation.execute disk clock) := by
  cases hroot : disk.canonicalize invocation.root with
  | error cause =>
      simp only [execute, hroot]
      exact .noRoot hroot
  | ok root =>
      cases hconfig : disk.configuration root invocation.config? with
      | error error =>
          simp only [execute, hroot, hconfig]
          exact .noConfig hroot hconfig
      | ok config =>
          have hready : invocation.Ready disk root config := ⟨hroot, hconfig⟩
          rw [hready.execute_eq]
          cases haction : invocation.action with
          | run dryRun options => exact hready.executes_run clock haction
          | restore options => exact hready.executes_restore clock haction
          | listFiles files => exact .listed hready haction

end Invocation
end SymbolRename
