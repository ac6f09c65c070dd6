import SymbolRename.Proofs.Command.Execution
import SymbolRename.Proofs.Run.Effect

/-!
# Fatal errors

A command that ends in an error before its report has done nothing: the errors come from the root
directory, the configuration and the check that stands before every run, all of which are looked at
before the first file.  No configuration has an empty suffix and no list of files that is put
together is empty, so the check fails only on an empty suffix among the arguments.
-/

namespace SymbolRename

theorem mapError_eq_ok_iff {ε ε' α : Type} {f : ε → ε'} {x : Except ε α} {a : α} :
    x.mapError f = .ok a ↔ x = .ok a := by
  cases x <;> simp [Except.mapError]

theorem mapError_eq_error_iff {ε ε' α : Type} {f : ε → ε'} {x : Except ε α} {e : ε'} :
    x.mapError f = .error e ↔ ∃ cause, x = .error cause ∧ f cause = e := by
  cases x <;> simp [Except.mapError]

/-! ## Configurations -/

namespace Config

theorem suffix_ne_of_parse {text : String} {config : Config} (h : parse text = .ok config) :
    config.suffix ≠ "" := by
  rw [parse] at h
  split at h
  · cases h
  · split at h
    · cases h
    · split at h
      · cases h
      · next hsuffix =>
        cases h
        exact hsuffix

theorem suffix_ne_of_load {disk : Disk} {path : String} {config : Config}
    (h : load disk path = .ok config) : config.suffix ≠ "" := by
  rw [load] at h
  split at h
  · cases h
  · split at h
    · cases h
    · exact suffix_ne_of_parse (mapError_eq_ok_iff.mp h)

theorem suffix_ne_of_loadOrDefault {disk : Disk} {root : String} {config : Config}
    (h : loadOrDefault disk root = .ok config) : config.suffix ≠ "" := by
  unfold loadOrDefault at h
  split at h
  · cases h
    decide
  · exact suffix_ne_of_load h

theorem files_merge_ne_nil (config : Config) (files : List String) (lenient : Bool)
    (suffix? : Option String) : (config.merge files lenient suffix?).files ≠ [] := by
  simp only [merge]
  split
  · next hfiles => exact hfiles
  · split
    · next hpaths => exact hpaths
    · simp [defaultFiles]

theorem suffix_merge_eq_empty_iff {config : Config} (h : config.suffix ≠ "") (files : List String)
    (lenient : Bool) (suffix? : Option String) :
    (config.merge files lenient suffix?).suffix = "" ↔ suffix? = some "" := by
  cases suffix? with
  | none => simp [merge, h]
  | some suffix => simp [merge]

end Config

theorem Disk.suffix_ne_of_configuration {disk : Disk} {root : String} {path? : Option String}
    {config : Config} (h : disk.configuration root path? = .ok config) : config.suffix ≠ "" := by
  cases path? with
  | none => exact Config.suffix_ne_of_loadOrDefault (mapError_eq_ok_iff.mp h)
  | some path => exact Config.suffix_ne_of_load (mapError_eq_ok_iff.mp h)

theorem Disk.configuration_error {disk : Disk} {root : String} {path? : Option String}
    {error : CommandError} (h : disk.configuration root path? = .error error) :
    ∃ found cause, error = .config found cause := by
  cases path? with
  | none =>
      obtain ⟨cause, _, rfl⟩ := mapError_eq_error_iff.mp h
      exact ⟨true, cause, rfl⟩
  | some path =>
      obtain ⟨cause, _, rfl⟩ := mapError_eq_error_iff.mp h
      exact ⟨false, cause, rfl⟩

/-! ## The check before a run -/

theorem checkSetup_eq_error_iff {files : List String} {suffix : String} {error : SetupError}
    (hfiles : files ≠ []) :
    checkSetup files suffix = .error error ↔ suffix = "" ∧ error = .emptyBackupSuffix := by
  rw [checkSetup, if_neg hfiles]
  by_cases hsuffix : suffix = ""
  · simp [hsuffix, eq_comm]
  · simp [hsuffix]

theorem Disk.run_eq_error_iff {disk : Disk} {settings : RunSettings} {tool : ToolInfo}
    {clock : Clock} {error : SetupError} :
    disk.run settings tool clock = .error error ↔
      checkSetup settings.files settings.backupSuffix = .error error := by
  rw [run]
  split <;> simp_all

theorem Disk.restore_eq_error_iff {disk : Disk} {settings : RestoreSettings} {tool : ToolInfo}
    {error : SetupError} :
    disk.restore settings tool = .error error ↔
      checkSetup settings.files settings.backupSuffix = .error error := by
  rw [restore]
  split <;> simp_all

namespace Invocation.Ready

variable {invocation : Invocation} {disk : Disk} {root : String} {config : Config}
  {error : SetupError}

theorem suffix_ne (h : invocation.Ready disk root config) : config.suffix ≠ "" :=
  Disk.suffix_ne_of_configuration h.config_eq

theorem checkSetup_merge_iff (h : invocation.Ready disk root config) (files : List String)
    (lenient : Bool) (suffix? : Option String) :
    checkSetup (config.merge files lenient suffix?).files
        (config.merge files lenient suffix?).suffix = .error error ↔
      suffix? = some "" ∧ error = .emptyBackupSuffix := by
  rw [checkSetup_eq_error_iff (config.files_merge_ne_nil _ _ _),
    Config.suffix_merge_eq_empty_iff h.suffix_ne]

theorem run_eq_error_iff (h : invocation.Ready disk root config) {dryRun : Bool}
    {options : RunOptions} {clock : Clock} :
    disk.run (options.settings root config dryRun) toolInfo clock = .error error ↔
      options.backupSuffix? = some "" ∧ error = .emptyBackupSuffix :=
  Disk.run_eq_error_iff.trans (h.checkSetup_merge_iff options.files options.lenient _)

theorem restore_eq_error_iff (h : invocation.Ready disk root config) {options : RestoreOptions} :
    disk.restore (options.settings root config) toolInfo = .error error ↔
      options.backupSuffix? = some "" ∧ error = .emptyBackupSuffix :=
  Disk.restore_eq_error_iff.trans (h.checkSetup_merge_iff options.files false _)

end Invocation.Ready

/-! ## Fatal errors -/

/-- Whether a report could not be written. -/
def CommandError.ofReport : CommandError → Bool
  | .runReport _ => true
  | .restoreReport _ => true
  | _ => false

/-- The suffix among the arguments. -/
def Action.backupSuffix? : Action → Option String
  | .run _ options => options.backupSuffix?
  | .restore options => options.backupSuffix?
  | .listFiles _ => none

/-- A command that has failed and has done nothing by then, but for the header of a run. -/
structure Execution.Idle (execution : Execution) (action : Action) : Prop where
  exitCode_eq : execution.exitCode = 1
  effects_eq : execution.effects = [] ∨ ∃ dryRun options, action = .run dryRun options ∧
    execution.effects = [.print (Console.header dryRun)]

theorem Execution.Idle.mutations_eq {execution : Execution} {action : Action}
    (h : execution.Idle action) : execution.mutations = [] := by
  rw [mutations]
  rcases h.effects_eq with heffects | ⟨_, _, _, heffects⟩
  · rw [heffects]
    rfl
  · rw [heffects]
    rfl

namespace Invocation

variable {invocation : Invocation} {disk : Disk} {clock : Clock} {execution : Execution}

theorem Executes.idle {error : CommandError} (h : invocation.Executes disk clock execution)
    (herror : execution.error? = some error) (hfatal : error.ofReport = false) :
    execution.Idle invocation.action ∧ error ≠ .setup .emptyFileSet := by
  cases h with
  | noRoot _ =>
      cases herror
      exact ⟨⟨rfl, Or.inl rfl⟩, by simp⟩
  | noConfig _ hconfig =>
      cases herror
      obtain ⟨found, cause, rfl⟩ := Disk.configuration_error hconfig
      exact ⟨⟨rfl, Or.inl rfl⟩, by simp⟩
  | runRefused hready haction hrun =>
      cases herror
      obtain ⟨_, rfl⟩ := hready.run_eq_error_iff.mp hrun
      exact ⟨⟨rfl, Or.inr ⟨_, _, haction, rfl⟩⟩, by simp⟩
  | restoreRefused hready haction hrestore =>
      cases herror
      obtain ⟨_, rfl⟩ := hready.restore_eq_error_iff.mp hrestore
      exact ⟨⟨rfl, Or.inl rfl⟩, by simp⟩
  | ranUnreported | restoredUnreported =>
      cases herror
      cases hfatal
  | ran | restored | restoredReported | listed => cases herror

/-- An empty suffix among the arguments is fatal. -/
theorem Executes.fatal_of_empty_suffix (h : invocation.Executes disk clock execution)
    (hsuffix : invocation.action.backupSuffix? = some "") :
    ∃ error, execution.error? = some error ∧ error.ofReport = false ∧
      ∀ root config, invocation.Ready disk root config → error = .setup .emptyBackupSuffix := by
  have hrun {root : String} {config : Config} {dryRun : Bool} {options : RunOptions}
      (hready : invocation.Ready disk root config)
      (haction : invocation.action = .run dryRun options) :
      disk.run (options.settings root config dryRun) toolInfo clock =
        .error .emptyBackupSuffix := by
    rw [haction] at hsuffix
    exact hready.run_eq_error_iff.mpr ⟨hsuffix, rfl⟩
  have hrestore {root : String} {config : Config} {options : RestoreOptions}
      (hready : invocation.Ready disk root config)
      (haction : invocation.action = .restore options) :
      disk.restore (options.settings root config) toolInfo = .error .emptyBackupSuffix := by
    rw [haction] at hsuffix
    exact hready.restore_eq_error_iff.mpr ⟨hsuffix, rfl⟩
  -- past the configuration the check has failed, so no run and no restore has come to its end
  cases h with
  | noRoot hroot =>
      refine ⟨_, rfl, rfl, fun root config hready ↦ ?_⟩
      cases hroot.symm.trans hready.root_eq
  | noConfig hroot hconfig =>
      obtain ⟨found, cause, rfl⟩ := Disk.configuration_error hconfig
      refine ⟨_, rfl, rfl, fun root config hready ↦ ?_⟩
      cases hroot.symm.trans hready.root_eq
      cases hconfig.symm.trans hready.config_eq
  | runRefused hready haction hrefused =>
      cases (hrun hready haction).symm.trans hrefused
      exact ⟨_, rfl, rfl, fun _ _ _ ↦ rfl⟩
  | restoreRefused hready haction hrefused =>
      cases (hrestore hready haction).symm.trans hrefused
      exact ⟨_, rfl, rfl, fun _ _ _ ↦ rfl⟩
  | ran hready haction hran | ranUnreported hready haction hran =>
      cases (hrun hready haction).symm.trans hran
  | restored hready haction hrestored | restoredReported hready haction hrestored
  | restoredUnreported hready haction hrestored =>
      cases (hrestore hready haction).symm.trans hrestored
  | listed _ haction =>
      rw [haction] at hsuffix
      cases hsuffix

/-- A command that ends in an error other than that of a report has exit code 1, leaves the disk as
it is and prints no line for a file.  The list of files is never empty, and the suffix only if the
argument is, which is such an error. -/
theorem fatal_error_touches_nothing (invocation : Invocation) (disk : Disk) (clock : Clock) :
    (∀ error, (invocation.execute disk clock).error? = some error → error.ofReport = false →
      (invocation.execute disk clock).exitCode = 1 ∧
      disk.applyAll (invocation.execute disk clock).mutations = disk ∧
      ((invocation.execute disk clock).effects = [] ∨ ∃ dryRun options,
        invocation.action = .run dryRun options ∧
          (invocation.execute disk clock).effects = [.print (Console.header dryRun)]) ∧
      error ≠ .setup .emptyFileSet) ∧
    (∀ root config, invocation.Ready disk root config → ∀ files lenient suffix?,
      (config.merge files lenient suffix?).files ≠ [] ∧
        ((config.merge files lenient suffix?).suffix = "" ↔ suffix? = some "")) ∧
    (invocation.action.backupSuffix? = some "" →
      ∃ error, (invocation.execute disk clock).error? = some error ∧ error.ofReport = false ∧
        ∀ root config, invocation.Ready disk root config → error = .setup .emptyBackupSuffix) := by
  have hexecutes := invocation.executes_execute disk clock
  refine ⟨?_, ?_, hexecutes.fatal_of_empty_suffix⟩
  · intro error herror hfatal
    obtain ⟨hidle, hfiles⟩ := hexecutes.idle herror hfatal
    refine ⟨hidle.exitCode_eq, ?_, hidle.effects_eq, hfiles⟩
    rw [hidle.mutations_eq, Disk.applyAll_nil]
  · intro root config hready files lenient suffix?
    exact ⟨config.files_merge_ne_nil files lenient suffix?,
      Config.suffix_merge_eq_empty_iff hready.suffix_ne files lenient suffix?⟩

theorem empty_suffix_touches_nothing_on_mixedDisk :
    ∃ invocation, Arguments.parse ["check", "--file", "a.h", "--backup-suffix="] =
        .invoke invocation ∧
      ∃ execution, invocation.execute Disk.mixedDisk
          ⟨⟨2024, 5, 1, 12, 0, 0, 0⟩, ⟨2024, 5, 1, 12, 0, 1, 0⟩⟩ = execution ∧
        execution.error? = some (.setup .emptyBackupSuffix) ∧ execution.exitCode = 1 ∧
        Disk.mixedDisk.applyAll execution.mutations = Disk.mixedDisk := by
  let invocation : Invocation := ⟨".", none, .run true ⟨["a.h"], false, some "", none, none⟩⟩
  have hparse : Arguments.parse ["check", "--file", "a.h", "--backup-suffix="] =
      .invoke invocation := by
    decide +kernel
  have hready : invocation.Ready Disk.mixedDisk "/" Config.default :=
    ⟨by decide +kernel, by decide +kernel⟩
  obtain ⟨hidle, _, hsuffix⟩ := fatal_error_touches_nothing invocation Disk.mixedDisk
    ⟨⟨2024, 5, 1, 12, 0, 0, 0⟩, ⟨2024, 5, 1, 12, 0, 1, 0⟩⟩
  obtain ⟨error, herror, hfatal, hready'⟩ := hsuffix rfl
  obtain ⟨hcode, hdisk, _⟩ := hidle error herror hfatal
  obtain rfl := hready' _ _ hready
  exact ⟨invocation, hparse, _, rfl, herror, hcode, hdisk⟩

end Invocation
end SymbolRename
