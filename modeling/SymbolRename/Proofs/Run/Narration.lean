import SymbolRename.Proofs.Command.Execution
import SymbolRename.Proofs.Report.Summary
import SymbolRename.Proofs.Run.Sequence

/-!
# What is heard of a run

A run tells of every file when it starts on it and when it is through with it, and of a missing file
only the latter.  `Disk.Narrated` says how this is woven into what the run does to the disk.  Both
what is told and what is printed can be read off the report alone.

The paths that are printed are put together on their own, apart from those at which files are looked
for.  `Console.Names` says in which lines they stand.
-/

namespace SymbolRename

theorem RunReport.root_foldl_push (report : RunReport) (outcomes : List FileOutcome) :
    (outcomes.foldl push report).root = report.root := by
  induction outcomes generalizing report with
  | nil => rfl
  | cons outcome outcomes ih => exact ih (report.push outcome)

/-! ## Progress -/

def RunEvent.isProgress : RunEvent → Bool
  | .mutation _ => false
  | _ => true

def progressOf (events : List RunEvent) : List RunEvent := events.filter RunEvent.isProgress

/-- What is told of a file with a given outcome. -/
def FileOutcome.progress (outcome : FileOutcome) : List RunEvent :=
  if outcome.status = .missing then [.finished outcome]
  else [.started outcome.path, .finished outcome]

/-- The outcomes of a run that starts on a disk, and its events.  All that is done for a file is
done between the two events that tell of it, on the disk that the files before it have left. -/
inductive Disk.Narrated (settings : RunSettings) :
    Disk → List FileOutcome → List RunEvent → Prop where
  | nil {disk : Disk} : Narrated settings disk [] []
  | missing {disk : Disk} {outcome : FileOutcome} {outcomes : List FileOutcome}
      {events : List RunEvent} (hmissing : outcome.status = .missing)
      (heffect : disk.EntryEffect settings outcome.path outcome [])
      (hlater : Narrated settings disk outcomes events) :
      Narrated settings disk (outcome :: outcomes) (.finished outcome :: events)
  | present {disk : Disk} {outcome : FileOutcome} {made : List Mutation}
      {outcomes : List FileOutcome} {events : List RunEvent} (hpresent : outcome.status ≠ .missing)
      (heffect : disk.EntryEffect settings outcome.path outcome made)
      (hlater : Narrated settings (disk.applyAll made) outcomes events) :
      Narrated settings disk (outcome :: outcomes)
        (.started outcome.path :: (made.map .mutation ++ .finished outcome :: events))

namespace Disk

variable {disk : Disk} {settings : RunSettings} {outcomes : List FileOutcome}
  {events : List RunEvent}

/-- One entry and whatever comes after it. -/
theorem EntryEffect.narrated {path : String} {outcome : FileOutcome} {made : List Mutation}
    (h : disk.EntryEffect settings path outcome made)
    (hlater : Narrated settings (disk.applyAll made) outcomes events) :
    Narrated settings disk (outcome :: outcomes) (entryEvents path outcome made ++ events) := by
  obtain rfl := h.path_eq
  by_cases hstatus : outcome.status = .missing
  · obtain rfl := h.mutations_eq_nil (by simp [hstatus])
    rw [entryEvents, if_pos hstatus]
    exact .missing hstatus h hlater
  · simp only [entryEvents, if_neg hstatus, List.cons_append, List.append_assoc, List.nil_append]
    exact .present hstatus h hlater

theorem narrated_runEntries (disk : Disk) (settings : RunSettings) (files : List String) :
    Narrated settings disk (disk.runOutcomes settings files)
      (disk.runEntries settings files).2 := by
  induction files generalizing disk with
  | nil => exact .nil
  | cons path files ih =>
      have h := disk.entryEffect_self settings path
      rw [runOutcomes_cons]
      simp only [runEntries, h.runEntry_eq, h.mutationsOf_entryEvents]
      -- the later entries start on the disk that this one leaves
      exact h.narrated (ih _)

theorem progressOf_mutations (made : List Mutation) :
    progressOf (made.map .mutation) = [] := by
  simp [progressOf, RunEvent.isProgress]

theorem Narrated.progressOf_eq (h : Narrated settings disk outcomes events) :
    progressOf events = outcomes.flatMap FileOutcome.progress := by
  induction h with
  | nil => rfl
  | missing hmissing _ _ ih =>
      rw [List.flatMap_cons, ← ih, FileOutcome.progress, if_pos hmissing]
      rfl
  | @present _ outcome made _ events hpresent _ _ ih =>
      have hmade := progressOf_mutations made
      rw [List.flatMap_cons, ← ih, FileOutcome.progress, if_neg hpresent]
      simp only [progressOf, List.filter_cons, List.filter_append, RunEvent.isProgress] at hmade ⊢
      rw [hmade]
      rfl

end Disk

/-! ## The console -/

def Effect.text? : Effect → Option String
  | .print text => some text
  | .mutation _ => none

def printed (effects : List Effect) : String := String.join (effects.filterMap Effect.text?)

theorem Execution.output_eq (execution : Execution) :
    execution.output = printed execution.effects := by
  rw [output, printed]
  congr

theorem printed_append (effects others : List Effect) :
    printed (effects ++ others) = printed effects ++ printed others := by
  simp [printed]

theorem printed_print (text : String) (effects : List Effect) :
    printed (.print text :: effects) = text ++ printed effects := by
  simp [printed, Effect.text?]

theorem printed_mutations (made : List Mutation) : printed (made.map .mutation) = "" := by
  have hnone : (made.map Effect.mutation).filterMap Effect.text? = [] := by
    simp [List.filterMap_eq_nil_iff, Effect.text?]
  rw [printed, hnone, String.join_nil]

namespace Console

/-- All lines for a file. -/
def entryLines (root : String) (outcome : FileOutcome) : String :=
  (if outcome.status = .missing then "" else fileStart root outcome.path) ++
    fileOutcome root outcome

/-- All that a run with a given report prints. -/
def transcript (report : RunReport) : String :=
  header report.dryRun ++ String.join (report.files.map (entryLines report.root)) ++ footer report

end Console

theorem Disk.Narrated.printed_eq {disk : Disk} {settings : RunSettings}
    {outcomes : List FileOutcome} {events : List RunEvent}
    (h : Disk.Narrated settings disk outcomes events) (root : String) :
    printed (events.map (RunEvent.effect root)) =
      String.join (outcomes.map (Console.entryLines root)) := by
  induction h with
  | nil => rfl
  | missing hmissing _ _ ih =>
      rw [List.map_cons, RunEvent.effect, printed_print, ih, List.map_cons, String.join_cons,
        Console.entryLines, if_pos hmissing, String.empty_append]
  | @present _ outcome made _ _ hpresent _ _ ih =>
      have hmade : (made.map RunEvent.mutation).map (RunEvent.effect root) =
          made.map Effect.mutation := by
        simp [RunEvent.effect]
      rw [List.map_cons, List.map_append, List.map_cons, hmade, List.map_cons, String.join_cons,
        Console.entryLines, if_neg hpresent, RunEvent.effect, RunEvent.effect, printed_print,
        printed_append, printed_mutations, printed_print, ih, String.empty_append,
        String.append_assoc]

theorem executeRun_effects {disk : Disk} {clock : Clock} {root : String} {config : Config}
    {dryRun : Bool} {options : RunOptions} {result : RunResult}
    (h : disk.run (options.settings root config dryRun) toolInfo clock = .ok result) :
    ∃ made : List Mutation, (executeRun disk clock root config dryRun options).effects =
      result.shown root dryRun ++ made.map .mutation := by
  unfold RunOptions.settings at h
  simp only [executeRun, h]
  split
  · exact ⟨_, rfl⟩
  · exact ⟨_, rfl⟩

theorem printed_shown {disk : Disk} {settings : RunSettings} {result : RunResult} {root : String}
    {dryRun : Bool} (h : Disk.Narrated settings disk result.report.files result.events)
    (hroot : result.report.root = root) (hdry : result.report.dryRun = dryRun) :
    printed (result.shown root dryRun) = Console.transcript result.report := by
  rw [RunResult.shown, List.cons_append, printed_print, printed_append, h.printed_eq,
    printed_print, Console.transcript, hroot, hdry, ← String.append_assoc]
  simp [printed]

/-! ## Paths -/

/-- How a directory and a path below it are put together.  An absolute path stands for itself, and
a slash goes between the two unless the directory is empty or ends with one. -/
inductive Joined : (directory path joined : String) → Prop where
  | absolute {directory rest : String} : Joined directory ("/" ++ rest) ("/" ++ rest)
  | alone {path : String} (relative : ¬∃ rest, path = "/" ++ rest) : Joined "" path path
  | slashed {front path : String} (relative : ¬∃ rest, path = "/" ++ rest) :
      Joined (front ++ "/") path (front ++ "/" ++ path)
  | separated {directory path : String} (relative : ¬∃ rest, path = "/" ++ rest)
      (nonempty : directory ≠ "") (unslashed : ¬∃ front, directory = front ++ "/") :
      Joined directory path (directory ++ "/" ++ path)

theorem isAbsolute_iff {path : String} : isAbsolute path = true ↔ ∃ rest, path = "/" ++ rest := by
  constructor
  · intro h
    obtain ⟨rest, hrest⟩ := List.head?_eq_some_iff.mp (of_decide_eq_true h)
    exact ⟨String.ofList rest, by simp [← String.toList_inj, hrest]⟩
  · rintro ⟨rest, rfl⟩
    simp [isAbsolute]

theorem getLast?_eq_slash_iff {path : String} :
    path.toList.getLast? = some '/' ↔ ∃ front, path = front ++ "/" := by
  constructor
  · intro h
    obtain ⟨front, hfront⟩ := List.getLast?_eq_some_iff.mp h
    exact ⟨String.ofList front, by simp [← String.toList_inj, hfront]⟩
  · rintro ⟨front, rfl⟩
    simp

theorem joined_joinPath (directory path : String) :
    Joined directory path (joinPath directory path) := by
  rw [joinPath]
  split
  · next habsolute =>
    obtain ⟨rest, rfl⟩ := isAbsolute_iff.mp habsolute
    exact .absolute
  · next habsolute =>
    have hrelative := isAbsolute_iff.not.mp habsolute
    have hends : directory.toList = [] ∨ directory.toList.getLast? = some '/' ↔
        directory = "" ∨ ∃ front, directory = front ++ "/" :=
      or_congr String.toList_eq_nil_iff getLast?_eq_slash_iff
    split
    · next hend =>
      obtain rfl | ⟨front, rfl⟩ := hends.mp hend
      · rw [String.empty_append]
        exact .alone hrelative
      · exact .slashed hrelative
    · next hend =>
      obtain ⟨hnonempty, hunslashed⟩ := not_or.mp (hends.not.mp hend)
      exact .separated hrelative hnonempty hunslashed

def EditError.path : EditError → String
  | .io _ path _ => path
  | .decode path _ => path
  | .backupMismatch path => path
  | .backupMissing path => path

/-- The path at which an entry was looked for. -/
def Resolved.absPath : Resolved → String
  | .found file => file.absPath
  | .missing _ absPath => absPath
  | .failed _ error => error.path

namespace Disk

variable {disk : Disk} {settings : RunSettings} {policy : DecodePolicy} {path absPath : String}

theorem path_of_load_error {error : EditError}
    (h : disk.load policy path absPath = .error error) : error.path = absPath := by
  rw [load] at h
  split at h
  · cases h
    rfl
  · next raw _ =>
    rw [decodeFile] at h
    cases hdecode : decodeBytes policy raw with
    | error validUpTo =>
        simp only [hdecode] at h
        cases h
        rfl
    | ok decoded =>
        simp only [hdecode] at h
        cases h

theorem absPath_of_load {file : SourceFile} (h : disk.load policy path absPath = .ok file) :
    file.absPath = absPath := by
  obtain ⟨_, _, _, hfile⟩ := exists_lookup_of_load h
  rw [hfile, SourceFile.ofDecoded]

theorem absPath_resolve (disk : Disk) (root : String) (policy : DecodePolicy) (path : String) :
    (disk.resolve root policy path).absPath = entryPath root path := by
  rw [resolve]
  split
  · split
    · next hload => exact absPath_of_load hload
    · next hload => exact path_of_load_error hload
  · rfl

end Disk

namespace Console

/-- What is shown is where the entry is looked for, though only the latter asks whether the entry is
absolute before it joins. -/
theorem displayPath_eq_entryPath (root path : String) :
    displayPath root path = entryPath root path :=
  (entryPath_eq_joinPath root path).symm

/-- The line that says what has come of a file under a path.  There is none for a file that stays as
it is. -/
def namingLine (path : String) (outcome : FileOutcome) : String :=
  match outcome.status with
  | .missing => "WARNING: File not found: " ++ path ++ "\n"
  | .changed => "  ✓ Namespaced symbols in: " ++ path ++ "\n"
  | .pending => "  ~ Would namespace: " ++ path ++ "\n"
  | .unchanged => ""
  | .failed => "ERROR: " ++ path ++ ": " ++ reason outcome.message? ++ "\n"

/-- Lines of which the last one is complete.  There may be none. -/
def WholeLines (text : String) : Prop := text.toList.getLast?.getD '\n' = '\n'

theorem wholeLines_empty : WholeLines "" := rfl

theorem wholeLines_newline (text : String) : WholeLines (text ++ "\n") := by
  simp [WholeLines]

theorem WholeLines.append {text other : String} (h : WholeLines text) (hother : WholeLines other) :
    WholeLines (text ++ other) := by
  unfold WholeLines at h hother ⊢
  rw [String.toList_append, List.getLast?_append]
  cases hlast : other.toList.getLast? with
  | none => exact h
  | some c => rwa [hlast] at hother

/-- The lines for a file call it by a path: the first of them, and the one that says what has come
of the file.  The lines before and after the latter are the same below every root. -/
structure Names (outcome : FileOutcome) (pathBelow : String → String) : Prop where
  started : ∀ root, fileStart root outcome.path = "Processing: " ++ pathBelow root ++ "\n"
  finished : ∃ notes details, WholeLines notes ∧ ∀ root,
    fileOutcome root outcome = notes ++ namingLine (pathBelow root) outcome ++ details

theorem exists_statusLines_eq {outcome : FileOutcome} (h : outcome.status ≠ .missing) :
    ∃ notes details, WholeLines notes ∧ ∀ path,
      statusLines path outcome = notes ++ namingLine path outcome ++ details := by
  let phrase := countsPhrase (outcome.counts?.getD ⟨0, 0⟩)
  cases hstatus : outcome.status with
  | missing => exact absurd hstatus h
  | changed =>
      let found := "  ✓ Found " ++ phrase ++ "\n"
      cases hbackup : outcome.backupPath? with
      | none =>
          refine ⟨"", found, wholeLines_empty, fun path ↦ ?_⟩
          simp only [statusLines, namingLine, hstatus, hbackup, String.append_assoc, found, phrase]
      | some backup =>
          refine ⟨"  ✓ Created backup: " ++ backup ++ "\n", found, wholeLines_newline _,
            fun path ↦ ?_⟩
          simp only [statusLines, namingLine, hstatus, hbackup, String.append_assoc, found, phrase]
  | pending =>
      let found := "  ~ Would find " ++ phrase ++ "\n"
      cases hpatch : outcome.patch? with
      | none =>
          refine ⟨"", found, wholeLines_empty, fun path ↦ ?_⟩
          simp only [statusLines, namingLine, hstatus, hpatch, String.append_assoc,
            String.append_empty, String.empty_append, found, phrase]
      | some patch =>
          refine ⟨"", found ++ "\n" ++ patch, wholeLines_empty, fun path ↦ ?_⟩
          simp only [statusLines, namingLine, hstatus, hpatch, String.append_assoc,
            String.empty_append, found, phrase]
  | unchanged =>
      refine ⟨"", "  - No changes needed\n", wholeLines_empty, fun path ↦ ?_⟩
      simp only [statusLines, namingLine, hstatus, String.empty_append]
  | failed =>
      refine ⟨"", "", wholeLines_empty, fun path ↦ ?_⟩
      simp only [statusLines, namingLine, hstatus, String.append_empty, String.empty_append]

theorem names_entryPath (outcome : FileOutcome) :
    Names outcome (entryPath · outcome.path) where
  started root := by rw [fileStart, displayPath_eq_entryPath]
  finished := by
    by_cases hmissing : outcome.status = .missing
    · refine ⟨"", "\n", wholeLines_empty, fun root ↦ ?_⟩
      simp only [fileOutcome, displayPath_eq_entryPath, namingLine, hmissing, if_true,
        String.append_assoc, String.empty_append]
      rfl
    · obtain ⟨notes, details, hnotes, hlines⟩ := exists_statusLines_eq hmissing
      let lossy := if outcome.lossyDecode then
        "  ! Invalid UTF-8 sequences were replaced while decoding\n" else ""
      have hlossy : WholeLines lossy := by
        dsimp only [lossy]
        split <;> rfl
      refine ⟨lossy ++ notes, details ++ "\n", hlossy.append hnotes, fun root ↦ ?_⟩
      simp only [fileOutcome, if_neg hmissing, displayPath_eq_entryPath, hlines,
        String.append_assoc, lossy]

end Console

/-! ## Report, progress and console -/

namespace Disk

variable {disk : Disk} {settings : RunSettings}

theorem narrated_of_run {tool : ToolInfo} {clock : Clock} {result : RunResult}
    (h : disk.run settings tool clock = .ok result) :
    result.report.files = disk.runOutcomes settings settings.files ∧
      Narrated settings disk result.report.files result.events ∧
      result.report.root = settings.root ∧ result.report.dryRun = settings.dryRun := by
  rw [run] at h
  split at h
  · cases h
  · cases h
    have hfiles : (RunReport.finish ((disk.runEntries settings settings.files).1.foldl
        RunReport.push (.start tool settings.root settings.backupSuffix settings.dryRun
          clock.start)) clock.finish).files = disk.runOutcomes settings settings.files :=
      RunReport.files_foldl_push _ _
    refine ⟨hfiles, ?_, RunReport.root_foldl_push _ _, RunReport.dryRun_foldl_push _ _⟩
    rw [hfiles]
    exact disk.narrated_runEntries settings settings.files

/-- A run reports every entry of its list, tells of it what it reports, and does what it does for it
in between.  The console shows the report, with the paths at which the entries are looked for. -/
theorem run_narrates_report (disk : Disk) (settings : RunSettings) (tool : ToolInfo)
    (clock : Clock) (result : RunResult) (hrun : disk.run settings tool clock = .ok result) :
    result.report.files.map FileOutcome.path = settings.files ∧
    progressOf result.events = result.report.files.flatMap FileOutcome.progress ∧
    Narrated settings disk result.report.files result.events ∧
    (∀ outcome ∈ result.report.files, Console.Names outcome (entryPath · outcome.path)) ∧
    (∀ root path, Console.displayPath root path = entryPath root path ∧
      Joined root path (entryPath root path) ∧
      ∀ there : Disk, (there.resolve root settings.policy path).absPath = entryPath root path) ∧
    ∀ invocation root config dryRun options, Invocation.Ready invocation disk root config →
      invocation.action = .run dryRun options → options.settings root config dryRun = settings →
      tool = toolInfo →
      (invocation.execute disk clock).output = Console.transcript result.report := by
  obtain ⟨hfiles, hnarrated, hroot, hdry⟩ := narrated_of_run hrun
  refine ⟨?_, hnarrated.progressOf_eq, hnarrated, ?_, ?_, ?_⟩
  · rw [hfiles]
    exact disk.map_path_runOutcomes settings settings.files
  · intro outcome _
    exact Console.names_entryPath outcome
  · intro root path
    refine ⟨Console.displayPath_eq_entryPath root path, ?_, fun there ↦ ?_⟩
    · rw [entryPath_eq_joinPath]
      exact joined_joinPath root path
    · exact there.absPath_resolve root settings.policy path
  · rintro invocation root config dryRun options hready haction rfl rfl
    obtain ⟨made, heffects⟩ := executeRun_effects hrun
    rw [Execution.output_eq, hready.execute_eq, haction]
    simp only [heffects]
    -- reports are written after the footer and print nothing, whether they can be written or not
    rw [printed_append, printed_mutations, String.append_empty]
    apply printed_shown hnarrated
    · exact hroot
    · exact hdry

def mixedInvocation : Invocation :=
  ⟨".", none, .run false ⟨mixedSettings.files, false, none, none, none⟩⟩

theorem run_narrates_report_on_mixedDisk :
    ∃ result, mixedDisk.run { mixedSettings with root := "/" } toolInfo
        ⟨⟨2024, 5, 1, 12, 0, 0, 0⟩, ⟨2024, 5, 1, 12, 0, 1, 0⟩⟩ = .ok result ∧
      result.report.files.map FileOutcome.path = ["a.h", "d", "d/b.h", "c.h", "e.h"] ∧
      progressOf result.events = result.report.files.flatMap FileOutcome.progress ∧
      (∀ outcome ∈ result.report.files, Console.Names outcome (entryPath · outcome.path)) ∧
      (mixedInvocation.execute mixedDisk
        ⟨⟨2024, 5, 1, 12, 0, 0, 0⟩, ⟨2024, 5, 1, 12, 0, 1, 0⟩⟩).output =
          Console.transcript result.report := by
  obtain ⟨result, hrun, _⟩ := @run_eq_ok mixedDisk { mixedSettings with root := "/" } toolInfo
    ⟨⟨2024, 5, 1, 12, 0, 0, 0⟩, ⟨2024, 5, 1, 12, 0, 1, 0⟩⟩ (by decide) (by decide)
  obtain ⟨hpaths, hprogress, _, hnames, _, houtput⟩ := run_narrates_report _ _ _ _ result hrun
  have hready : mixedInvocation.Ready mixedDisk "/" Config.default :=
    ⟨by decide +kernel, by decide +kernel⟩
  exact ⟨result, hrun, hpaths, hprogress, hnames,
    houtput mixedInvocation _ _ _ _ hready rfl rfl rfl⟩

end Disk
end SymbolRename
