import Mathlib.Data.List.Nodup
import SymbolRename.Config
import SymbolRename.Proofs.Toml.Document

/-!
# What a configuration says

A configuration file holds any of three tables, in any order and in any layout.  Reading it gives
the values of the tables that are there and the defaults of the others.  A name that is not known,
at either level, makes the file invalid.
-/

namespace SymbolRename
namespace Config

open TomlReader TomlTable

/-! ## Sections -/

/-- A table of a configuration file, with the value of its key. -/
inductive Section where
  | files (paths : List String)
  | backups (suffix : String)
  | decode (policy : DecodePolicy)

def policyName : DecodePolicy → String
  | .strict => "strict"
  | .lenient => "lenient"

namespace Section

def name : Section → String
  | .files _ => "files"
  | .backups _ => "backups"
  | .decode _ => "decode"

def key : Section → String
  | .files _ => "paths"
  | .backups _ => "suffix"
  | .decode _ => "policy"

def value : Section → TomlValue
  | .files paths => .array (paths.map .string)
  | .backups suffix => .string suffix
  | .decode policy => .string (policyName policy)

def statements (s : Section) : List TomlStatement :=
  [.openTable [s.name], .assign [s.key] s.value]

def paths? : Section → Option (List String)
  | .files paths => some paths
  | _ => none

def suffix? : Section → Option String
  | .backups suffix => some suffix
  | _ => none

def policy? : Section → Option DecodePolicy
  | .decode policy => some policy
  | _ => none

def table (s : Section) : TomlValue := .table .header [(s.key, s.value)]

end Section

/-- The values of the sections that are given, and the defaults of the others. -/
def ofSections (sections : List Section) : Config where
  paths := (sections.findSome? Section.paths?).getD []
  suffix := (sections.findSome? Section.suffix?).getD ".backup"
  policy := (sections.findSome? Section.policy?).getD .strict

/-- A section adds its table to a document that does not have it. -/
theorem extend_section {s : Section} {table : TomlTable} (h : table.lookup s.name = none)
    (header : List String) (later : List TomlStatement) :
    extend header (s.statements ++ later) table =
      extend [s.name] later (table ++ [(s.name, s.table)]) := by
  have hopen : TomlTable.modify s.name openLeaf table =
      some (table ++ [(s.name, .table .header [])]) := by
    have happend := modify_append_of_lookup_eq_none h openLeaf []
    rwa [List.append_nil] at happend
  have hassign : assign [s.name] [s.key] s.value (table ++ [(s.name, .table .header [])]) =
      some (table ++ [(s.name, s.table)]) := by
    change TomlTable.modify s.name _ _ = _
    rw [modify_append_of_lookup_eq_none h, TomlTable.modify, if_pos rfl]
    rfl
  change (TomlTable.modify s.name openLeaf table).bind (fun table ↦
    (assign [s.name] [s.key] s.value table).bind (extend [s.name] later)) = _
  rw [hopen, Option.bind_some, hassign, Option.bind_some]

theorem extend_sections {sections : List Section} (hdistinct : (sections.map Section.name).Nodup)
    {table : TomlTable} (hfresh : ∀ s ∈ sections, table.lookup s.name = none)
    (header : List String) :
    extend header (sections.flatMap Section.statements) table =
      some (table ++ sections.map fun s ↦ (s.name, s.table)) := by
  induction sections generalizing header table with
  | nil => simp [extend]
  | cons s sections ih =>
      obtain ⟨hs, hfresh⟩ := List.forall_mem_cons.mp hfresh
      rw [List.map_cons, List.nodup_cons] at hdistinct
      have hlater : ∀ later ∈ sections,
          (table ++ [(s.name, s.table)]).lookup later.name = none := by
        intro later hlater
        have hne : later.name ≠ s.name := fun h ↦ hdistinct.1 (h ▸ List.mem_map_of_mem hlater)
        rw [List.lookup_append, hfresh later hlater, lookup_cons_ite, if_neg hne]
        rfl
      rw [List.flatMap_cons, extend_section hs, ih hdistinct.2 hlater, List.append_assoc]
      rfl

/-! ## Values and defaults -/

theorem texts?_array (texts : List String) :
    texts? (.array (texts.map .string)) = some texts := by
  change (texts.map TomlValue.string).mapM text? = some texts
  induction texts with
  | nil => rfl
  | cons text texts ih => simp [List.mapM_cons, text?, ih]

theorem policyOfName?_policyName (policy : DecodePolicy) :
    policyOfName? (policyName policy) = some policy := by
  cases policy <;> simp [policyName, policyOfName?]

/-- The first section that gives a value of a kind decides it. -/
theorem section?_sections {α : Type} {name : String} {default : α}
    {read? : TomlValue → Option α} {given? : Section → Option α}
    (hsome : ∀ s value, given? s = some value → s.name = name ∧ read? s.table = some value)
    (hnone : ∀ s, given? s = none → s.name ≠ name) (sections : List Section) :
    Config.section? (sections.map fun s ↦ (s.name, s.table)) name default read? =
      some ((sections.findSome? given?).getD default) := by
  induction sections with
  | nil => rfl
  | cons s sections ih =>
      rw [List.findSome?_cons]
      cases hgiven : given? s with
      | none =>
          rw [List.map_cons, section?, lookup_cons_ite, if_neg (hnone s hgiven).symm]
          exact ih
      | some value =>
          obtain ⟨hname, hread⟩ := hsome s value hgiven
          rw [List.map_cons, section?, lookup_cons_ite, if_pos hname.symm]
          exact hread

theorem single?_table {α : Type} (key : String) (default : α) (read? : TomlValue → Option α)
    (value : TomlValue) :
    single? key default read? (.table .header [(key, value)]) = read? value := if_pos rfl

theorem ofTable?_sections (sections : List Section) :
    ofTable? (sections.map fun s ↦ (s.name, s.table)) = some (ofSections sections) := by
  have hknown : (sections.map fun s ↦ (s.name, s.table)).all fun member ↦
      ["files", "backups", "decode"].contains member.1 := by
    rw [List.all_map, List.all_eq_true]
    intro s _
    cases s <;> rfl
  have hpaths : section? (sections.map fun s ↦ (s.name, s.table)) "files" []
      (single? "paths" [] texts?) = some (ofSections sections).paths := by
    refine section?_sections ?_ ?_ sections
    · rintro s paths hs
      cases s <;> cases hs
      exact ⟨rfl, (single?_table ..).trans (texts?_array paths)⟩
    · rintro s hs
      cases s <;> cases hs <;> simp [Section.name]
  have hsuffix : section? (sections.map fun s ↦ (s.name, s.table)) "backups" defaultBackupSuffix
      (single? "suffix" defaultBackupSuffix text?) = some (ofSections sections).suffix := by
    refine section?_sections ?_ ?_ sections
    · rintro s suffix hs
      cases s <;> cases hs
      exact ⟨rfl, single?_table ..⟩
    · rintro s hs
      cases s <;> cases hs <;> simp [Section.name]
  have hpolicy : section? (sections.map fun s ↦ (s.name, s.table)) "decode" .strict
      (single? "policy" .strict policy?) = some (ofSections sections).policy := by
    refine section?_sections ?_ ?_ sections
    · rintro s policy hs
      cases s <;> cases hs
      exact ⟨rfl, (single?_table ..).trans (policyOfName?_policyName policy)⟩
    · rintro s hs
      cases s <;> cases hs <;> simp [Section.name]
  simp only [ofTable?, hknown, hpaths, hsuffix, hpolicy]
  rfl

/-! ## Unknown names -/

/-- The names that are known under a header. -/
def knownNames : List String → List String
  | [] => ["files", "backups", "decode"]
  | ["files"] => ["paths"]
  | ["backups"] => ["suffix"]
  | ["decode"] => ["policy"]
  | _ => []

theorem single?_eq_none {α : Type} {key name : String} (hname : name ≠ key)
    {members : TomlTable} (hmembers : (members.lookup name).isSome) (default : α)
    (read? : TomlValue → Option α) (origin : TableOrigin) :
    single? key default read? (.table origin members) = none := by
  match members with
  | [] => cases hmembers
  | [(other, value)] =>
      rw [lookup_cons_ite] at hmembers
      split at hmembers
      · next hother => exact if_neg (hother ▸ hname)
      · cases hmembers
  | _ :: _ :: _ => rfl

theorem ofTable?_eq_none_of_lookup {table : TomlTable} {name : String}
    (h : (table.lookup name).isSome) (hname : name ∉ knownNames []) : ofTable? table = none := by
  obtain ⟨member, hmember, hbeq⟩ := List.lookup_isSome_iff.mp h
  have hunknown : ¬ table.all fun member ↦ ["files", "backups", "decode"].contains member.1 := by
    intro hall
    have hcontains := List.all_eq_true.mp hall member hmember
    rw [← eq_of_beq hbeq, List.contains_iff_mem] at hcontains
    exact hname hcontains
  rw [ofTable?, if_neg hunknown]

theorem ofTable?_eq_none_of_table {table members : TomlTable} {header name : String}
    {origin : TableOrigin} (htable : table.lookup header = some (.table origin members))
    (hlookup : (members.lookup name).isSome) (hname : name ∉ knownNames [header]) :
    ofTable? table = none := by
  by_cases hheader : header ∈ knownNames []
  · have hsection : ∀ {α : Type} {key : String} (default : α) (read? : TomlValue → Option α),
        name ≠ key → section? table header default (single? key default read?) = none := by
      intro α key default read? hkey
      rw [section?, htable]
      exact single?_eq_none hkey hlookup default read? origin
    simp only [knownNames, List.mem_cons, List.not_mem_nil, or_false] at hheader
    rcases hheader with rfl | rfl | rfl <;>
      simp [ofTable?, hsection, show name ≠ _ from List.ne_of_not_mem_cons hname]
  · exact ofTable?_eq_none_of_lookup (by simp [htable]) hheader

theorem ofTable?_eq_none {table members : TomlTable} {header : List String}
    (hheader : header.length ≤ 1) (hmembers : inner? header table = some members) {name : String}
    (hlookup : (members.lookup name).isSome) (hname : name ∉ knownNames header) :
    ofTable? table = none := by
  match header with
  | [] =>
      cases hmembers
      exact ofTable?_eq_none_of_lookup hlookup hname
  | [first] =>
      rw [inner?] at hmembers
      split at hmembers
      · next htable =>
        cases hmembers
        exact ofTable?_eq_none_of_table htable hlookup hname
      · cases hmembers

/-- The second text is the first with a key or a table added on a line of its own, under a name that
is not known there.  Any text may stand for the value of the key and the rest of its lines. -/
inductive Adds : List Char → List Char → Prop where
  | key {statements : List TomlStatement} {front gap rest added left : List Char} {name : String}
      (hgap : IsGap gap) (hlines : IsLines statements (front ++ gap)) (hname : IsBareKey name)
      (hleft : IsBlanks left) (hunknown : name ∉ knownNames (headerAfter [] statements)) :
      Adds (front ++ rest)
        (front ++ gap ++ (name.toList ++ (left ++ '=' :: (added ++ rest))))
  | table {statements : List TomlStatement} {front gap rest added left right : List Char}
      {name : String} (hgap : IsGap gap) (hlines : IsLines statements (front ++ gap))
      (hname : IsBareKey name) (hleft : IsBlanks left) (hright : IsBlanks right)
      (hunknown : name ∉ knownNames []) :
      Adds (front ++ rest)
        (front ++ gap ++ '[' :: (left ++ (name.toList ++ (right ++ ']' :: (added ++ rest)))))

theorem Adds.ofTable?_eq_none {before : List Char} {text : String}
    (h : Adds before text.toList) {table : TomlTable} (htable : ofText? text = some table) :
    ofTable? table = none := by
  generalize htext : text.toList = after at h
  cases h with
  | key _ hlines hname hleft hunknown =>
      obtain ⟨members, hmembers, hlookup⟩ :=
        exists_inner?_of_ofText? htable hlines hname hleft htext
      have hlength := @length_headerAfter_le [] (Nat.zero_le 1) _ hlines.flat
      exact Config.ofTable?_eq_none hlength hmembers hlookup hunknown
  | table _ hlines hname hleft hright hunknown =>
      have hlookup := lookup_isSome_of_ofText? htable hlines hname hleft hright htext
      exact ofTable?_eq_none_of_lookup hlookup hunknown

theorem exists_error_of_ofTable?_eq_none {text : String}
    (h : ∀ table, ofText? text = some table → ofTable? table = none) :
    ∃ error, parse text = .error error ∧ error.chain.head? = some "invalid TOML" := by
  cases htable : ofText? text with
  | none => exact ⟨.malformed, by simp [parse, htable], rfl⟩
  | some table => exact ⟨.unexpected, by simp [parse, htable, h table htable], rfl⟩

/-! ## Files -/

/-- The text holds these sections, on lines of their own and in this order, and nothing else. -/
def IsFile (sections : List Section) (text : String) : Prop :=
  IsDocument (sections.flatMap Section.statements) text.toList

theorem Section.isBareKey_name (s : Section) : IsBareKey s.name := by
  cases s <;> constructor <;> simp [Section.name, isKeyChar]

theorem Section.isBareKey_key (s : Section) : IsBareKey s.key := by
  cases s <;> constructor <;> simp [Section.key, isKeyChar]

theorem Section.exists_isValue (s : Section) : ∃ cs, IsValue s.value cs := by
  cases s with
  | files paths =>
      obtain ⟨cs, hcs⟩ := exists_isItems paths
      exact ⟨_, .array hcs⟩
  | backups suffix =>
      obtain ⟨cs, hcs⟩ := exists_isString suffix
      exact ⟨cs, .string hcs⟩
  | decode policy =>
      obtain ⟨cs, hcs⟩ := exists_isString (policyName policy)
      exact ⟨cs, .string hcs⟩

theorem exists_isFile (sections : List Section) : ∃ text, IsFile sections text := by
  have hstatements : ∀ statement ∈ sections.flatMap Section.statements,
      ∃ cs, IsStatement statement cs := by
    intro statement hstatement
    obtain ⟨s, _, hs⟩ := List.mem_flatMap.mp hstatement
    simp only [Section.statements, List.mem_cons, List.not_mem_nil, or_false] at hs
    rcases hs with rfl | rfl
    · exact ⟨_, .openTable s.isBareKey_name isBlanks_nil isBlanks_nil⟩
    · obtain ⟨cs, hcs⟩ := s.exists_isValue
      exact ⟨_, .assign s.isBareKey_key isBlanks_nil isBlanks_nil hcs⟩
  obtain ⟨cs, hcs⟩ := exists_isDocument hstatements
  exact ⟨String.ofList cs, by rwa [IsFile, String.toList_ofList]⟩

theorem parse_of_isFile {sections : List Section}
    (hdistinct : (sections.map Section.name).Nodup) {text : String}
    (htext : IsFile sections text) :
    parse text =
      if (ofSections sections).suffix = "" then .error .emptySuffix
      else .ok (ofSections sections) := by
  have htable : ofText? text = some (sections.map fun s ↦ (s.name, s.table)) := by
    rw [ofText?_of_isDocument htext, ofStatements?]
    exact extend_sections hdistinct (fun _ _ ↦ rfl) []
  simp only [parse, htable, ofTable?_sections]

theorem Section.eq_backups_of_suffix? {s : Section} {suffix : String}
    (h : s.suffix? = some suffix) : s = .backups suffix := by
  cases s <;> cases h
  rfl

theorem suffix_ofSections_eq_empty_iff {sections : List Section}
    (hdistinct : (sections.map Section.name).Nodup) :
    (ofSections sections).suffix = "" ↔ .backups "" ∈ sections := by
  have hmem : ∀ {suffix}, sections.findSome? Section.suffix? = some suffix →
      .backups suffix ∈ sections := by
    intro suffix h
    obtain ⟨s, hs, hsuffix⟩ := List.exists_of_findSome?_eq_some h
    rwa [← Section.eq_backups_of_suffix? hsuffix]
  constructor
  · intro h
    cases hfind : sections.findSome? Section.suffix? with
    | none => simp [ofSections, hfind] at h
    | some suffix =>
        have hsuffix : suffix = "" := by simpa [ofSections, hfind] using h
        exact hsuffix ▸ hmem hfind
  · intro h
    cases hfind : sections.findSome? Section.suffix? with
    | none => cases List.findSome?_eq_none_iff.mp hfind _ h
    | some suffix =>
        have heq := List.inj_on_of_nodup_map hdistinct (hmem hfind) h rfl
        cases heq
        simp [ofSections, hfind]

/-- A file with some of the sections, in any order and layout, has the values of these sections and
otherwise the defaults; only the suffix of backups must not be empty.  With a key or a table under
any other name it is refused. -/
theorem files_mean_what_they_say {sections : List Section}
    (hdistinct : (sections.map Section.name).Nodup) :
    (∃ text, IsFile sections text) ∧
      ∀ text, IsFile sections text →
        (.backups "" ∉ sections → parse text = .ok (ofSections sections)) ∧
        (.backups "" ∈ sections → ∃ error, parse text = .error error ∧
          error.chain = ["backups.suffix must not be empty"]) ∧
        ∀ larger : String, Adds text.toList larger.toList →
          ∃ error, parse larger = .error error ∧ error.chain.head? = some "invalid TOML" := by
  refine ⟨exists_isFile sections, fun text htext ↦ ?_⟩
  have hparse := parse_of_isFile hdistinct htext
  have hsuffix := suffix_ofSections_eq_empty_iff hdistinct
  refine ⟨fun hmem ↦ ?_, fun hmem ↦ ?_, fun larger hadds ↦ ?_⟩
  · rw [hparse, if_neg (mt hsuffix.mp hmem)]
  · exact ⟨.emptySuffix, by rw [hparse, if_pos (hsuffix.mpr hmem)], rfl⟩
  · exact exists_error_of_ofTable?_eq_none fun _ ↦ hadds.ofTable?_eq_none

/-- Backups, with escapes and a comment, come before files, and the last line has no newline. -/
def mixedFile : String :=
  "[backups]\nsuffix=\"\\\"\\x7e\" # odd\r\n\t[ files ]\npaths = [\"é\", # one\n]"

theorem isFile_mixedFile : IsFile [.backups "\"~", .files ["é"]] mixedFile := by
  have hspace : IsBlanks [' '] := by simp [IsBlanks]
  have htab : IsBlanks ['\t'] := by simp [IsBlanks]
  have hfeed : IsLineEnd ['\n'] := .intro isBlanks_nil .none .feed
  have hodd : IsComment ['#', ' ', 'o', 'd', 'd'] := .text (by simp [isPrintable])
  have hone : IsComment ['#', ' ', 'o', 'n', 'e'] := .text (by simp [isPrintable])
  have hgap : IsGap [' ', '#', ' ', 'o', 'n', 'e', '\n'] :=
    .line (.intro hspace hone .feed) isGap_nil
  have hquote : IsEscape '"' ['"'] := .letter (by simp [escapeLetters])
  have htilde : IsEscape '~' ['x', '7', 'e'] := .code (by simp [escapeMarks]) rfl
  have hsuffix : IsString "\"~" ['"', '\\', '"', '\\', 'x', '7', 'e', '"'] :=
    @IsString.intro _ ['\\', '"', '\\', 'x', '7', 'e']
      (by simpa using IsQuoted.escape hquote (.escape htilde .nil))
  have hpath : IsString "é" ['"', 'é', '"'] :=
    @IsString.intro _ ['é'] (by simpa using IsQuoted.plain rfl (by simp) (by simp) .nil)
  have hlines := IsLines.cons isGap_nil
    (.openTable (Section.isBareKey_name (.backups "")) isBlanks_nil isBlanks_nil) hfeed
    (.cons isGap_nil
      (.assign (Section.isBareKey_key (.backups "")) isBlanks_nil isBlanks_nil (.string hsuffix))
      (.intro hspace hodd .returnFeed)
      (.cons (.blanks htab)
        (.openTable (Section.isBareKey_name (.files [])) hspace hspace) hfeed (.nil isGap_nil)))
  have hpaths := IsStatement.assign (Section.isBareKey_key (.files [])) hspace hspace
    (.array (.more isGap_nil hpath isGap_nil (.none hgap)))
  simpa [IsFile, mixedFile, Section.statements, Section.name, Section.key, Section.value] using
    IsDocument.last hlines hpaths isBlanks_nil .none

/-- The same file with a key between the first header and its key. -/
def mixedFileWithMode : String :=
  "[backups]\nmode = 1\nsuffix=\"\\\"\\x7e\" # odd\r\n\t[ files ]\npaths = [\"é\", # one\n]"

theorem adds_mixedFile : Adds mixedFile.toList mixedFileWithMode.toList := by
  have hheader : IsLines [.openTable ["backups"]] ("[backups]\n".toList ++ []) := by
    simpa [Section.name] using IsLines.cons isGap_nil
      (.openTable (Section.isBareKey_name (.backups "")) isBlanks_nil isBlanks_nil)
      (.intro isBlanks_nil .none .feed) (.nil isGap_nil)
  have hname : IsBareKey "mode" := by constructor <;> simp [isKeyChar]
  have hspace : IsBlanks [' '] := by simp [IsBlanks]
  have hadds := @Adds.key _ _ _ (mixedFile.toList.drop 10) [' ', '1', '\n'] _ _ isGap_nil hheader
    hname hspace (by simp [headerAfter, knownNames])
  simpa [mixedFile, mixedFileWithMode] using hadds

theorem mixedFile_means_what_it_says :
    ([.backups "\"~", .files ["é"]].map Section.name).Nodup ∧
      IsFile [.backups "\"~", .files ["é"]] mixedFile ∧
      parse mixedFile = .ok ⟨["é"], "\"~", .strict⟩ ∧
      Adds mixedFile.toList mixedFileWithMode.toList ∧
      ∃ error, parse mixedFileWithMode = .error error ∧
        error.chain.head? = some "invalid TOML" := by
  have hdistinct : ([.backups "\"~", .files ["é"]].map Section.name).Nodup := by
    simp [Section.name]
  obtain ⟨hmeans, _, hadds⟩ := (files_mean_what_they_say hdistinct).2 mixedFile isFile_mixedFile
  exact ⟨hdistinct, isFile_mixedFile, hmeans (by simp), adds_mixedFile, hadds _ adds_mixedFile⟩

end Config
end SymbolRename
