import SymbolRename.Toml.Value

/-!
# Tables grow

Statements only add to a table: a name that it holds, at any depth, is held for good.  A value that
is assigned under a header ends up in the table of that header.
-/

namespace SymbolRename
namespace TomlTable

/-! ## One key -/

theorem lookup_cons_ite (name key : String) (value : TomlValue) (table : TomlTable) :
    List.lookup name ((key, value) :: table) =
      if name = key then some value else table.lookup name := by
  by_cases hname : name = key
  · simp [hname]
  · have hbeq : (name == key) = false := by simpa using hname
    rw [List.lookup_cons, hbeq, if_neg hname]

/-- Changing one key changes what is found under this key only. -/
theorem lookup_modify {key : String} {change : Option TomlValue → Option TomlValue}
    {table changed : TomlTable} (h : modify key change table = some changed) :
    ∃ value, change (table.lookup key) = some value ∧
      ∀ name, changed.lookup name = if name = key then some value else table.lookup name := by
  induction table generalizing changed with
  | nil =>
      obtain ⟨value, hvalue, rfl⟩ := Option.map_eq_some_iff.mp h
      exact ⟨value, hvalue, fun name ↦ lookup_cons_ite name key value []⟩
  | cons member table ih =>
      obtain ⟨other, old⟩ := member
      rw [modify] at h
      split at h
      · next hkey =>
        obtain ⟨value, hvalue, rfl⟩ := Option.map_eq_some_iff.mp h
        refine ⟨value, by rw [lookup_cons_ite, if_pos hkey.symm, hvalue], fun name ↦ ?_⟩
        rw [lookup_cons_ite, lookup_cons_ite, hkey]
        split <;> rfl
      · next hkey =>
        obtain ⟨later, hlater, rfl⟩ := Option.map_eq_some_iff.mp h
        obtain ⟨value, hvalue, hlookup⟩ := ih hlater
        refine ⟨value, by rw [lookup_cons_ite, if_neg (Ne.symm hkey), hvalue], fun name ↦ ?_⟩
        rw [lookup_cons_ite, lookup_cons_ite, hlookup]
        by_cases hname : name = key
        · rw [if_neg (hname ▸ Ne.symm hkey), if_pos hname, if_pos hname]
        · rw [if_neg hname, if_neg hname]

theorem modify_append_of_lookup_eq_none {key : String} {table : TomlTable}
    (h : table.lookup key = none) (change : Option TomlValue → Option TomlValue)
    (others : TomlTable) :
    modify key change (table ++ others) = (modify key change others).map (table ++ ·) := by
  induction table with
  | nil => simp
  | cons member table ih =>
      obtain ⟨name, value⟩ := member
      rw [lookup_cons_ite] at h
      split at h
      · cases h
      · next hname =>
        rw [List.cons_append, modify, if_neg (Ne.symm hname), ih h, Option.map_map]
        rfl

/-! ## Growing -/

/-- The table under a path of headers. -/
def inner? : List String → TomlTable → Option TomlTable
  | [], table => some table
  | name :: path, table =>
    match table.lookup name with
    | some (.table _ members) => inner? path members
    | _ => none

/-- Every table inside the first is inside the second too, with all of its names. -/
def Grows (table larger : TomlTable) : Prop :=
  ∀ path members, inner? path table = some members →
    ∃ more, inner? path larger = some more ∧
      ∀ name, (members.lookup name).isSome → (more.lookup name).isSome

theorem Grows.refl (table : TomlTable) : table.Grows table :=
  fun _ members h ↦ ⟨members, h, fun _ ↦ id⟩

theorem Grows.trans {table larger largest : TomlTable} (h : table.Grows larger)
    (h' : larger.Grows largest) : table.Grows largest := by
  intro path members hmembers
  obtain ⟨more, hmore, hnames⟩ := h path members hmembers
  obtain ⟨most, hmost, hnames'⟩ := h' path more hmore
  exact ⟨most, hmost, fun name hname ↦ hnames' name (hnames name hname)⟩

end TomlTable

/-- A table is replaced by a larger one only. -/
def TomlValue.Grows (value larger : TomlValue) : Prop :=
  ∀ origin members, value = .table origin members →
    ∃ origin' more, larger = .table origin' more ∧ TomlTable.Grows members more

namespace TomlTable

theorem grows_of_lookup {table larger : TomlTable}
    (h : ∀ name value, table.lookup name = some value →
      ∃ value', larger.lookup name = some value' ∧ value.Grows value') :
    table.Grows larger := by
  intro path members hmembers
  cases path with
  | nil =>
      cases hmembers
      refine ⟨larger, rfl, fun name hname ↦ ?_⟩
      obtain ⟨value, hvalue⟩ := Option.isSome_iff_exists.mp hname
      obtain ⟨value', hvalue', _⟩ := h name value hvalue
      simp [hvalue']
  | cons name path =>
      rw [inner?] at hmembers
      split at hmembers
      · next origin inside hlookup =>
        obtain ⟨value', hvalue', hgrows⟩ := h name _ hlookup
        obtain ⟨origin', more, rfl, hmore⟩ := hgrows origin inside rfl
        simpa only [inner?, hvalue'] using hmore path members hmembers
      · cases hmembers

/-- A change that keeps what is there. -/
def Keeps (change : Option TomlValue → Option TomlValue) : Prop :=
  ∀ value value', change (some value) = some value' → value.Grows value'

theorem grows_modify {key : String} {change : Option TomlValue → Option TomlValue}
    (hkeeps : Keeps change) {table changed : TomlTable}
    (h : modify key change table = some changed) : table.Grows changed := by
  obtain ⟨value, hvalue, hlookup⟩ := lookup_modify h
  refine grows_of_lookup fun name old hold ↦ ?_
  rw [hlookup]
  by_cases hname : name = key
  · rw [← hname, hold] at hvalue
    exact ⟨value, if_pos hname, hkeeps old value hvalue⟩
  · exact ⟨old, by rw [if_neg hname, hold], fun origin members heq ↦
      ⟨origin, members, heq, .refl members⟩⟩

theorem keeps_openLeaf : Keeps openLeaf := by
  rintro value value' h origin members rfl
  cases origin <;> cases h
  exact ⟨_, _, rfl, .refl members⟩

theorem keeps_itemLeaf : Keeps itemLeaf := by
  rintro value value' h origin members rfl
  cases h

theorem keeps_assignLeaf (value : TomlValue) : Keeps (assignLeaf value) := by
  intro old value' h
  cases h

theorem keeps_enter (via : Via) {change : TomlTable → Option TomlTable}
    (hgrows : ∀ table changed, change table = some changed → table.Grows changed) :
    Keeps (enter via change) := by
  rintro value value' h origin members rfl
  rw [enter] at h
  split at h
  · obtain ⟨more, hmore, rfl⟩ := Option.map_eq_some_iff.mp h
    exact ⟨origin, more, rfl, hgrows members more hmore⟩
  · cases h

theorem grows_change {leaf : Option TomlValue → Option TomlValue} (hleaf : Keeps leaf)
    (steps : List (Via × String)) {table changed : TomlTable}
    (h : change leaf steps table = some changed) : table.Grows changed := by
  induction steps generalizing table changed with
  | nil => cases h
  | cons step steps ih =>
      cases steps with
      | nil => exact grows_modify hleaf h
      -- Behind the first step the rest of the path is a change of the table inside.
      | cons next steps => exact grows_modify (keeps_enter step.1 fun _ _ ↦ ih) h

/-- Whatever statements are carried out, no name is lost. -/
theorem grows_extend {header : List String} {statements : List TomlStatement}
    {table changed : TomlTable} (h : extend header statements table = some changed) :
    table.Grows changed := by
  induction statements generalizing header table with
  | nil =>
      cases h
      exact .refl changed
  | cons statement statements ih =>
      cases statement with
      | openTable path =>
          obtain ⟨opened, hopened, h⟩ := Option.bind_eq_some_iff.mp h
          exact (grows_change keeps_openLeaf _ hopened).trans (ih h)
      | openItem path =>
          obtain ⟨opened, hopened, h⟩ := Option.bind_eq_some_iff.mp h
          exact (grows_change keeps_itemLeaf _ hopened).trans (ih h)
      | assign path value =>
          obtain ⟨assigned, hassigned, h⟩ := Option.bind_eq_some_iff.mp h
          exact (grows_change (keeps_assignLeaf value) _ hassigned).trans (ih h)

/-! ## Headers -/

/-- The header that statements leave behind. -/
def headerAfter (header : List String) : List TomlStatement → List String
  | [] => header
  | .openTable path :: rest => headerAfter path rest
  | .openItem path :: rest => headerAfter path rest
  | .assign _ _ :: rest => headerAfter header rest

theorem extend_append (header : List String) (statements later : List TomlStatement)
    (table : TomlTable) :
    extend header (statements ++ later) table =
      (extend header statements table).bind (extend (headerAfter header statements) later) := by
  induction statements generalizing header table with
  | nil => rfl
  | cons statement statements ih =>
      have htail : ∀ header, extend header (statements ++ later) = fun table ↦
          (extend header statements table).bind (extend (headerAfter header statements) later) :=
        fun header ↦ funext (ih header)
      cases statement <;>
        simp only [List.cons_append, extend, headerAfter, Option.bind_assoc, htail]

theorem change_cons (leaf : Option TomlValue → Option TomlValue) (step : Via × String)
    {steps : List (Via × String)} (hne : steps ≠ []) (table : TomlTable) :
    change leaf (step :: steps) table =
      modify step.2 (enter step.1 (change leaf steps)) table := by
  cases steps with
  | nil => exact absurd rfl hne
  | cons next steps => rfl

theorem exists_inner?_of_assign {header : List String} {name : String} {value : TomlValue}
    {table changed : TomlTable} (h : assign header [name] value table = some changed)
    (hheader : (inner? header table).isSome) :
    ∃ members, inner? header changed = some members ∧ (members.lookup name).isSome := by
  induction header generalizing table changed with
  | nil =>
      obtain ⟨_, _, hlookup⟩ := lookup_modify h
      exact ⟨changed, rfl, by simp [hlookup]⟩
  | cons first header ih =>
      rw [inner?] at hheader
      split at hheader
      · next origin members hfirst =>
        rw [assign, headerSteps, List.map_cons, List.cons_append,
          change_cons _ _ (by simp [dotSteps])] at h
        obtain ⟨inside, hinside, hlookup⟩ := lookup_modify h
        rw [hfirst, enter] at hinside
        split at hinside
        · obtain ⟨more, hmore, rfl⟩ := Option.map_eq_some_iff.mp hinside
          simpa only [inner?, hlookup, if_pos] using ih hmore hheader
        · cases hinside
      · cases hheader

theorem exists_lookup_of_openTable {name : String} {table changed : TomlTable}
    (h : change openLeaf (headerSteps [name]) table = some changed) :
    ∃ origin members, changed.lookup name = some (.table origin members) := by
  obtain ⟨value, hvalue, hlookup⟩ := lookup_modify h
  rw [hlookup, if_pos rfl]
  revert hvalue
  rw [openLeaf.eq_def]
  split
  · rintro ⟨⟩
    exact ⟨_, _, rfl⟩
  · rintro ⟨⟩
    exact ⟨_, _, rfl⟩
  · rintro ⟨⟩

/-- A statement whose header, if it is one, has one name. -/
inductive Flat : TomlStatement → Prop where
  | openTable (name : String) : Flat (.openTable [name])
  | assign (path : List String) (value : TomlValue) : Flat (.assign path value)

theorem length_headerAfter_le {header : List String} (hheader : header.length ≤ 1)
    {statements : List TomlStatement} (hflat : ∀ statement ∈ statements, Flat statement) :
    (headerAfter header statements).length ≤ 1 := by
  induction statements generalizing header with
  | nil => exact hheader
  | cons statement statements ih =>
      obtain ⟨hstatement, hstatements⟩ := List.forall_mem_cons.mp hflat
      cases hstatement with
      | openTable name => exact ih (Nat.le_refl 1) hstatements
      | assign path value => exact ih hheader hstatements

/-- The table of the last header stays within reach. -/
theorem inner?_headerAfter {header : List String} {statements : List TomlStatement}
    (hflat : ∀ statement ∈ statements, Flat statement) {table changed : TomlTable}
    (h : extend header statements table = some changed)
    (hheader : (inner? header table).isSome) :
    (inner? (headerAfter header statements) changed).isSome := by
  induction statements generalizing header table with
  | nil =>
      cases h
      exact hheader
  | cons statement statements ih =>
      obtain ⟨hstatement, hstatements⟩ := List.forall_mem_cons.mp hflat
      cases hstatement with
      | openTable name =>
          obtain ⟨opened, hopened, h⟩ := Option.bind_eq_some_iff.mp h
          obtain ⟨origin, members, hlookup⟩ := exists_lookup_of_openTable hopened
          exact ih hstatements h (by simp [inner?, hlookup])
      | assign path value =>
          obtain ⟨assigned, hassigned, h⟩ := Option.bind_eq_some_iff.mp h
          obtain ⟨members, hmembers⟩ := Option.isSome_iff_exists.mp hheader
          obtain ⟨more, hmore, _⟩ :=
            grows_change (keeps_assignLeaf value) _ hassigned header members hmembers
          exact ih hstatements h (by simp [hmore])

/-- Where a name is assigned a value, it is found in the end, whatever comes before and after. -/
theorem exists_inner?_of_ofStatements? {statements later : List TomlStatement}
    (hflat : ∀ statement ∈ statements, Flat statement) {name : String} {value : TomlValue}
    {table : TomlTable}
    (h : ofStatements? (statements ++ .assign [name] value :: later) = some table) :
    ∃ members, inner? (headerAfter [] statements) table = some members ∧
      (members.lookup name).isSome := by
  rw [ofStatements?, extend_append] at h
  obtain ⟨before, hbefore, h⟩ := Option.bind_eq_some_iff.mp h
  obtain ⟨assigned, hassigned, h⟩ := Option.bind_eq_some_iff.mp h
  have hheader := inner?_headerAfter hflat hbefore rfl
  obtain ⟨members, hmembers, hname⟩ := exists_inner?_of_assign hassigned hheader
  obtain ⟨more, hmore, hnames⟩ := grows_extend h _ members hmembers
  exact ⟨more, hmore, hnames name hname⟩

theorem lookup_isSome_of_ofStatements? {statements later : List TomlStatement} {name : String}
    {table : TomlTable}
    (h : ofStatements? (statements ++ .openTable [name] :: later) = some table) :
    (table.lookup name).isSome := by
  rw [ofStatements?, extend_append] at h
  obtain ⟨before, _, h⟩ := Option.bind_eq_some_iff.mp h
  obtain ⟨opened, hopened, h⟩ := Option.bind_eq_some_iff.mp h
  obtain ⟨origin, members, hlookup⟩ := exists_lookup_of_openTable hopened
  obtain ⟨more, hmore, hnames⟩ := grows_extend h [] opened rfl
  cases hmore
  exact hnames name (by simp [hlookup])

end TomlTable
end SymbolRename
