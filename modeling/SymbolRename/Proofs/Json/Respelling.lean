import Mathlib.Data.List.Nodup
import Mathlib.Logic.Relation
import SymbolRename.Proofs.Json.Record
import SymbolRename.Proofs.Json.RoundTrip

/-!
# Other spellings of records

A record can be spelled in many ways: its members may come in any order and may be joined by members
with other names, and what reading fills in may as well be written.  Readers that take a record
apart by its field names do not notice any of this, at any depth.  They refuse a record that names
one of its fields twice.
-/

namespace SymbolRename
namespace JsonValue

/-! ## Schemas -/

/-- Whether a field of a record has to be written. -/
inductive Presence where
  | required
  /-- The field may be missing or null. -/
  | optional
  /-- The field has this value when it is missing. -/
  | defaulted (value : JsonValue)

/-- Which values are records, and which fields they have. -/
inductive Schema where
  | leaf
  | list (item : Schema)
  | record (fields : List (String × Presence × Schema))

/-- The fields of a record, in order. -/
abbrev Layout := List (String × Presence × Schema)

/-- The value is neither an array nor an object. -/
inductive Scalar : JsonValue → Prop where
  | null : Scalar .null
  | bool (value : Bool) : Scalar (.bool value)
  | nat (value : Nat) : Scalar (.nat value)
  | number {literal : List Char} (hliteral : IsNumber literal) : Scalar (.number literal)
  | string (text? : Option String) : Scalar (.string text?)

theorem Scalar.plain {value : JsonValue} (h : value.Scalar) : value.Plain := by
  cases h with
  | null => exact .null
  | bool value => exact .bool value
  | nat value => exact .nat value
  | number hliteral => exact .number hliteral
  | string text? => exact .string text?

/-- A change to one record inside a value that leaves its meaning as it is. -/
inductive Respells : Schema → JsonValue → JsonValue → Prop where
  | reorder {fields : Layout} {members others : Fields}
      (hperm : members.Perm others) :
      Respells (.record fields) (ofMembers members) (ofMembers others)
  | insert {fields : Layout} {members : Fields} {name : String}
      {value : JsonValue} (hname : name ∉ fields.map Prod.fst) (hvalue : value.Scalar) :
      Respells (.record fields) (ofMembers members) (ofMembers ((name, value) :: members))
  | null {fields : Layout} {members : Fields} {name : String}
      {schema : Schema} (hfield : (name, .optional, schema) ∈ fields)
      (hmissing : name ∉ members.map Prod.fst) :
      Respells (.record fields) (ofMembers members) (ofMembers ((name, .null) :: members))
  | default {fields : Layout} {members : Fields} {name : String}
      {value : JsonValue} {schema : Schema} (hfield : (name, .defaulted value, schema) ∈ fields)
      (hvalue : value.Plain) (hmissing : name ∉ members.map Prod.fst) :
      Respells (.record fields) (ofMembers members) (ofMembers ((name, value) :: members))
  | member {fields : Layout} {before after : Fields} {name : String}
      {presence : Presence} {schema : Schema} {value other : JsonValue}
      (hfield : (name, presence, schema) ∈ fields) (hvalue : Respells schema value other) :
      Respells (.record fields) (ofMembers (before ++ (name, value) :: after))
        (ofMembers (before ++ (name, other) :: after))
  | item {schema : Schema} {before after : List JsonValue} {value other : JsonValue}
      (hvalue : Respells schema value other) :
      Respells (.list schema) (.array (before ++ value :: after))
        (.array (before ++ other :: after))

/-- The second value is spelled otherwise than the first, and means the same. -/
def Respelled (schema : Schema) : JsonValue → JsonValue → Prop :=
  Relation.ReflTransGen (Respells schema)

/-- One record inside the first value has a member that is written once more in the second, with
this or another value.  The member is one of the fields of the record. -/
inductive Repeats : Schema → JsonValue → JsonValue → Prop where
  | here {fields : Layout} {members others : Fields} {name : String}
      {value again : JsonValue} (hname : name ∈ fields.map Prod.fst)
      (hmember : (name, value) ∈ members) (hagain : again.Plain)
      (hperm : others.Perm ((name, again) :: members)) :
      Repeats (.record fields) (ofMembers members) (ofMembers others)
  | member {fields : Layout} {before after : Fields} {name : String}
      {presence : Presence} {schema : Schema} {value other : JsonValue}
      (hfield : (name, presence, schema) ∈ fields) (hvalue : Repeats schema value other) :
      Repeats (.record fields) (ofMembers (before ++ (name, value) :: after))
        (ofMembers (before ++ (name, other) :: after))
  | item {schema : Schema} {before after : List JsonValue} {value other : JsonValue}
      (hvalue : Repeats schema value other) :
      Repeats (.list schema) (.array (before ++ value :: after))
        (.array (before ++ other :: after))

/-! ## Texts -/

theorem plain_ofMembers_iff {members : Fields} :
    (ofMembers members).Plain ↔ ∀ member ∈ members, member.2.Plain := by
  constructor
  · intro h member hmember
    cases h with
    | object hmembers => exact hmembers _ (List.mem_map_of_mem hmember)
  · intro h
    refine .object fun member hmember ↦ ?_
    obtain ⟨field, hfield, rfl⟩ := List.mem_map.mp hmember
    exact h field hfield

theorem plain_array_iff {items : List JsonValue} :
    (JsonValue.array items).Plain ↔ ∀ item ∈ items, item.Plain := by
  constructor
  · intro h
    cases h with
    | array hitems => exact hitems
  · exact .array

theorem Respells.plain {schema : Schema} {value other : JsonValue}
    (h : Respells schema value other) (hplain : value.Plain) : other.Plain := by
  induction h with
  | reorder hperm =>
      rw [plain_ofMembers_iff] at hplain ⊢
      exact fun member hmember ↦ hplain member (hperm.mem_iff.mpr hmember)
  | insert _ hvalue =>
      rw [plain_ofMembers_iff] at hplain ⊢
      exact List.forall_mem_cons.mpr ⟨hvalue.plain, hplain⟩
  | null _ _ =>
      rw [plain_ofMembers_iff] at hplain ⊢
      exact List.forall_mem_cons.mpr ⟨.null, hplain⟩
  | default _ hvalue _ =>
      rw [plain_ofMembers_iff] at hplain ⊢
      exact List.forall_mem_cons.mpr ⟨hvalue, hplain⟩
  | member _ _ ih =>
      simp only [plain_ofMembers_iff, List.forall_mem_append, List.forall_mem_cons] at hplain ⊢
      exact ⟨hplain.1, ih hplain.2.1, hplain.2.2⟩
  | item _ ih =>
      simp only [plain_array_iff, List.forall_mem_append, List.forall_mem_cons] at hplain ⊢
      exact ⟨hplain.1, ih hplain.2.1, hplain.2.2⟩

theorem Respelled.plain {schema : Schema} {value other : JsonValue}
    (h : Respelled schema value other) (hplain : value.Plain) : other.Plain := by
  induction h with
  | refl => exact hplain
  | tail _ hlast ih => exact hlast.plain ih

theorem Repeats.plain {schema : Schema} {value other : JsonValue}
    (h : Repeats schema value other) (hplain : value.Plain) : other.Plain := by
  induction h with
  | here _ _ hagain hperm =>
      rw [plain_ofMembers_iff] at hplain ⊢
      intro member hmember
      rcases List.mem_cons.mp (hperm.mem_iff.mp hmember) with rfl | hold
      · exact hagain
      · exact hplain member hold
  | member _ _ ih =>
      simp only [plain_ofMembers_iff, List.forall_mem_append, List.forall_mem_cons] at hplain ⊢
      exact ⟨hplain.1, ih hplain.2.1, hplain.2.2⟩
  | item _ ih =>
      simp only [plain_array_iff, List.forall_mem_append, List.forall_mem_cons] at hplain ⊢
      exact ⟨hplain.1, ih hplain.2.1, hplain.2.2⟩

/-! ## Readers -/

/-- The reader takes values apart as the schema says: it does not notice another spelling, and it
refuses a field that is written twice. -/
structure Follows {α : Type} (schema : Schema) (read? : JsonValue → Option α) : Prop where
  respells : ∀ {value other}, Respells schema value other → read? other = read? value
  repeats : ∀ {value other}, Repeats schema value other → read? other = none

/-- The reader takes the fields one after the other, each under its name. -/
inductive FollowsFields {α : Type} :
    Layout → (Fields → Option α) → Prop where
  | done (result : Option α) : FollowsFields [] fun _ ↦ result
  | required {β : Type} {name : String} {schema : Schema} {read? : JsonValue → Option β}
      {fields : Layout} {next : β → Fields → Option α}
      (hread : Follows schema read?) (hnext : ∀ value, FollowsFields fields (next value)) :
      FollowsFields ((name, .required, schema) :: fields) fun given ↦
        (required given name read?).bind fun value ↦ next value given
  | optional {β : Type} {name : String} {schema : Schema} {read? : JsonValue → Option β}
      {fields : Layout} {next : Option β → Fields → Option α}
      (hread : Follows schema read?) (hnext : ∀ value?, FollowsFields fields (next value?)) :
      FollowsFields ((name, .optional, schema) :: fields) fun given ↦
        (optional given name read?).bind fun value? ↦ next value? given
  | defaulted {β : Type} {name : String} {schema : Schema} {read? : JsonValue → Option β}
      {value : JsonValue} {default : β} {fields : Layout}
      {next : β → Fields → Option α} (hread : Follows schema read?)
      (hdefault : read? value = some default) (hnext : ∀ value, FollowsFields fields (next value)) :
      FollowsFields ((name, .defaulted value, schema) :: fields) fun given ↦
        (defaulted default given name read?).bind fun value ↦ next value given

theorem follows_leaf {α : Type} (read? : JsonValue → Option α) : Follows .leaf read? where
  respells h := by cases h
  repeats h := by cases h

theorem follows_list {α : Type} {schema : Schema} {read? : JsonValue → Option α}
    (h : Follows schema read?) : Follows (.list schema) (list? read?) where
  respells hrespells := by
    cases hrespells with
    | item hvalue => simp [list?, List.mapM_append, h.respells hvalue]
  repeats hrepeats := by
    cases hrepeats with
    | item hvalue => simp [list?, List.mapM_append, h.repeats hvalue]

theorem Respells.ne_null {schema : Schema} {value other : JsonValue}
    (h : Respells schema value other) : value ≠ .null ∧ other ≠ .null := by
  cases h <;> simp [ofMembers]

theorem Repeats.ne_null {schema : Schema} {value other : JsonValue}
    (h : Repeats schema value other) : other ≠ .null := by
  cases h <;> simp [ofMembers]

theorem optionalValue_of_ne_null {α : Type} {read? : JsonValue → Option α} {value : JsonValue}
    (h : value ≠ .null) : optionalValue read? (some value) = (read? value).map some := by
  cases value with
  | null => exact absurd rfl h
  | _ => rfl

/-! ## Fields -/

/-- What stands under the name of a field means the same in both records. -/
inductive SameField (schema : Schema) : Presence → Option JsonValue → Option JsonValue → Prop where
  | same (presence : Presence) (value? : Option JsonValue) : SameField schema presence value? value?
  | respelled {presence : Presence} {value other : JsonValue} (h : Respells schema value other) :
      SameField schema presence (some value) (some other)
  | null : SameField schema .optional none (some .null)
  | default (value : JsonValue) : SameField schema (.defaulted value) none (some value)

section SameField

variable {α : Type} {schema : Schema} {read? : JsonValue → Option α}
  {value? other? : Option JsonValue}

theorem SameField.required_eq (h : SameField schema .required value? other?)
    (hread : Follows schema read?) : other?.bind read? = value?.bind read? := by
  cases h with
  | same => rfl
  | respelled h => exact hread.respells h

theorem SameField.optional_eq (h : SameField schema .optional value? other?)
    (hread : Follows schema read?) :
    optionalValue read? other? = optionalValue read? value? := by
  cases h with
  | same => rfl
  | respelled h =>
      rw [optionalValue_of_ne_null h.ne_null.1, optionalValue_of_ne_null h.ne_null.2,
        hread.respells h]
  | null => rfl

theorem SameField.defaulted_eq {value : JsonValue} {default : α}
    (h : SameField schema (.defaulted value) value? other?) (hread : Follows schema read?)
    (hdefault : read? value = some default) :
    other?.elim (some default) read? = value?.elim (some default) read? := by
  cases h with
  | same => rfl
  | respelled h => exact hread.respells h
  | default => exact hdefault

end SameField

namespace FollowsFields

variable {α : Type} {fields : Layout} {read : Fields → Option α}
  {given others : Fields}

theorem read_eq (h : FollowsFields fields read)
    (hfields : ∀ name presence schema, (name, presence, schema) ∈ fields →
      SameField schema presence (given.lookup name) (others.lookup name)) :
    read others = read given := by
  induction h with
  | done result => rfl
  | required hread hnext ih =>
      have hfirst := (hfields _ _ _ List.mem_cons_self).required_eq hread
      have hlater := fun value ↦ ih value fun name presence schema hmem ↦
        hfields name presence schema (List.mem_cons_of_mem _ hmem)
      simp only [JsonValue.required_eq, hfirst, hlater]
  | optional hread hnext ih =>
      have hfirst := (hfields _ _ _ List.mem_cons_self).optional_eq hread
      have hlater := fun value ↦ ih value fun name presence schema hmem ↦
        hfields name presence schema (List.mem_cons_of_mem _ hmem)
      simp only [JsonValue.optional_eq, hfirst, hlater]
  | defaulted hread hdefault hnext ih =>
      have hfirst := (hfields _ _ _ List.mem_cons_self).defaulted_eq hread hdefault
      have hlater := fun value ↦ ih value fun name presence schema hmem ↦
        hfields name presence schema (List.mem_cons_of_mem _ hmem)
      simp only [JsonValue.defaulted_eq, hfirst, hlater]

/-- A field that cannot be read makes the record unreadable. -/
theorem read_eq_none (h : FollowsFields fields read) {name : String} {presence : Presence}
    {schema : Schema} {value other : JsonValue} (hfield : (name, presence, schema) ∈ fields)
    (hgiven : given.lookup name = some other) (hrepeats : Repeats schema value other) :
    read given = none := by
  induction h with
  | done result => cases hfield
  | required hread hnext ih =>
      rcases List.mem_cons.mp hfield with heq | hlater
      · cases heq
        simp [JsonValue.required_eq, hgiven, hread.repeats hrepeats]
      · simp [ih _ hlater]
  | optional hread hnext ih =>
      rcases List.mem_cons.mp hfield with heq | hlater
      · cases heq
        simp [JsonValue.optional_eq, hgiven, optionalValue_of_ne_null hrepeats.ne_null,
          hread.repeats hrepeats]
      · simp [ih _ hlater]
  | defaulted hread hdefault hnext ih =>
      rcases List.mem_cons.mp hfield with heq | hlater
      · cases heq
        simp [JsonValue.defaulted_eq, hgiven, hread.repeats hrepeats]
      · simp [ih _ hlater]

end FollowsFields

/-! ## Records -/

section Records

variable {α : Type} {fields : Layout} {read : Fields → Option α}
  {names : List String} {members others before after : Fields} {name : String}
  {value other : JsonValue}

theorem known_cons_of_mem (h : name ∈ names) :
    known names ((name, value) :: members) = (name, value) :: known names members :=
  List.filter_cons_of_pos (by simpa using h)

theorem known_cons_of_notMem (h : name ∉ names) :
    known names ((name, value) :: members) = known names members :=
  List.filter_cons_of_neg (by simpa using h)

theorem known_insert (h : name ∈ names) :
    known names (before ++ (name, value) :: after) =
      known names before ++ (name, value) :: known names after := by
  rw [known, List.filter_append]
  exact congrArg _ (known_cons_of_mem h)

theorem notMem_known (h : name ∉ members.map Prod.fst) :
    name ∉ (known names members).map Prod.fst :=
  fun hmem ↦ h (List.filter_sublist.map Prod.fst |>.subset hmem)

theorem bind_fields?_eq
    (hnodup : ((known names others).map Prod.fst).Nodup ↔
      ((known names members).map Prod.fst).Nodup)
    (hread : ((known names members).map Prod.fst).Nodup →
      read (known names others) = read (known names members)) :
    ((ofMembers others).fields? names).bind read =
      ((ofMembers members).fields? names).bind read := by
  by_cases h : ((known names members).map Prod.fst).Nodup
  · rw [fields?_of_nodup h, fields?_of_nodup (hnodup.mpr h), Option.bind_some, Option.bind_some,
      hread h]
  · rw [fields?_of_not_nodup h, fields?_of_not_nodup (mt hnodup.mp h)]

/-- The fields of a record have different names, so one name says which field it is. -/
theorem field_unique (hnames : (fields.map Prod.fst).Nodup) {presence presence' : Presence}
    {schema schema' : Schema} (h : (name, presence, schema) ∈ fields)
    (h' : (name, presence', schema') ∈ fields) : presence = presence' ∧ schema = schema' := by
  cases List.inj_on_of_nodup_map hnames h h' rfl
  exact ⟨rfl, rfl⟩

theorem bind_fields?_cons (hnames : (fields.map Prod.fst).Nodup)
    (hread : FollowsFields fields read) {presence : Presence} {schema : Schema}
    (hfield : (name, presence, schema) ∈ fields) (hmissing : name ∉ members.map Prod.fst)
    (hsame : SameField schema presence none (some value)) :
    ((ofMembers ((name, value) :: members)).fields? (fields.map Prod.fst)).bind read =
      ((ofMembers members).fields? (fields.map Prod.fst)).bind read := by
  have hname : name ∈ fields.map Prod.fst := List.mem_map_of_mem hfield
  have hnew : name ∉ (known (fields.map Prod.fst) members).map Prod.fst := notMem_known hmissing
  have hnone : (known (fields.map Prod.fst) members).lookup name = none := by
    rw [List.lookup_eq_none_iff]
    intro member hmember
    have hne : name ≠ member.1 := by
      rintro rfl
      exact hnew (List.mem_map_of_mem hmember)
    simpa using hne
  apply bind_fields?_eq
  · rw [known_cons_of_mem hname, List.map_cons, List.nodup_cons]
    exact and_iff_right hnew
  · intro _
    apply hread.read_eq
    intro key presence' schema' hkey
    rw [known_cons_of_mem hname, List.lookup_cons]
    by_cases heq : key = name
    · subst heq
      obtain ⟨rfl, rfl⟩ := field_unique hnames hfield hkey
      rw [hnone, beq_self_eq_true]
      exact hsame
    · rw [beq_false_of_ne heq]
      exact .same _ _

theorem bind_fields?_member (hnames : (fields.map Prod.fst).Nodup)
    (hread : FollowsFields fields read) {presence : Presence} {schema : Schema}
    (hfield : (name, presence, schema) ∈ fields) (hvalue : Respells schema value other) :
    ((ofMembers (before ++ (name, other) :: after)).fields? (fields.map Prod.fst)).bind read =
      ((ofMembers (before ++ (name, value) :: after)).fields? (fields.map Prod.fst)).bind read := by
  have hname : name ∈ fields.map Prod.fst := List.mem_map_of_mem hfield
  apply bind_fields?_eq
  · simp only [known_insert hname, List.map_append, List.map_cons]
  · intro _
    apply hread.read_eq
    intro key presence' schema' hkey
    rw [known_insert hname, known_insert hname, List.lookup_append, List.lookup_append,
      List.lookup_cons, List.lookup_cons]
    by_cases heq : key = name
    · subst heq
      obtain ⟨rfl, rfl⟩ := field_unique hnames hfield hkey
      rw [beq_self_eq_true]
      cases (known (fields.map Prod.fst) before).lookup key with
      | none => exact .respelled hvalue
      | some earlier => exact .same _ _
    · rw [beq_false_of_ne heq]
      exact .same _ _

theorem not_nodup_of_repeats (hname : name ∈ names) (hmember : (name, value) ∈ members)
    (hperm : others.Perm ((name, other) :: members)) :
    ¬((known names others).map Prod.fst).Nodup := by
  have hknown : (known names others).Perm ((name, other) :: known names members) := by
    rw [← known_cons_of_mem hname]
    exact hperm.filter _
  rw [(hknown.map Prod.fst).nodup_iff, List.map_cons, List.nodup_cons]
  intro h
  apply h.1
  have hstill : (name, value) ∈ known names members :=
    List.mem_filter.mpr ⟨hmember, by simpa using hname⟩
  exact List.mem_map.mpr ⟨_, hstill, rfl⟩

theorem lookup_of_nodup
    (h : ((known names (before ++ (name, value) :: after)).map Prod.fst).Nodup)
    (hname : name ∈ names) :
    (known names (before ++ (name, value) :: after)).lookup name = some value := by
  rw [known_insert hname] at h ⊢
  have hperm : ((name, value) :: (known names before ++ known names after)).Perm
      (known names before ++ (name, value) :: known names after) :=
    List.perm_middle.symm
  rw [lookup_eq_of_perm hperm ((hperm.map Prod.fst).nodup_iff.mpr h), List.lookup_cons,
    beq_self_eq_true]

/-- A record that is read field by field may be spelled in any way. -/
theorem follows_record {ofJson? : JsonValue → Option α} (hnames : (fields.map Prod.fst).Nodup)
    (hread? : ∀ json, ofJson? json = (json.fields? (fields.map Prod.fst)).bind read)
    (hread : FollowsFields fields read) : Follows (.record fields) ofJson? where
  respells hrespells := by
    rw [hread?, hread?]
    cases hrespells with
    | reorder hperm =>
        have hknown := hperm.filter fun member ↦ (fields.map Prod.fst).contains member.1
        apply bind_fields?_eq
        · exact (hknown.map Prod.fst).nodup_iff.symm
        · intro hnodup
          apply hread.read_eq
          intro key presence schema _
          rw [known, known, lookup_eq_of_perm hknown hnodup]
          exact .same _ _
    | insert hname _ =>
        apply bind_fields?_eq
        · rw [known_cons_of_notMem hname]
        · intro _
          rw [known_cons_of_notMem hname]
    | null hfield hmissing => exact bind_fields?_cons hnames hread hfield hmissing .null
    | default hfield _ hmissing => exact bind_fields?_cons hnames hread hfield hmissing (.default _)
    | member hfield hvalue => exact bind_fields?_member hnames hread hfield hvalue
  repeats hrepeats := by
    rw [hread?]
    cases hrepeats with
    | here hname hmember _ hperm =>
        rw [fields?_of_not_nodup (not_nodup_of_repeats hname hmember hperm), Option.bind_none]
    | @member _ before after name presence schema value other hfield hvalue =>
        have hname : name ∈ fields.map Prod.fst := List.mem_map_of_mem hfield
        by_cases hnodup : ((known (fields.map Prod.fst) (before ++ (name, other) :: after)).map
            Prod.fst).Nodup
        · rw [fields?_of_nodup hnodup, Option.bind_some]
          exact hread.read_eq_none hfield (lookup_of_nodup hnodup hname) hvalue
        · rw [fields?_of_not_nodup hnodup, Option.bind_none]

end Records

theorem Follows.respelled {α : Type} {schema : Schema} {read? : JsonValue → Option α}
    (h : Follows schema read?) {value other : JsonValue} (hother : Respelled schema value other) :
    read? other = read? value := by
  induction hother with
  | refl => rfl
  | tail _ hlast ih => rw [h.respells hlast, ih]

end JsonValue
end SymbolRename
