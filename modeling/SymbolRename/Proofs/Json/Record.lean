import Mathlib.Data.List.Perm.Basic
import SymbolRename.Json.Record

/-!
# Fields by their names

What is read from a record depends on nothing but the value that stands under each of its field
names.  As long as no field is named twice, the order of the members does not matter to it.
-/

namespace SymbolRename
namespace JsonValue

theorem namedMembers?_map (members : Fields) :
    namedMembers? (members.map fun member ↦ (some member.1, member.2)) = some members := by
  induction members with
  | nil => rfl
  | cons member members ih => simp [namedMembers?, ih]

/-- The members that are fields of a record. -/
def known (names : List String) (members : Fields) : Fields :=
  members.filter fun member ↦ names.contains member.1

theorem fields?_of_nodup {names : List String} {members : Fields}
    (h : ((known names members).map Prod.fst).Nodup) :
    (ofMembers members).fields? names = some (known names members) := by
  simp only [fields?, ofMembers, namedMembers?_map, Option.bind_eq_bind, Option.bind_some]
  exact if_pos h

theorem fields?_of_not_nodup {names : List String} {members : Fields}
    (h : ¬((known names members).map Prod.fst).Nodup) :
    (ofMembers members).fields? names = none := by
  simp only [fields?, ofMembers, namedMembers?_map, Option.bind_eq_bind, Option.bind_some]
  exact if_neg h

/-- A field that is not named twice is found wherever it stands. -/
theorem lookup_eq_of_perm {fields others : Fields} (h : fields.Perm others)
    (hnodup : (fields.map Prod.fst).Nodup) (name : String) :
    others.lookup name = fields.lookup name := by
  induction h with
  | nil => rfl
  | cons field _ ih =>
      rw [List.map_cons, List.nodup_cons] at hnodup
      rw [List.lookup_cons, List.lookup_cons, ih hnodup.2]
  | swap first second later =>
      obtain ⟨key, value⟩ := first
      obtain ⟨key', value'⟩ := second
      have hne : key' ≠ key := by
        rintro rfl
        simp at hnodup
      rw [List.lookup_cons, List.lookup_cons, List.lookup_cons, List.lookup_cons]
      by_cases hkey : name = key
      · have hkey' : (name == key') = false := by simpa [hkey] using hne.symm
        simp [hkey']
      · have hkey' : (name == key) = false := by simpa using hkey
        simp [hkey']
  | trans hfirst _ ih ih' =>
      rw [ih' ((hfirst.map Prod.fst).nodup_iff.mp hnodup), ih hnodup]

/-- The value of a field that may be missing or null. -/
def optionalValue {α : Type} (read? : JsonValue → Option α) :
    Option JsonValue → Option (Option α)
  | none => some none
  | some .null => some none
  | some value => (read? value).map some

section Fields

variable {α : Type} (fields : Fields) (name : String) (read? : JsonValue → Option α)

theorem required_eq : required fields name read? = (fields.lookup name).bind read? := by
  rw [required]
  cases fields.lookup name <;> rfl

theorem optional_eq : optional fields name read? = optionalValue read? (fields.lookup name) := by
  cases h : fields.lookup name with
  | none => simp only [optional, h, optionalValue]
  | some value => cases value <;> simp only [optional, h, optionalValue]

theorem defaulted_eq (default : α) :
    defaulted default fields name read? = (fields.lookup name).elim (some default) read? := by
  rw [defaulted]
  cases fields.lookup name <;> rfl

end Fields

end JsonValue
end SymbolRename
