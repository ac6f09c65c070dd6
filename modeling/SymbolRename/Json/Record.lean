import SymbolRename.Json.Value

/-!
# Records in JSON

A record is written as an object with named members, or as an array of its fields in order.  Members
with other names are passed over; a field that is named twice makes the record unreadable.  Missing
fields at the end of an array are like missing members.
-/

namespace SymbolRename
namespace JsonValue

/-- The fields of a record that were given, with their names. -/
abbrev Fields := List (String × JsonValue)

/-- The names of all members, if all of them are texts. -/
def namedMembers? : List (Option String × JsonValue) → Option Fields
  | [] => some []
  | (none, _) :: _ => none
  | (some name, value) :: members => (namedMembers? members).map ((name, value) :: ·)

/-- Reads a value as a record with the given field names. -/
def fields? (names : List String) : JsonValue → Option Fields
  | .object members => do
    let fields := (← namedMembers? members).filter fun field ↦ names.contains field.1
    if (fields.map Prod.fst).Nodup then some fields else none
  | .array items => if items.length ≤ names.length then some (names.zip items) else none
  | _ => none

/-- A field that must be there. -/
def required {α : Type} (fields : Fields) (name : String) (read? : JsonValue → Option α) :
    Option α :=
  match fields.lookup name with
  | none => none
  | some value => read? value

/-- A field that may be missing or null. -/
def optional {α : Type} (fields : Fields) (name : String) (read? : JsonValue → Option α) :
    Option (Option α) :=
  match fields.lookup name with
  | none => some none
  | some .null => some none
  | some value => (read? value).map some

/-- A field that has a default when it is missing. -/
def defaulted {α : Type} (default : α) (fields : Fields) (name : String)
    (read? : JsonValue → Option α) : Option α :=
  match fields.lookup name with
  | none => some default
  | some value => read? value

/-! ## Field values -/

def text? : JsonValue → Option String
  | .string text? => text?
  | _ => none

def bool? : JsonValue → Option Bool
  | .bool value => some value
  | _ => none

/-- The least number that a counter cannot hold. -/
def counterLimit : Nat := 18446744073709551616

/-- A number below `counterLimit`. -/
def counter? : JsonValue → Option Nat
  | .nat value => if value < counterLimit then some value else none
  | _ => none

/-- A list of values of one kind. -/
def list? {α : Type} (read? : JsonValue → Option α) : JsonValue → Option (List α)
  | .array items => items.mapM read?
  | _ => none

/-- One of several named cases: its name, or an object with this name and null. -/
def case? {α : Type} (ofName? : String → Option α) : JsonValue → Option α
  | .string text? => text?.bind ofName?
  | .object [(name, .null)] => name.bind ofName?
  | _ => none

end JsonValue
end SymbolRename
