/-!
# JSON values

Members keep their order and may repeat, so that a reader can tell a repeated member from a single
one.  Numbers that are not written as plain natural numbers keep their literal.
-/

namespace SymbolRename

/-- A JSON value.  A string is `none` when its escapes contain an unpaired surrogate: such a literal
is well formed, but stands for no text. -/
inductive JsonValue where
  | null
  | bool (value : Bool)
  | nat (value : Nat)
  | number (literal : List Char)
  | string (text? : Option String)
  | array (items : List JsonValue)
  | object (members : List (Option String × JsonValue))
  deriving Inhabited, Repr

namespace JsonValue

/-- A string that holds a text. -/
def text (s : String) : JsonValue := .string (some s)

/-- An object with the given members. -/
def ofMembers (members : List (String × JsonValue)) : JsonValue :=
  .object (members.map fun member ↦ (some member.1, member.2))

end JsonValue
end SymbolRename
