import SymbolRename.Json.Value
import SymbolRename.Text.Decimal
import SymbolRename.Text.Hex

/-!
# Writing JSON

Two blanks of indentation for every level, one member or item a line, a blank after every colon.
Quotes, backslashes and control characters are escaped; all else is written as it is.
-/

namespace SymbolRename
namespace JsonValue

/-- A character inside a string literal. -/
def escape (c : Char) : List Char :=
  if c = '"' then ['\\', '"']
  else if c = '\\' then ['\\', '\\']
  else if c = '\x08' then ['\\', 'b']
  else if c = '\x0C' then ['\\', 'f']
  else if c = '\n' then ['\\', 'n']
  else if c = '\r' then ['\\', 'r']
  else if c = '\t' then ['\\', 't']
  else if c.toNat < 0x20 then
    ['\\', 'u', '0', '0', hexDigit (c.toNat / 16), hexDigit (c.toNat % 16)]
  else [c]

/-- A string literal.  A string without a text has an unpaired surrogate as its literal. -/
def literal : Option String → List Char
  | some s => '"' :: s.toList.flatMap escape ++ ['"']
  | none => ['"', '\\', 'u', 'd', '8', '0', '0', '"']

/-- The start of a line at a level of nesting. -/
def newline (level : Nat) : List Char :=
  '\n' :: List.replicate (2 * level) ' '

mutual

/-- The text of a value whose first character stands at a level of nesting. -/
def write (level : Nat) : JsonValue → List Char
  | .null => ['n', 'u', 'l', 'l']
  | .bool true => ['t', 'r', 'u', 'e']
  | .bool false => ['f', 'a', 'l', 's', 'e']
  | .nat n => decimal n
  | .number literal => literal
  | .string text? => literal text?
  | .array [] => ['[', ']']
  | .array (item :: items) =>
    '[' :: newline (level + 1) ++ write (level + 1) item ++ writeItems (level + 1) items ++
      newline level ++ [']']
  | .object [] => ['\x7b', '\x7d']
  | .object ((name, value) :: members) =>
    '\x7b' :: newline (level + 1) ++ literal name ++ [':', ' '] ++ write (level + 1) value ++
      writeMembers (level + 1) members ++ newline level ++ ['\x7d']

/-- The items of an array after the first. -/
def writeItems (level : Nat) : List JsonValue → List Char
  | [] => []
  | item :: items => ',' :: newline level ++ write level item ++ writeItems level items

/-- The members of an object after the first. -/
def writeMembers (level : Nat) : List (Option String × JsonValue) → List Char
  | [] => []
  | (name, value) :: members =>
    ',' :: newline level ++ literal name ++ [':', ' '] ++ write level value ++
      writeMembers level members

end

/-- The text of a value, without a newline at the end. -/
def pretty (value : JsonValue) : String :=
  String.ofList (value.write 0)

end JsonValue
end SymbolRename
