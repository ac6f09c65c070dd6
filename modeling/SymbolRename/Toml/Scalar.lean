import SymbolRename.Calendar

/-!
# TOML literals without quotes

Booleans, integers, floating point numbers, dates and times.  Only their form is checked.  That of
an integer with underscores is checked only next to them, since its value is never read.
-/

namespace SymbolRename
namespace TomlScalar

def isHexDigit (c : Char) : Bool :=
  c.isDigit || ('a' ≤ c && c ≤ 'f') || ('A' ≤ c && c ≤ 'F')

def isOctalDigit (c : Char) : Bool := '0' ≤ c && c ≤ '7'

def isBinaryDigit (c : Char) : Bool := c == '0' || c == '1'

/-- A decimal digit or an underscore. -/
def isRunChar (c : Char) : Bool := c.isDigit || c == '_'

def dropSign : List Char → List Char
  | '+' :: rest => rest
  | '-' :: rest => rest
  | cs => cs

/-- Whether every underscore stands between two digits. -/
def separatesDigits (isDigit : Char → Bool) (cs : List Char) : Bool :=
  cs.head? != some '_' && cs.getLast? != some '_' &&
    (cs.zip cs.tail).all fun (left, right) ↦
      (left != '_' || isDigit right) && (right != '_' || isDigit left)

/-- A literal with a digit in place of its sign: an underscore may follow a sign. -/
def maskSign (cs : List Char) : List Char :=
  if dropSign cs = cs then cs else '0' :: dropSign cs

/-- The digits of a number with a base.  There may be none. -/
def isBaseDigits (isDigit : Char → Bool) (cs : List Char) : Bool :=
  (cs.all fun c ↦ isDigit c || c == '_') && separatesDigits isDigit cs

/-- An integer in base sixteen, eight or two, which has no sign. -/
def isBased (cs : List Char) : Bool :=
  match cs with
  | '0' :: 'x' :: rest => isBaseDigits isHexDigit rest
  | '0' :: 'o' :: rest => isBaseDigits isOctalDigit rest
  | '0' :: 'b' :: rest => isBaseDigits isBinaryDigit rest
  | _ => false

/-- An integer without a base.  There are no leading zeros.  From the first underscore on, any
character may stand in it that makes it neither a float nor two literals. -/
def isDecimal (cs : List Char) : Bool :=
  let value := dropSign cs
  let rest := value.dropWhile Char.isDigit
  value != [] && (value.head? != some '0' || value.length == 1) &&
    (rest == [] || rest.head? == some '_') &&
    (rest.all fun c ↦ c != '.' && c != 'e' && c != 'E' && c != ' ') &&
    separatesDigits isHexDigit (maskSign cs)

/-- Drops a run of digits, of which there is at least one. -/
def dropDigits? (cs : List Char) : Option (List Char) :=
  if (cs.takeWhile isRunChar).any Char.isDigit then some (cs.dropWhile isRunChar) else none

/-- Drops a fraction, if there is one. -/
def dropFraction? : List Char → Option (List Char)
  | '.' :: rest => dropDigits? rest
  | cs => some cs

/-- Drops an exponent, if there is one. -/
def dropExponent? : List Char → Option (List Char)
  | 'e' :: rest => dropDigits? (dropSign rest)
  | 'E' :: rest => dropDigits? (dropSign rest)
  | cs => some cs

/-- Decimal digits without leading zeros, and then a fraction, an exponent or both. -/
def isFloat (cs : List Char) : Bool :=
  let value := dropSign cs
  let whole := value.takeWhile isRunChar
  (whole.head? != some '0' || whole.countP Char.isDigit == 1) &&
    (dropDigits? value >>= dropFraction? >>= dropExponent?) == some [] &&
    separatesDigits Char.isDigit (maskSign cs)

/-- A word that stands for a value. -/
def isKeyword (cs : List Char) : Bool :=
  cs == ['t', 'r', 'u', 'e'] || cs == ['f', 'a', 'l', 's', 'e'] ||
    dropSign cs == ['i', 'n', 'f'] || dropSign cs == ['n', 'a', 'n']

/-- The numbers of a text like `07:32`, where all have two digits. -/
def twoDigitParts (separator : Char) (cs : List Char) : Option (List Nat) :=
  (cs.splitOn separator).mapM fun
    | [a, b] =>
      if a.isDigit && b.isDigit then some (10 * (a.toNat - 48) + (b.toNat - 48)) else none
    | _ => none

/-- A date such as `1979-05-27`. -/
def isDate (cs : List Char) : Bool :=
  match cs with
  | a :: b :: c :: d :: '-' :: rest =>
    match twoDigitParts '-' ([a, b] ++ '-' :: [c, d] ++ '-' :: rest) with
    | some [high, low, month, day] => decide (IsCalendarDay (100 * high + low) month day)
    | _ => false
  | _ => false

/-- A time such as `07:32`, `07:32:00` or `07:32:00.999`. -/
def isTime (cs : List Char) : Bool :=
  let (clock, fraction) := cs.span (· != '.')
  match twoDigitParts ':' clock with
  | some [hour, minute] => hour < 24 && minute < 60 && fraction == []
  | some [hour, minute, second] =>
    hour < 24 && minute < 60 && second ≤ 60 &&
      (fraction == [] || (fraction.length != 1 && (fraction.drop 1).all Char.isDigit))
  | _ => false

/-- An offset such as `Z` or `-07:00`. -/
def isOffset (cs : List Char) : Bool :=
  match cs with
  | [c] => c == 'Z' || c == 'z'
  | sign :: rest =>
    (sign == '+' || sign == '-') &&
      match twoDigitParts ':' rest with
      | some [hour, minute] => hour < 24 && minute < 60
      | _ => false
  | [] => false

/-- A date, a time, or both with or without an offset. -/
def isDateTime (cs : List Char) : Bool :=
  let date := cs.take 10
  let rest := cs.drop 10
  isDate cs || isTime cs ||
    (isDate date && ['T', 't', ' '].contains (rest.headD '-') &&
      let (time, offset) := (rest.drop 1).span fun c ↦ c.isDigit || c == ':' || c == '.'
      isTime time && (offset == [] || isOffset offset))

/-- Whether a literal without quotes stands for a value. -/
def isScalar (cs : List Char) : Bool :=
  isKeyword cs || isBased cs || isDecimal cs || isFloat cs || isDateTime cs

end TomlScalar
end SymbolRename
