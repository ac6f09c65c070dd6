/-!
# Decimal numbers
-/

namespace SymbolRename

/-- The decimal digits of a number, without leading zeros. -/
def decimal (n : Nat) : List Char := Nat.toDigits 10 n

/-- A number in decimal. -/
def numeral (n : Nat) : String := String.ofList (decimal n)

/-- The number that a list of decimal digits stands for. -/
def decimalValue (digits : List Char) : Nat :=
  digits.foldl (fun n c ↦ 10 * n + (c.toNat - 48)) 0

end SymbolRename
