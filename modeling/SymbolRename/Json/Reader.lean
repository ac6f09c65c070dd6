import SymbolRename.Json.Value
import SymbolRename.Text.Decimal
import SymbolRename.Text.Hex

/-!
# Reading JSON

A reader takes a value off the front of a text and returns the rest.  String literals are read in
two steps: first into characters and `\u` units, which is a matter of form, and then into a text,
which fails when a surrogate is left unpaired.
-/

namespace SymbolRename
namespace JsonValue

/-! ## Blanks and numbers -/

def isBlank (c : Char) : Bool :=
  c = ' ' || c = '\t' || c = '\n' || c = '\r'

def skipBlanks (cs : List Char) : List Char :=
  cs.dropWhile isBlank

/-- Takes one or more digits off the front. -/
def readDigits (cs : List Char) : Option (List Char × List Char) :=
  match cs.span Char.isDigit with
  | ([], _) => none
  | parts => some parts

/-- Takes an integer without leading zeros off the front. -/
def readInteger (cs : List Char) : Option (List Char × List Char) :=
  match readDigits cs with
  | some ('0' :: _ :: _, _) => none
  | result => result

/-- Takes a fraction off the front, if there is one. -/
def readFraction (cs : List Char) : Option (List Char × List Char) :=
  match cs with
  | '.' :: rest => (readDigits rest).map fun (digits, rest) ↦ ('.' :: digits, rest)
  | _ => some ([], cs)

/-- Takes an exponent off the front, if there is one. -/
def readExponent (cs : List Char) : Option (List Char × List Char) :=
  match cs with
  | [] => some ([], [])
  | e :: rest =>
    if e = 'e' || e = 'E' then
      match rest with
      | '+' :: rest => (readDigits rest).map fun (digits, rest) ↦ (e :: '+' :: digits, rest)
      | '-' :: rest => (readDigits rest).map fun (digits, rest) ↦ (e :: '-' :: digits, rest)
      | _ => (readDigits rest).map fun (digits, rest) ↦ (e :: digits, rest)
    else some ([], cs)

/-- Takes a number without a sign off the front.  Only a bare integer is a natural number. -/
def readUnsigned (cs : List Char) : Option (JsonValue × List Char) := do
  let (integer, cs) ← readInteger cs
  let (fraction, cs) ← readFraction cs
  let (exponent, cs) ← readExponent cs
  if fraction = [] ∧ exponent = [] then some (.nat (decimalValue integer), cs)
  else some (.number (integer ++ fraction ++ exponent), cs)

/-- Takes a number off the front. -/
def readNumber (cs : List Char) : Option (JsonValue × List Char) :=
  match cs with
  | '-' :: rest => do
    let (integer, cs) ← readInteger rest
    let (fraction, cs) ← readFraction cs
    let (exponent, cs) ← readExponent cs
    some (.number ('-' :: integer ++ fraction ++ exponent), cs)
  | _ => readUnsigned cs

/-! ## Strings -/

/-- What a string literal is made of. -/
inductive StringItem where
  | char (c : Char)
  /-- A unit that was written with four hexadecimal digits. -/
  | unit (value : Nat)
  deriving DecidableEq, Repr

/-- The unit that four hexadecimal digits stand for. -/
def unit? (a b c d : Char) : Option Nat := do
  some (16 * (16 * (16 * (← hexValue? a) + (← hexValue? b)) + (← hexValue? c)) + (← hexValue? d))

/-- The character that a short escape stands for. -/
def unescape? (c : Char) : Option Char :=
  if c = '"' ∨ c = '\\' ∨ c = '/' then some c
  else if c = 'b' then some '\x08'
  else if c = 'f' then some '\x0C'
  else if c = 'n' then some '\n'
  else if c = 'r' then some '\r'
  else if c = 't' then some '\t'
  else none

/-- Takes the inside of a string literal and its closing quote off the front. -/
def readStringItems : List Char → Option (List StringItem × List Char)
  | [] => none
  | c :: rest =>
    if c = '"' then some ([], rest)
    else if c = '\\' then
      match rest with
      | [] => none
      | e :: rest =>
        if e = 'u' then
          match rest with
          | h₁ :: h₂ :: h₃ :: h₄ :: rest => do
            let n ← unit? h₁ h₂ h₃ h₄
            let (items, rest) ← readStringItems rest
            some (.unit n :: items, rest)
          | _ => none
        else do
          let x ← unescape? e
          let (items, rest) ← readStringItems rest
          some (.char x :: items, rest)
    else if c.toNat < 0x20 then none
    else do
      let (items, rest) ← readStringItems rest
      some (.char c :: items, rest)

def isHighSurrogate (n : Nat) : Bool := 0xD800 ≤ n && n ≤ 0xDBFF
def isLowSurrogate (n : Nat) : Bool := 0xDC00 ≤ n && n ≤ 0xDFFF

/-- The text of a string literal, in which surrogates stand in pairs only. -/
def assemble : List StringItem → Option (List Char)
  | [] => some []
  | .char c :: items => (assemble items).map (c :: ·)
  | [.unit n] =>
    if isHighSurrogate n || isLowSurrogate n then none else some [Char.ofNat n]
  | .unit n :: .char c :: items =>
    if isHighSurrogate n || isLowSurrogate n then none
    else (assemble (.char c :: items)).map (Char.ofNat n :: ·)
  | .unit n :: .unit m :: items =>
    if isHighSurrogate n then
      if isLowSurrogate m then
        (assemble items).map (Char.ofNat (0x10000 + (n - 0xD800) * 0x400 + (m - 0xDC00)) :: ·)
      else none
    else if isLowSurrogate n then none
    else (assemble (.unit m :: items)).map (Char.ofNat n :: ·)

/-- Takes a string literal after its opening quote off the front. -/
def readString (cs : List Char) : Option (Option String × List Char) := do
  let (items, rest) ← readStringItems cs
  some ((assemble items).map String.ofList, rest)

/-! ## Values -/

/-- Takes a fixed word off the front. -/
def readWord (word : List Char) (value : JsonValue) (cs : List Char) :
    Option (JsonValue × List Char) :=
  if word.isPrefixOf cs then some (value, cs.drop word.length) else none

/-- Takes a quoted member name and the colon after it off the front. -/
def readName (cs : List Char) : Option (Option String × List Char) :=
  match skipBlanks cs with
  | '"' :: rest => do
    let (name, rest) ← readString rest
    match skipBlanks rest with
    | ':' :: rest => some (name, rest)
    | _ => none
  | _ => none

mutual

/-- Takes a value off the front, in at most `fuel` nested steps. -/
def readValue : (fuel : Nat) → List Char → Option (JsonValue × List Char)
  | 0, _ => none
  | fuel + 1, cs =>
    match skipBlanks cs with
    | [] => none
    | c :: rest =>
      if c = '"' then (readString rest).map fun (text?, rest) ↦ (.string text?, rest)
      else if c = '[' then
        match skipBlanks rest with
        | ']' :: rest => some (.array [], rest)
        | _ => (readItems fuel rest).map fun (items, rest) ↦ (.array items, rest)
      else if c = '\x7b' then
        match skipBlanks rest with
        | '\x7d' :: rest => some (.object [], rest)
        | _ => (readMembers fuel rest).map fun (members, rest) ↦ (.object members, rest)
      else if c = 'n' then readWord ['u', 'l', 'l'] .null rest
      else if c = 't' then readWord ['r', 'u', 'e'] (.bool true) rest
      else if c = 'f' then readWord ['a', 'l', 's', 'e'] (.bool false) rest
      else readNumber (c :: rest)

/-- Takes one or more items and the closing bracket off the front. -/
def readItems : (fuel : Nat) → List Char → Option (List JsonValue × List Char)
  | 0, _ => none
  | fuel + 1, cs => do
    let (item, rest) ← readValue fuel cs
    match skipBlanks rest with
    | ',' :: rest => (readItems fuel rest).map fun (items, rest) ↦ (item :: items, rest)
    | ']' :: rest => some ([item], rest)
    | _ => none

/-- Takes one or more members and the closing brace off the front. -/
def readMembers : (fuel : Nat) → List Char →
    Option (List (Option String × JsonValue) × List Char)
  | 0, _ => none
  | fuel + 1, cs => do
    let (name, rest) ← readName cs
    let (value, rest) ← readValue fuel rest
    match skipBlanks rest with
    | ',' :: rest =>
      (readMembers fuel rest).map fun (members, rest) ↦ ((name, value) :: members, rest)
    | '\x7d' :: rest => some ([(name, value)], rest)
    | _ => none

end

/-- The value that a whole text stands for.  Every two nested steps take at least one character, so
the length of the text bounds their number. -/
def ofText? (text : String) : Option JsonValue := do
  let cs := text.toList
  let (value, rest) ← readValue (2 * cs.length + 2) cs
  if skipBlanks rest = [] then some value else none

end JsonValue
end SymbolRename
