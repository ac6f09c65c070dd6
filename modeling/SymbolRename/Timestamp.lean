import SymbolRename.Calendar
import SymbolRename.Text.Decimal

/-!
# Timestamps

A point in time in UTC, to the nanosecond, as reports show it.  Reading takes a date and a time of
day with an offset, converts them to UTC, and is liberal in blanks, leading zeros and the case of
letters.  Writing is canonical: the fraction has no, three, six or nine digits, the fewest that lose
nothing.
-/

namespace SymbolRename

/-- A date and a time of day in UTC.  The second is 60 during a leap second. -/
structure Timestamp where
  year : Int
  month : Nat
  day : Nat
  hour : Nat
  minute : Nat
  second : Nat
  nanosecond : Nat
  deriving DecidableEq, Repr

namespace Timestamp

/-! ## Points in time -/

/-- The first and the last year that a timestamp may have. -/
def firstYear : Int := -262143
def lastYear : Int := 262142

/-- Whether the fields name a time of a day of the calendar. -/
def Valid (t : Timestamp) : Prop :=
  firstYear ≤ t.year ∧ t.year ≤ lastYear ∧ IsCalendarDay t.year t.month t.day ∧ t.hour < 24 ∧
    t.minute < 60 ∧ t.second ≤ 60 ∧ t.nanosecond < 1000000000

instance (t : Timestamp) : Decidable t.Valid :=
  inferInstanceAs (Decidable (_ ∧ _))

/-- The same time one day later. -/
def nextDay (t : Timestamp) : Timestamp :=
  if t.day < daysInMonth t.year t.month then { t with day := t.day + 1 }
  else if t.month < 12 then { t with month := t.month + 1, day := 1 }
  else { t with year := t.year + 1, month := 1, day := 1 }

/-- The same time one day earlier. -/
def previousDay (t : Timestamp) : Timestamp :=
  if 1 < t.day then { t with day := t.day - 1 }
  else if 1 < t.month then
    { t with month := t.month - 1, day := daysInMonth t.year (t.month - 1) }
  else { t with year := t.year - 1, month := 12, day := 31 }

/-- The time that a clock shows which is `offset` minutes behind, for less than a day. -/
def behind (t : Timestamp) (offset : Int) : Timestamp :=
  let minutes : Int := 60 * t.hour + t.minute - offset
  let t' := if minutes < 0 then t.previousDay else if 1440 ≤ minutes then t.nextDay else t
  let minutes := (minutes % 1440).toNat
  { t' with hour := minutes / 60, minute := minutes % 60 }

/-! ## Writing -/

/-- A number in decimal with zeros in front up to a width. -/
def padded (width n : Nat) : List Char :=
  let digits := decimal n
  List.replicate (width - digits.length) '0' ++ digits

/-- Years of four digits have no sign. -/
def yearText (year : Int) : List Char :=
  if 0 ≤ year ∧ year ≤ 9999 then padded 4 year.toNat
  else (if year < 0 then '-' else '+') :: padded 4 year.natAbs

/-- The fraction of a second, in the fewest groups of three digits that lose nothing. -/
def fractionText (nanosecond : Nat) : List Char :=
  if nanosecond = 0 then []
  else if nanosecond % 1000000 = 0 then '.' :: padded 3 (nanosecond / 1000000)
  else if nanosecond % 1000 = 0 then '.' :: padded 6 (nanosecond / 1000)
  else '.' :: padded 9 nanosecond

def chars (t : Timestamp) : List Char :=
  yearText t.year ++ '-' :: padded 2 t.month ++ '-' :: padded 2 t.day ++ 'T' :: padded 2 t.hour ++
    ':' :: padded 2 t.minute ++ ':' :: padded 2 t.second ++ fractionText t.nanosecond ++ ['Z']

def toText (t : Timestamp) : String := String.ofList t.chars

/-! ## Reading -/

/-- White space in the sense of Unicode. -/
def isSpace (c : Char) : Bool :=
  let n := c.toNat
  (9 ≤ n && n ≤ 13) || n == 0x20 || n == 0x85 || n == 0xA0 || n == 0x1680 ||
    (0x2000 ≤ n && n ≤ 0x200A) || n == 0x2028 || n == 0x2029 || n == 0x202F || n == 0x205F ||
    n == 0x3000

def skipSpace (cs : List Char) : List Char := cs.dropWhile isSpace

/-- Takes one digit or more, but not more than `most`, off the front. -/
def readDigits (most : Nat) (cs : List Char) : Option (List Char × List Char) :=
  let digits := (cs.take most).takeWhile Char.isDigit
  if digits = [] then none else some (digits, cs.drop digits.length)

/-- Takes a number of at most `most` digits off the front, after any blanks. -/
def readNumber (most : Nat) (cs : List Char) : Option (Nat × List Char) :=
  (readDigits most (skipSpace cs)).map fun (digits, rest) ↦ (decimalValue digits, rest)

/-- Takes a year off the front.  With a sign it may have any number of digits, else at most four. -/
def readYear (cs : List Char) : Option (Int × List Char) :=
  match skipSpace cs with
  | '-' :: rest =>
    (readDigits rest.length rest).map fun (digits, rest) ↦ (-(decimalValue digits : Int), rest)
  | '+' :: rest =>
    (readDigits rest.length rest).map fun (digits, rest) ↦ ((decimalValue digits : Int), rest)
  | rest => (readDigits 4 rest).map fun (digits, rest) ↦ ((decimalValue digits : Int), rest)

/-- Takes a separator off the front, after any blanks. -/
def readSeparator (separator : Char) (cs : List Char) : Option (List Char) :=
  match skipSpace cs with
  | c :: rest => if c = separator then some rest else none
  | [] => none

/-- Takes what stands between the date and the time off the front. -/
def readTimeMark : List Char → Option (List Char)
  | c :: rest => if c = 'T' ∨ c = 't' ∨ c = ' ' then some rest else none
  | [] => none

/-- Takes the fraction of a second off the front, in nanoseconds.  Digits beyond the ninth are
dropped. -/
def readFraction (cs : List Char) : Option (Nat × List Char) :=
  match cs with
  | '.' :: rest => do
    let (digits, rest) ← readDigits 9 rest
    let nanoseconds := digits ++ List.replicate (9 - digits.length) '0'
    some (decimalValue nanoseconds, rest.dropWhile Char.isDigit)
  | _ => some (0, cs)

/-- Takes two digits off the front. -/
def readTwoDigits : List Char → Option (Nat × List Char)
  | a :: b :: rest =>
    if a.isDigit ∧ b.isDigit then some (decimalValue [a, b], rest) else none
  | _ => none

/-- Takes hours and minutes off the front, in minutes. -/
def readOffsetMinutes (cs : List Char) : Option (Nat × List Char) := do
  let (hours, cs) ← readTwoDigits cs
  let (minutes, cs) ← readTwoDigits (cs.dropWhile fun c ↦ c = ':' || isSpace c)
  if minutes < 60 ∧ hours < 24 then some (60 * hours + minutes, cs) else none

/-- Takes the offset from UTC off the front, in minutes. -/
def readOffset (cs : List Char) : Option (Int × List Char) :=
  if (cs.take 3).map Char.toLower = ['u', 't', 'c'] then some (0, cs.drop 3)
  else match cs with
    | [] => none
    | c :: rest =>
      if c = 'Z' ∨ c = 'z' then some (0, rest)
      else if c = '+' then (readOffsetMinutes rest).map fun (n, rest) ↦ ((n : Int), rest)
      else if c = '-' ∨ c = '\u2212' then
        (readOffsetMinutes rest).map fun (n, rest) ↦ (-(n : Int), rest)
      else none

/-- The point in time that a text names. -/
def ofChars? (cs : List Char) : Option Timestamp := do
  let (year, cs) ← readYear cs
  let cs ← readSeparator '-' cs
  let (month, cs) ← readNumber 2 cs
  let cs ← readSeparator '-' cs
  let (day, cs) ← readNumber 2 cs
  let cs ← readTimeMark cs
  let (hour, cs) ← readNumber 2 cs
  let cs ← readSeparator ':' cs
  let (minute, cs) ← readNumber 2 cs
  let cs ← readSeparator ':' cs
  let (second, cs) ← readNumber 2 cs
  let (nanosecond, cs) ← readFraction cs
  let (offset, cs) ← readOffset (skipSpace cs)
  let t : Timestamp := ⟨year, month, day, hour, minute, second, nanosecond⟩
  if skipSpace cs = [] ∧ t.Valid ∧ (t.behind offset).Valid then some (t.behind offset) else none

def ofText? (text : String) : Option Timestamp := ofChars? text.toList

end Timestamp
end SymbolRename
