/-!
# The calendar

Years are those of the Gregorian calendar, also before its time, and there is a year zero.
-/

namespace SymbolRename

def isLeapYear (year : Int) : Bool :=
  year % 4 == 0 && (year % 100 != 0 || year % 400 == 0)

/-- The number of days of a month, where January is month 1. -/
def daysInMonth (year : Int) (month : Nat) : Nat :=
  if month = 2 then if isLeapYear year then 29 else 28
  else if month = 4 ∨ month = 6 ∨ month = 9 ∨ month = 11 then 30
  else 31

/-- Whether the calendar has a day. -/
def IsCalendarDay (year : Int) (month day : Nat) : Prop :=
  1 ≤ month ∧ month ≤ 12 ∧ 1 ≤ day ∧ day ≤ daysInMonth year month

instance (year : Int) (month day : Nat) : Decidable (IsCalendarDay year month day) :=
  inferInstanceAs (Decidable (_ ∧ _))

end SymbolRename
