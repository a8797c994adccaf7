/-!
# Calendar dates

Dates of the Gregorian calendar, reckoned backwards before its introduction as well, in the years
from -262143 to 262142.
-/

namespace Checkout

/-- The years that a date can have. -/
def yearRange (year : Int) : Prop := -262143 ≤ year ∧ year ≤ 262142

instance (year : Int) : Decidable (yearRange year) := inferInstanceAs (Decidable (_ ∧ _))

/-- A year with a 29 February. -/
def isLeapYear (year : Int) : Bool := (year % 4 = 0 && year % 100 ≠ 0) || year % 400 = 0

/-- How many days a month has; none if it is no month. -/
def daysInMonth (year : Int) (month : Nat) : Nat :=
  if month = 2 then (if isLeapYear year then 29 else 28)
  else if month = 4 ∨ month = 6 ∨ month = 9 ∨ month = 11 then 30
  else if 1 ≤ month ∧ month ≤ 12 then 31
  else 0

/-- A calendar date. -/
structure Date where
  year : Int
  month : Nat
  day : Nat
  year_range : yearRange year
  day_pos : 1 ≤ day
  day_le : day ≤ daysInMonth year month
  deriving DecidableEq

namespace Date

/-- The date with the given numbers, if there is one. -/
def of? (year : Int) (month day : Nat) : Option Date :=
  if h : yearRange year ∧ 1 ≤ day ∧ day ≤ daysInMonth year month then
    some ⟨year, month, day, h.1, h.2.1, h.2.2⟩
  else none

/-- The day after, unless the calendar ends. -/
def next? (d : Date) : Option Date :=
  of? d.year d.month (d.day + 1) <|> of? d.year (d.month + 1) 1 <|> of? (d.year + 1) 1 1

/-- The day before, unless the calendar begins. -/
def previous? (d : Date) : Option Date :=
  of? d.year d.month (d.day - 1) <|> of? d.year (d.month - 1) (daysInMonth d.year (d.month - 1)) <|>
    of? (d.year - 1) 12 31

end Date

end Checkout
