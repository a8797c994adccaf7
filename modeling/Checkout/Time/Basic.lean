import Checkout.Time.Date

/-!
# Points in time

A timestamp is a date and a time of day in UTC, to the nanosecond. Second 60 stands for a leap
second; it is allowed in any minute.
-/

namespace Checkout

/-- A point in time, in UTC. -/
structure Timestamp where
  date : Date
  hour : Nat
  minute : Nat
  second : Nat
  nano : Nat
  hour_lt : hour < 24
  minute_lt : minute < 60
  second_le : second ≤ 60
  nano_lt : nano < 1000000000
  deriving DecidableEq

namespace Timestamp

/-- The timestamp with the given numbers, if the time of day exists. -/
def of? (date : Date) (hour minute second nano : Nat) : Option Timestamp :=
  if h : hour < 24 ∧ minute < 60 ∧ second ≤ 60 ∧ nano < 1000000000 then
    some ⟨date, hour, minute, second, nano, h.1, h.2.1, h.2.2.1, h.2.2.2⟩
  else none

/-- The beginning of 1970. -/
def epoch : Timestamp :=
  ⟨⟨1970, 1, 1, by decide, by decide, by decide⟩, 0, 0, 0, 0, by decide, by decide, by decide,
    by decide⟩

instance : Inhabited Timestamp := ⟨epoch⟩

/-- The minutes since midnight. -/
def minuteOfDay (t : Timestamp) : Nat := t.hour * 60 + t.minute

/-- The same second on the given date, at a minute counted from midnight. -/
def atMinute? (t : Timestamp) (date : Date) (minuteOfDay : Nat) : Option Timestamp :=
  of? date (minuteOfDay / 60) (minuteOfDay % 60) t.second t.nano

/-- The point in time that clocks ahead of UTC by `offset` minutes call `t`. The offset is less than
a day. Nothing where that leaves the calendar. -/
def ofLocal? (t : Timestamp) (offset : Int) : Option Timestamp :=
  let m : Int := t.minuteOfDay - offset
  if m < 0 then t.date.previous?.bind (t.atMinute? · (m + 1440).toNat)
  else if 1440 ≤ m then t.date.next?.bind (t.atMinute? · (m - 1440).toNat)
  else t.atMinute? t.date m.toNat

end Timestamp

end Checkout
