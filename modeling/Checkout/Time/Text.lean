import Checkout.Text.Blank
import Checkout.Text.Digits
import Checkout.Time.Basic

/-!
# Timestamps as text

A timestamp is written as RFC 3339 in UTC with `Z`: none, three, six or nine digits for the
fraction of a second, the fewest that are exact, and a sign with years outside 0 to 9999. The reader is
more generous: numbers may lack leading zeros, white space may stand before a number or separator,
`T` may be `t` or a space, and the offset may be `Z`, `z`, `UTC` in any case, or signed hours and
minutes.

`toColumnText` is the form in which a database column is given a timestamp: microseconds always,
without zone.
-/

namespace Checkout.Timestamp

/-! ### Writing -/

/-- A year: four digits from 0 to 9999, otherwise a sign and at least four digits. -/
def yearChars (year : Int) : List Char :=
  if 0 ≤ year ∧ year ≤ 9999 then Text.fixed 10 4 year.toNat
  else (if year < 0 then '-' else '+') :: Text.padded 4 year.natAbs

/-- The fraction of a second: the fewest of 0, 3, 6 and 9 digits that are exact. -/
def fractionChars (nano : Nat) : List Char :=
  if nano = 0 then []
  else if nano % 1000000 = 0 then '.' :: Text.fixed 10 3 (nano / 1000000)
  else if nano % 1000 = 0 then '.' :: Text.fixed 10 6 (nano / 1000)
  else '.' :: Text.fixed 10 9 nano

/-- The characters of the written form. -/
def toChars (t : Timestamp) : List Char :=
  yearChars t.date.year ++ '-' :: Text.fixed 10 2 t.date.month ++ '-' :: Text.fixed 10 2 t.date.day ++
    'T' :: Text.fixed 10 2 t.hour ++ ':' :: Text.fixed 10 2 t.minute ++
    ':' :: Text.fixed 10 2 t.second ++ fractionChars t.nano ++ ['Z']

/-- The written form. -/
def toString (t : Timestamp) : String := String.ofList t.toChars

instance : ToString Timestamp := ⟨toString⟩

/-- What a database column is given. Digits after the microseconds are dropped; a leap second is
the sixtieth, held for a second more. -/
def toColumnText (t : Timestamp) : String :=
  let second := min t.second 59
  let micro := t.nano / 1000 + (t.second - second) * 1000000
  String.ofList (Text.padded 4 t.date.year.toNat ++ '-' :: Text.fixed 10 2 t.date.month ++
    '-' :: Text.fixed 10 2 t.date.day ++ ' ' :: Text.fixed 10 2 t.hour ++
    ':' :: Text.fixed 10 2 t.minute ++ ':' :: Text.fixed 10 2 second ++
    '.' :: Text.padded 6 micro)

/-! ### Reading -/

/-- Reads a run of at least one and at most `most` decimal digits that name a number of 63 bits. -/
def digits? (most : Nat) (cs : List Char) : Option (Nat × List Char) :=
  let run := (cs.take most).takeWhile Text.isDecimalDigit
  if run.isEmpty then none
  else (Text.ofDigitsBelow? 10 (UInt64.size / 2) run).map (·, cs.drop run.length)

/-- Reads a number of at most two digits after optional white space. -/
def number? (cs : List Char) : Option (Nat × List Char) := digits? 2 (Text.trimLeft cs)

/-- Reads a year after optional white space: up to four digits, or a sign and any number of them. -/
def year? (cs : List Char) : Option (Int × List Char) :=
  match Text.trimLeft cs with
  | '-' :: r => (digits? r.length r).map fun (n, r) => (-(n : Int), r)
  | '+' :: r => (digits? r.length r).map fun (n, r) => ((n : Int), r)
  | r => (digits? 4 r).map fun (n, r) => ((n : Int), r)

/-- Passes a separator after optional white space. -/
def separator? (c : Char) (cs : List Char) : Option (List Char) :=
  match Text.trimLeft cs with
  | [] => none
  | d :: r => if d = c then some r else none

/-- Passes the mark between date and time of day. -/
def timeMark? : List Char → Option (List Char)
  | c :: r => if c = 'T' ∨ c = 't' ∨ c = ' ' then some r else none
  | [] => none

/-- Reads an optional fraction of a second, in nanoseconds. Digits after the ninth are dropped. -/
def fraction? (cs : List Char) : Option (Nat × List Char) :=
  match cs with
  | '.' :: r =>
    (digits? 9 r).map fun (n, rest) =>
      (n * tenTo (9 - (r.length - rest.length)), rest.dropWhile Text.isDecimalDigit)
  | _ => some (0, cs)

/-- Reads two digits that name a number below the bound. -/
def twoDigits? (bound : Nat) (cs : List Char) : Option (Nat × List Char) :=
  if 2 ≤ cs.length then
    ((Text.ofDigits? 10 (cs.take 2)).filter (· < bound)).map (·, cs.drop 2)
  else none

/-- Reads hours and minutes with any colons and white space between them, in minutes. -/
def clock? (cs : List Char) : Option (Nat × List Char) := do
  let (hours, cs) ← twoDigits? 100 cs
  let (minutes, cs) ← twoDigits? 60 (cs.dropWhile fun c => c = ':' || Text.isBlank c)
  return (hours * 60 + minutes, cs)

/-- Reads the offset from UTC in minutes, after optional white space. The minus sign may be the
mathematical one. -/
def offset? (cs : List Char) : Option (Int × List Char) :=
  let cs := Text.trimLeft cs
  if (cs.take 3).map Char.toUpper = ['U', 'T', 'C'] then some (0, cs.drop 3)
  else
    match cs with
    | [] => none
    | c :: r =>
      if c = 'Z' ∨ c = 'z' then some (0, r)
      else if c = '+' then (clock? r).map fun (n, r) => ((n : Int), r)
      else if c = '-' ∨ c = '\u2212' then (clock? r).map fun (n, r) => (-(n : Int), r)
      else none

/-- Reads a timestamp and converts it to UTC. -/
def ofChars? (cs : List Char) : Option Timestamp := do
  let (year, cs) ← year? cs
  let cs ← separator? '-' cs
  let (month, cs) ← number? cs
  let cs ← separator? '-' cs
  let (day, cs) ← number? cs
  let cs ← timeMark? cs
  let (hour, cs) ← number? cs
  let cs ← separator? ':' cs
  let (minute, cs) ← number? cs
  let cs ← separator? ':' cs
  let (second, cs) ← number? cs
  let (nano, cs) ← fraction? cs
  let (offset, cs) ← offset? cs
  if (Text.trimLeft cs).isEmpty ∧ offset.natAbs < 1440 then
    let date ← Date.of? year month day
    let wall ← of? date hour minute second nano
    wall.ofLocal? offset
  else none

/-- Reads a timestamp and converts it to UTC. -/
def ofString? (s : String) : Option Timestamp := ofChars? s.toList

/-! ### Reading what a column holds -/

/-- Passes the given character. -/
def mark? (c : Char) : List Char → Option (List Char)
  | [] => none
  | d :: r => if d = c then some r else none

/-- Reads the time of day of a column, if there is one, as hour, minute, second and microseconds. -/
def columnClock? : List Char → Option (Nat × Nat × Nat × Nat)
  | [] => some (0, 0, 0, 0)
  | cs => do
    let (hour, cs) ← digits? 2 (← mark? ' ' cs)
    let (minute, cs) ← digits? 2 (← mark? ':' cs)
    let (second, cs) ← digits? 2 (← mark? ':' cs)
    if cs.isEmpty then return (hour, minute, second, 0)
    let cs ← mark? '.' cs
    let (micro, rest) ← digits? 7 cs
    if rest.isEmpty then return (hour, minute, second, micro * tenTo (6 - cs.length)) else none

/-- Reads what a column holds. A date alone is its midnight, and a sixtieth second that lasts longer
than a second is a leap second. -/
def ofColumnText? (s : String) : Option Timestamp := do
  let (year, cs) ← digits? 6 s.toList
  let (month, cs) ← digits? 2 (← mark? '-' cs)
  let (day, cs) ← digits? 2 (← mark? '-' cs)
  let (hour, minute, second, micro) ← columnClock? cs
  let date ← Date.of? year month day
  if second < 60 ∧ micro < 1000000 then of? date hour minute second (micro * 1000)
  else if second = 59 then of? date hour minute 60 ((micro - 1000000) * 1000)
  else none

end Checkout.Timestamp
