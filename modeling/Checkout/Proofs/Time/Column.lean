import Checkout.Proofs.Text.Digits
import Checkout.Time.Text

/-!
# Reading times back from columns

A time of whole microseconds, in a year that has at most four digits, is read from a column as it
was given to it (`ofColumnText?_toColumnText`), also one in a leap second.
-/

namespace Checkout

namespace Date

theorem of?_self (d : Date) : of? d.year d.month d.day = some d :=
  dif_pos ⟨d.year_range, d.day_pos, d.day_le⟩

theorem month_le (d : Date) : d.month ≤ 12 := by
  have hday := Nat.le_trans d.day_pos d.day_le
  unfold daysInMonth at hday
  split at hday
  · omega
  · split at hday
    · omega
    · split at hday <;> omega

theorem day_le_31 (d : Date) : d.day ≤ 31 := by
  have hday := d.day_le
  unfold daysInMonth at hday
  split at hday
  · split at hday <;> omega
  · split at hday
    · omega
    · split at hday <;> omega

end Date

namespace Timestamp

open Text

/-- The text does not go on with a digit. -/
def NoDigit (cs : List Char) : Prop := ∀ c ∈ cs.head?, isDecimalDigit c = false

theorem noDigit_cons {c : Char} {cs : List Char} (h : isDecimalDigit c = false) :
    NoDigit (c :: cs) := by
  intro d hd
  cases hd
  exact h

theorem noDigit_nil : NoDigit [] := by
  intro c hc
  cases hc

/-- A number is read with all its digits. -/
theorem digits?_fixed {most width n : Nat} {rest : List Char} (hpos : 0 < width)
    (hmost : width ≤ most) (hwidth : width ≤ 18) (hn : n < 10 ^ width) (hrest : NoDigit rest) :
    digits? most (fixed 10 width n ++ rest) = some (n, rest) := by
  have hlength : (fixed 10 width n).length = width := length_fixed 10 width n
  have hrun : ((fixed 10 width n ++ rest).take most).takeWhile isDecimalDigit =
      fixed 10 width n := by
    rw [List.take_append, List.take_of_length_le (by omega),
      List.takeWhile_append_of_pos fun c hc => isDecimalDigit_of_mem_fixed hc]
    have hnil : (rest.take (most - (fixed 10 width n).length)).takeWhile isDecimalDigit = [] := by
      cases rest with
      | nil => simp
      | cons c cs =>
          have hc : isDecimalDigit c = false := hrest c rfl
          cases most - (fixed 10 width n).length <;> simp [hc]
    rw [hnil, List.append_nil]
  have hne : (fixed 10 width n).isEmpty = false := by
    rw [List.isEmpty_eq_false_iff, ← List.length_pos_iff, hlength]
    exact hpos
  have hmod : n % 10 ^ width = n := Nat.mod_eq_of_lt hn
  have hbound : n < UInt64.size / 2 :=
    Nat.lt_of_lt_of_le hn (Nat.le_trans (Nat.pow_le_pow_right (by decide) hwidth) (by decide))
  unfold digits?
  dsimp only
  rw [hrun, hne, ofDigitsBelow?_fixed (by decide) (by decide) (by rw [hmod]; exact hbound), hmod]
  simp [hlength]

theorem of?_self (t : Timestamp) : of? t.date t.hour t.minute t.second t.nano = some t :=
  dif_pos ⟨t.hour_lt, t.minute_lt, t.second_le, t.nano_lt⟩

theorem digits?_two {n : Nat} {c : Char} {rest : List Char} (hn : n < 10 ^ 2)
    (hc : isDecimalDigit c = false) :
    digits? 2 (fixed 10 2 n ++ c :: rest) = some (n, c :: rest) :=
  digits?_fixed (by decide) (by decide) (by decide) hn (noDigit_cons hc)

/-- The time of day is read with all the digits of its microseconds. -/
theorem columnClock?_fixed {hour minute second micro width : Nat} (hhour : hour < 10 ^ 2)
    (hminute : minute < 10 ^ 2) (hsecond : second < 10 ^ 2) (hleast : 6 ≤ width)
    (hmost : width ≤ 7) (hmicro : micro < 10 ^ width) :
    columnClock? (' ' :: (fixed 10 2 hour ++ ':' :: (fixed 10 2 minute ++
      ':' :: (fixed 10 2 second ++ '.' :: fixed 10 width micro)))) =
        some (hour, minute, second, micro) := by
  have hread : digits? 7 (fixed 10 width micro) = some (micro, []) := by
    have hall := digits?_fixed (by omega) hmost (by omega) hmicro noDigit_nil
    rwa [List.append_nil] at hall
  have hscale : 6 - width = 0 := by omega
  have hcolon : isDecimalDigit ':' = false := by decide
  have hpoint : isDecimalDigit '.' = false := by decide
  unfold columnClock?
  simp only [mark?, Option.bind_eq_bind, Option.bind_some, if_true]
  rw [digits?_two hhour hcolon]
  simp only [Option.bind_some, if_true]
  rw [digits?_two hminute hcolon]
  simp only [Option.bind_some, if_true]
  rw [digits?_two hsecond hpoint]
  simp only [Option.bind_some, if_true, List.isEmpty_cons, Bool.false_eq_true, if_false]
  rw [hread]
  simp only [Option.bind_some, List.isEmpty_nil, if_true, length_fixed, hscale]
  rw [show tenTo 0 = 1 from rfl, Nat.mul_one]
  rfl

/-- **A time is read from a column as it was given to it.** -/
theorem ofColumnText?_toColumnText {t : Timestamp} (hyear : 0 ≤ t.date.year ∧ t.date.year ≤ 9999)
    (hnano : t.nano % 1000 = 0) : ofColumnText? t.toColumnText = some t := by
  have hyearNat : t.date.year.toNat < 10 ^ 4 := by omega
  have hmonth := t.date.month_le
  have hday := t.date.day_le_31
  have hhour := t.hour_lt
  have hminute := t.minute_lt
  have hsecond := t.second_le
  have hnanoLt := t.nano_lt
  have hbound : t.nano / 1000 + (t.second - min t.second 59) * 1000000 < 2000000 := by omega
  -- six digits, or seven in a leap second
  obtain ⟨width, hleast, hmost, hpadded, hmicro⟩ :=
    padded_eq_fixed (show 6 ≤ 7 by decide) (Nat.lt_trans hbound (show 2000000 < 10 ^ 7 by decide))
  unfold ofColumnText? toColumnText
  rw [String.toList_ofList]
  dsimp only
  rw [hpadded, show padded 4 t.date.year.toNat = fixed 10 4 t.date.year.toNat from if_pos hyearNat]
  simp only [List.append_assoc, List.cons_append]
  have hclock := columnClock?_fixed (show t.hour < 10 ^ 2 by omega)
    (show t.minute < 10 ^ 2 by omega) (show min t.second 59 < 10 ^ 2 by omega) hleast hmost hmicro
  have hdash : isDecimalDigit '-' = false := by decide
  have hblank : isDecimalDigit ' ' = false := by decide
  rw [digits?_fixed (by decide) (by decide) (by decide) hyearNat (noDigit_cons hdash)]
  simp only [mark?, Option.bind_eq_bind, Option.bind_some, if_true]
  rw [digits?_two (by omega) hdash]
  simp only [Option.bind_some, if_true]
  rw [digits?_two (by omega) hblank]
  simp only [Option.bind_some, hclock]
  rw [Int.toNat_of_nonneg hyear.1, Date.of?_self, Option.bind_some]
  -- a leap second is the sixtieth, held for a second more
  by_cases hleap : t.second = 60
  · have hmicro : (t.nano / 1000 + (t.second - min t.second 59) * 1000000 - 1000000) * 1000 =
        t.nano := by omega
    rw [if_neg (by omega), if_pos (by omega), hmicro, ← hleap]
    exact of?_self t
  · have hsecond : min t.second 59 = t.second := by omega
    have hmicro : (t.nano / 1000 + (t.second - min t.second 59) * 1000000) * 1000 = t.nano := by
      omega
    rw [if_pos (by omega), hmicro, hsecond]
    exact of?_self t

end Timestamp

end Checkout
