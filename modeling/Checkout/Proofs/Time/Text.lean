import Checkout.Proofs.Time.Column

/-!
# Reading times back

A time is read from its own text (`ofString?_toString`): in any year of the calendar, with or without
a fraction of a second, and also in a leap second. The reader would take more than is written, white
space and offsets for example, so each number is followed through it only as it is written.
-/

namespace Checkout.Timestamp

open Text

/-! ## Numbers -/

theorem isBlank_digitChar {d : Nat} (h : d < 10) : isBlank (Nat.digitChar d) = false := by
  have hall : ∀ d < 10, isBlank (Nat.digitChar d) = false := by decide
  exact hall d h

/-- White space is looked for in front of digits, but there is none. -/
theorem trimLeft_fixed {width : Nat} (hpos : 0 < width) (n : Nat) (rest : List Char) :
    trimLeft (fixed 10 width n ++ rest) = fixed 10 width n ++ rest := by
  obtain ⟨width, rfl⟩ := Nat.exists_eq_succ_of_ne_zero (Nat.ne_of_gt hpos)
  unfold trimLeft
  rw [fixed_succ, List.cons_append, List.dropWhile_cons_of_neg]
  rw [isBlank_digitChar (Nat.mod_lt _ (by decide))]
  exact Bool.false_ne_true

theorem number?_fixed {n : Nat} {c : Char} {rest : List Char} (hn : n < 10 ^ 2)
    (hc : isDecimalDigit c = false) :
    number? (fixed 10 2 n ++ c :: rest) = some (n, c :: rest) := by
  unfold number?
  rw [trimLeft_fixed (by decide), digits?_two hn hc]

theorem separator?_cons {c : Char} (h : isBlank c = false) (rest : List Char) :
    separator? c (c :: rest) = some rest := by
  unfold separator? trimLeft
  rw [List.dropWhile_cons_of_neg (by rw [h]; exact Bool.false_ne_true)]
  exact if_pos rfl

theorem timeMark?_cons (rest : List Char) : timeMark? ('T' :: rest) = some rest := rfl

/-! ## Years -/

/-- Four digits are a year without sign. -/
theorem year?_fixed {n : Nat} (hn : n < 10 ^ 4) {rest : List Char} (hrest : NoDigit rest) :
    year? (fixed 10 4 n ++ rest) = some ((n : Int), rest) := by
  have hread : digits? 4 (fixed 10 4 n ++ rest) = some (n, rest) :=
    digits?_fixed (by decide) (by decide) (by decide) hn hrest
  have hdigit : isDecimalDigit (Nat.digitChar (n / 10 ^ 3 % 10)) = true :=
    isDecimalDigit_digitChar (Nat.mod_lt _ (by decide))
  unfold year?
  rw [trimLeft_fixed (by decide)]
  rw [fixed_succ] at hread ⊢
  split
  next heq =>
    rw [(List.cons.inj heq).1] at hdigit
    cases hdigit
  next heq =>
    rw [(List.cons.inj heq).1] at hdigit
    cases hdigit
  next =>
    rw [hread]
    rfl

/-- Behind the sign of a year, all its digits are read. -/
theorem digits?_padded {n : Nat} (hn : n < 10 ^ 6) {rest : List Char} (hrest : NoDigit rest) :
    digits? (padded 4 n ++ rest).length (padded 4 n ++ rest) = some (n, rest) := by
  obtain ⟨width, hleast, hmost, hpadded, hwidth⟩ := padded_eq_fixed (show 4 ≤ 6 by decide) hn
  rw [hpadded]
  have hlength : width ≤ (fixed 10 width n ++ rest).length := by
    rw [List.length_append, length_fixed]
    omega
  exact digits?_fixed (by omega) hlength (by omega) hwidth hrest

/-- Years are read with their sign, if they are written with one. -/
theorem year?_yearChars {year : Int} (h : yearRange year) {rest : List Char}
    (hrest : NoDigit rest) : year? (yearChars year ++ rest) = some (year, rest) := by
  unfold yearRange at h
  unfold yearChars
  split
  next hshort =>
    rw [year?_fixed (by omega) hrest, Int.toNat_of_nonneg hshort.1]
  next hlong =>
    have hread := digits?_padded (show year.natAbs < 10 ^ 6 by omega) hrest
    split
    next hneg =>
      rw [List.cons_append, show year? ('-' :: _) = (digits? _ _).map _ from rfl, hread]
      show some (-((year.natAbs : Nat) : Int), _) = _
      rw [show -((year.natAbs : Nat) : Int) = year by omega]
    next hpos =>
      rw [List.cons_append, show year? ('+' :: _) = (digits? _ _).map _ from rfl, hread]
      show some (((year.natAbs : Nat) : Int), _) = _
      rw [show ((year.natAbs : Nat) : Int) = year by omega]

/-! ## Fractions -/

theorem fraction?_fixed {width n : Nat} (hpos : 0 < width) (hwidth : width ≤ 9)
    (hn : n < 10 ^ width) :
    fraction? ('.' :: fixed 10 width n ++ ['Z']) = some (n * tenTo (9 - width), ['Z']) := by
  have hread := @digits?_fixed 9 width n ['Z'] hpos hwidth (by omega) hn (noDigit_cons (by decide))
  have hused : (fixed 10 width n ++ ['Z']).length - ['Z'].length = width := by
    rw [List.length_append, Nat.add_sub_cancel, length_fixed]
  show (digits? 9 (fixed 10 width n ++ ['Z'])).map _ = _
  rw [hread]
  show some (n * tenTo (9 - ((fixed 10 width n ++ ['Z']).length - ['Z'].length)), _) = _
  rw [hused]
  rfl

/-- A fraction is exact in the digits that it is written with. -/
theorem fraction?_fractionChars {nano : Nat} (h : nano < 1000000000) :
    fraction? (fractionChars nano ++ ['Z']) = some (nano, ['Z']) := by
  unfold fractionChars
  split
  next hzero =>
    rw [hzero]
    rfl
  next =>
    split
    next hmilli =>
      rw [fraction?_fixed (by decide) (by decide) (show nano / 1000000 < 10 ^ 3 by omega),
        show tenTo (9 - 3) = 1000000 from rfl, Nat.div_mul_cancel (Nat.dvd_of_mod_eq_zero hmilli)]
    next =>
      split
      next hmicro =>
        rw [fraction?_fixed (by decide) (by decide) (show nano / 1000 < 10 ^ 6 by omega),
          show tenTo (9 - 6) = 1000 from rfl, Nat.div_mul_cancel (Nat.dvd_of_mod_eq_zero hmicro)]
      next =>
        rw [fraction?_fixed (by decide) (by decide) (show nano < 10 ^ 9 from h),
          show tenTo (9 - 9) = 1 from rfl, Nat.mul_one]

/-! ## Times -/

/-- Clocks that are not ahead of UTC show it. -/
theorem ofLocal?_zero (t : Timestamp) : t.ofLocal? 0 = some t := by
  have hhour := t.hour_lt
  have hminute := t.minute_lt
  unfold ofLocal? minuteOfDay
  dsimp only
  rw [if_neg (by omega), if_neg (by omega)]
  unfold atMinute?
  rw [show (((t.hour * 60 + t.minute : Nat) : Int) - 0).toNat = t.hour * 60 + t.minute by omega,
    show (t.hour * 60 + t.minute) / 60 = t.hour by omega,
    show (t.hour * 60 + t.minute) % 60 = t.minute by omega]
  exact of?_self t

/-- **A time is read from its own text.** -/
theorem ofString?_toString (t : Timestamp) : ofString? t.toString = some t := by
  have hmonth := t.date.month_le
  have hday := t.date.day_le_31
  have hhour := t.hour_lt
  have hminute := t.minute_lt
  have hsecond := t.second_le
  have hdash : isBlank '-' = false := by decide
  have hcolon : isBlank ':' = false := by decide
  have hdashDigit : isDecimalDigit '-' = false := by decide
  have hcolonDigit : isDecimalDigit ':' = false := by decide
  have hmark : isDecimalDigit 'T' = false := by decide
  -- behind the seconds there is a fraction, or the zone
  obtain ⟨c, rest, hc, htail⟩ : ∃ c rest, isDecimalDigit c = false ∧
      fractionChars t.nano ++ ['Z'] = c :: rest := by
    unfold fractionChars
    split
    · exact ⟨'Z', [], by decide, rfl⟩
    · split
      · exact ⟨'.', _, by decide, rfl⟩
      · split <;> exact ⟨'.', _, by decide, rfl⟩
  unfold ofString? toString
  rw [String.toList_ofList]
  unfold toChars ofChars?
  simp only [List.append_assoc, List.cons_append]
  rw [htail]
  -- one part of the text after the other is read, and what is behind it is left
  refine Option.bind_eq_some_iff.mpr
    ⟨_, year?_yearChars t.date.year_range (noDigit_cons hdashDigit), ?_⟩
  refine Option.bind_eq_some_iff.mpr ⟨_, separator?_cons hdash _, ?_⟩
  refine Option.bind_eq_some_iff.mpr ⟨_, number?_fixed (by omega) hdashDigit, ?_⟩
  refine Option.bind_eq_some_iff.mpr ⟨_, separator?_cons hdash _, ?_⟩
  refine Option.bind_eq_some_iff.mpr ⟨_, number?_fixed (by omega) hmark, ?_⟩
  refine Option.bind_eq_some_iff.mpr ⟨_, timeMark?_cons _, ?_⟩
  refine Option.bind_eq_some_iff.mpr ⟨_, number?_fixed (by omega) hcolonDigit, ?_⟩
  refine Option.bind_eq_some_iff.mpr ⟨_, separator?_cons hcolon _, ?_⟩
  refine Option.bind_eq_some_iff.mpr ⟨_, number?_fixed (by omega) hcolonDigit, ?_⟩
  refine Option.bind_eq_some_iff.mpr ⟨_, separator?_cons hcolon _, ?_⟩
  refine Option.bind_eq_some_iff.mpr ⟨_, number?_fixed (by omega) hc, ?_⟩
  rw [← htail]
  refine Option.bind_eq_some_iff.mpr ⟨_, fraction?_fractionChars t.nano_lt, ?_⟩
  refine Option.bind_eq_some_iff.mpr ⟨(0, []), rfl, ?_⟩
  refine (if_pos ⟨rfl, by decide⟩).trans ?_
  refine Option.bind_eq_some_iff.mpr ⟨_, Date.of?_self t.date, ?_⟩
  refine Option.bind_eq_some_iff.mpr ⟨_, of?_self t, ?_⟩
  exact ofLocal?_zero t

end Checkout.Timestamp
