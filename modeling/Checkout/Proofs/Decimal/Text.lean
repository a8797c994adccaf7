import Checkout.Decimal.Text
import Checkout.Proofs.Text.Digits

/-!
# Reading decimals back

Digits with a point before the last of them are read as the decimal that they name, as long as there
are not too many of them (`ofString?_point`). So a decimal is read from its own text with all its
digits (`ofString?_toString`), but a zero is read without sign.
-/

namespace Checkout.Decimal

open Text

/-- Digits of a whole part are all taken up. -/
theorem extend?_fixed {width n m : Nat} (hm : m < mantissaBound)
    (h : m * 10 ^ width + n % 10 ^ width < mantissaBound) :
    extend? m hm (fixed 10 width n) = some ⟨_, h⟩ := by
  induction width generalizing m with
  | zero => simp [fixed, extend?, Nat.mod_one]
  | succ width ih =>
      have hstep := mod_pow_succ_add 10 width n m
      have hfirst : m * 10 + n / 10 ^ width % 10 < mantissaBound := by
        have hle := Nat.le_mul_of_pos_right (m * 10 + n / 10 ^ width % 10)
          (Nat.pow_pos (n := width) (show 0 < 10 by decide))
        omega
      rw [fixed_succ, extend?, digitOf?_digitChar (by decide) (Nat.mod_lt _ (by decide))]
      dsimp only
      rw [dif_pos hfirst, ih hfirst (hstep ▸ h)]
      exact congrArg some (Subtype.ext hstep.symm)

/-- Fraction digits are all taken up while there is room for them. -/
theorem absorb_fixed {negative : Bool} {width n m s : Nat} (hm : m < mantissaBound)
    (hs : s ≤ maxScale) (h : m * 10 ^ width + n % 10 ^ width < mantissaBound)
    (hroom : s + width ≤ maxScale) :
    absorb negative m s hm hs (fixed 10 width n) =
      some ⟨negative, m * 10 ^ width + n % 10 ^ width, s + width, h, hroom⟩ := by
  induction width generalizing m s with
  | zero => simp [fixed, absorb, Nat.mod_one]
  | succ width ih =>
      have hstep := mod_pow_succ_add 10 width n m
      have hfirst : m * 10 + n / 10 ^ width % 10 < mantissaBound := by
        have hle := Nat.le_mul_of_pos_right (m * 10 + n / 10 ^ width % 10)
          (Nat.pow_pos (n := width) (show 0 < 10 by decide))
        omega
      have hspace : s < maxScale := by omega
      rw [fixed_succ, absorb, digitOf?_digitChar (by decide) (Nat.mod_lt _ (by decide))]
      dsimp only
      rw [dif_pos ⟨hspace, hfirst⟩, ih hfirst hspace (hstep ▸ h) (by omega)]
      exact congrArg some ((Decimal.mk.injEq ..).mpr ⟨rfl, hstep.symm, by omega⟩)

theorem isDigitOrSeparator_of_mem_fixed {width n : Nat} {c : Char} (h : c ∈ fixed 10 width n) :
    isDigitOrSeparator c = true := by
  unfold isDigitOrSeparator
  rw [isDecimalDigit_of_mem_fixed h, Bool.or_true]

theorem ne_of_mem_fixed {width n : Nat} {c d : Char} (h : c ∈ fixed 10 width n)
    (hd : isDecimalDigit d = false) : c ≠ d := by
  rintro rfl
  rw [isDecimalDigit_of_mem_fixed h] at hd
  cases hd

/-- What stands behind the whole part: a point with so many digits, or nothing where there are
none. -/
inductive IsTail (scale fraction : Nat) : List Char → Prop where
  | point : IsTail scale fraction ('.' :: fixed 10 scale fraction)
  | nothing (h : scale = 0) : IsTail scale fraction []

theorem splitSign_natural (n : Nat) (tail : List Char) :
    splitSign (natural n ++ tail) = (false, natural n ++ tail) := by
  obtain ⟨width, hnatural, -, -⟩ := natural_eq_fixed n
  have hfirst : Nat.digitChar (n / 10 ^ width % 10) ∈ fixed 10 (width + 1) n :=
    List.mem_cons_self
  rw [hnatural, fixed_succ, List.cons_append]
  unfold splitSign
  split
  next heq => exact absurd (List.cons.inj heq).1 (ne_of_mem_fixed hfirst (by decide))
  next heq => exact absurd (List.cons.inj heq).1 (ne_of_mem_fixed hfirst (by decide))
  next => rfl

/-- Behind the sign, a number is read with all its digits. -/
theorem ofPlain?_digits {cs tail : List Char} {negative : Bool} {whole fraction scale : Nat}
    (hsign : splitSign cs = (negative, natural whole ++ tail)) (htail : IsTail scale fraction tail)
    (hfraction : fraction < 10 ^ scale) (h : whole * 10 ^ scale + fraction < mantissaBound)
    (hscale : scale ≤ maxScale) :
    ofPlain? cs =
      some (unsignZero ⟨negative, whole * 10 ^ scale + fraction, scale, h, hscale⟩) := by
  obtain ⟨width, hnatural, hwhole, -⟩ := natural_eq_fixed whole
  have hdigits : ∀ c ∈ fixed 10 (width + 1) whole, decide (c ≠ '.') = true :=
    fun c hc => decide_eq_true (ne_of_mem_fixed hc (by decide))
  have htake : (fixed 10 (width + 1) whole ++ tail).takeWhile (decide <| · ≠ '.') =
      fixed 10 (width + 1) whole := by
    rw [List.takeWhile_append_of_pos hdigits]
    cases htail <;> simp
  have hdrop : ((fixed 10 (width + 1) whole ++ tail).dropWhile (decide <| · ≠ '.')).drop 1 =
      fixed 10 scale fraction := by
    rw [List.dropWhile_append_of_pos hdigits]
    cases htail with
    | point => simp
    | nothing h =>
        subst h
        rfl
  have hvalue : 0 * 10 ^ (width + 1) + whole % 10 ^ (width + 1) = whole := by
    rw [Nat.zero_mul, Nat.zero_add, Nat.mod_eq_of_lt hwhole]
  have hpart : 0 * 10 ^ (width + 1) + whole % 10 ^ (width + 1) < mantissaBound := by
    have hle := Nat.le_mul_of_pos_right whole (Nat.pow_pos (n := scale) (show 0 < 10 by decide))
    omega
  unfold ofPlain?
  rw [hsign, hnatural]
  dsimp only
  rw [htake, hdrop, if_pos]
  · rw [extend?_fixed mantissaBound_pos hpart]
    show (absorb negative _ 0 hpart _ (fixed 10 scale fraction)).bind _ = _
    rw [absorb_fixed _ _ (by rw [hvalue, Nat.mod_eq_of_lt hfraction]; exact h) (by omega)]
    show some (unsignZero _) = _
    simp [Nat.mod_eq_of_lt hwhole, Nat.mod_eq_of_lt hfraction]
  · refine ⟨?_, List.all_eq_true.mpr fun c hc => isDigitOrSeparator_of_mem_fixed hc,
      List.all_eq_true.mpr fun c hc => isDigitOrSeparator_of_mem_fixed hc⟩
    exact isDecimalDigit_digitChar (Nat.mod_lt _ (by decide))

theorem unsignZero_of_nonneg {a : Decimal} (h : a.negative = false) : a.unsignZero = a := by
  obtain ⟨_, m, s, hm, hs⟩ := a
  cases h
  unfold unsignZero
  split <;> rfl

/-- **A number with a point** before the last of its digits is read as it stands. -/
theorem ofPlain?_point {whole fraction scale : Nat} (hfraction : fraction < 10 ^ scale)
    (h : whole * 10 ^ scale + fraction < mantissaBound) (hscale : scale ≤ maxScale) :
    ofPlain? (natural whole ++ '.' :: fixed 10 scale fraction) =
      some ⟨false, whole * 10 ^ scale + fraction, scale, h, hscale⟩ := by
  rw [ofPlain?_digits (splitSign_natural _ _) .point hfraction h hscale, unsignZero_of_nonneg rfl]

theorem ofString?_point {whole fraction scale : Nat} (hfraction : fraction < 10 ^ scale)
    (h : whole * 10 ^ scale + fraction < mantissaBound) (hscale : scale ≤ maxScale) :
    ofString? (String.ofList (natural whole ++ '.' :: fixed 10 scale fraction)) =
      some ⟨false, whole * 10 ^ scale + fraction, scale, h, hscale⟩ := by
  unfold ofString?
  rw [String.toList_ofList, ofPlain?_point hfraction h hscale]
  rfl

/-- **A decimal is read from its own text**, with all its digits. Only a zero loses its sign. -/
theorem ofString?_toString (a : Decimal) : ofString? a.toString = some a.unsignZero := by
  have hmantissa : a.mantissa / 10 ^ a.scale * 10 ^ a.scale + a.mantissa % 10 ^ a.scale =
      a.mantissa := Nat.div_add_mod' _ _
  obtain ⟨tail, htail, hwritten⟩ : ∃ tail,
      IsTail a.scale (a.mantissa % 10 ^ a.scale) tail ∧
        a.toChars = (if a.negative then ['-'] else []) ++
          (natural (a.mantissa / 10 ^ a.scale) ++ tail) := by
    by_cases hscale : a.scale = 0
    · refine ⟨[], .nothing hscale, ?_⟩
      unfold toChars
      rw [List.append_nil]
      dsimp only
      rw [if_pos hscale]
      split <;> rfl
    · refine ⟨_, .point, ?_⟩
      unfold toChars
      dsimp only
      rw [if_neg hscale]
      split <;> rfl
  have hsign : splitSign a.toChars =
      (a.negative, natural (a.mantissa / 10 ^ a.scale) ++ tail) := by
    rw [hwritten]
    cases hnegative : a.negative with
    | true => rfl
    | false => exact splitSign_natural _ _
  have hread := ofPlain?_digits hsign htail (Nat.mod_lt _ (Nat.pow_pos (by decide)))
    (by rw [hmantissa]; exact a.mantissa_lt) a.scale_le
  unfold ofString? toString
  rw [String.toList_ofList, hread]
  simp only [hmantissa]
  rfl

end Checkout.Decimal
