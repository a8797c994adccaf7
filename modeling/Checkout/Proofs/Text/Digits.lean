import Checkout.Text.Digits
import Mathlib.Algebra.Group.Nat.Defs

/-!
# Reading digits back

What `fixed` writes with enough digits is read as the number it was written for, whichever reader
reads it (`ofDigits?_fixed`, `ofDigitsBelow?_fixed`). What `natural` writes is written with some
number of digits as well (`natural_eq_fixed`).
-/

namespace Checkout.Text

variable {base : Nat}

theorem digitOf?_digitChar {d : Nat} (hbase : base ≤ 16) (hd : d < base) :
    digitOf? base (Nat.digitChar d) = some d := by
  have hvalue : ∀ d < 16, digitValue? (Nat.digitChar d) = some d := by decide
  unfold digitOf?
  rw [hvalue d (Nat.lt_of_lt_of_le hd hbase)]
  simp [hd]

theorem isDecimalDigit_digitChar {d : Nat} (hd : d < 10) : isDecimalDigit (Nat.digitChar d) := by
  unfold isDecimalDigit
  rw [digitOf?_digitChar (by decide) hd]
  rfl

theorem exists_digitChar_of_mem_fixed {width n : Nat} {c : Char} (h : c ∈ fixed 10 width n) :
    ∃ d < 10, c = Nat.digitChar d := by
  induction width with
  | zero => cases h
  | succ width ih =>
      rcases List.mem_cons.mp h with rfl | h
      · exact ⟨_, Nat.mod_lt _ (by decide), rfl⟩
      · exact ih h

theorem isDecimalDigit_of_mem_fixed {width n : Nat} {c : Char} (h : c ∈ fixed 10 width n) :
    isDecimalDigit c := by
  obtain ⟨d, hd, rfl⟩ := exists_digitChar_of_mem_fixed h
  exact isDecimalDigit_digitChar hd

theorem fixed_succ (base width n : Nat) :
    fixed base (width + 1) n = Nat.digitChar (n / base ^ width % base) :: fixed base width n :=
  rfl

/-- A first digit goes before the others. -/
theorem mod_pow_succ_add (base width n acc : Nat) :
    acc * base ^ (width + 1) + n % base ^ (width + 1) =
      (acc * base + n / base ^ width % base) * base ^ width + n % base ^ width := by
  rw [Nat.mod_pow_succ, Nat.add_mul, Nat.pow_succ', Nat.mul_assoc,
    Nat.mul_comm (n / base ^ width % base)]
  omega

/-! ## Readers -/

theorem foldlM_fixed (hpos : 0 < base) (hbase : base ≤ 16) (width n acc : Nat) :
    (fixed base width n).foldlM (fun n c => (digitOf? base c).map (n * base + ·)) acc =
      some (acc * base ^ width + n % base ^ width) := by
  induction width generalizing acc with
  | zero => simp [fixed, Nat.mod_one]
  | succ width ih =>
      rw [fixed_succ, List.foldlM_cons, digitOf?_digitChar hbase (Nat.mod_lt _ hpos)]
      show (fixed base width n).foldlM _ (acc * base + n / base ^ width % base) = _
      rw [ih, mod_pow_succ_add]

theorem ofDigits?_fixed (hpos : 0 < base) (hbase : base ≤ 16) (width n : Nat) :
    ofDigits? base (fixed base width n) = some (n % base ^ width) := by
  unfold ofDigits?
  rw [foldlM_fixed hpos hbase, Nat.zero_mul, Nat.zero_add]

theorem extendBelow?_fixed (hpos : 0 < base) (hbase : base ≤ 16) {bound width n acc : Nat}
    (h : acc * base ^ width + n % base ^ width < bound) :
    ((fixed base width n).mapM (digitOf? base)).bind (extendBelow? base bound acc) =
      some (acc * base ^ width + n % base ^ width) := by
  induction width generalizing acc with
  | zero => simp [fixed, extendBelow?, Nat.mod_one]
  | succ width ih =>
      rw [mod_pow_succ_add] at h ⊢
      rw [fixed_succ, List.mapM_cons, digitOf?_digitChar hbase (Nat.mod_lt _ hpos)]
      have hfirst : acc * base + n / base ^ width % base < bound := by
        have hle := Nat.le_mul_of_pos_right (acc * base + n / base ^ width % base)
          (Nat.pow_pos (n := width) hpos)
        exact Nat.lt_of_le_of_lt (Nat.le_trans hle (Nat.le_add_right _ _)) h
      have hrest := ih h
      cases hdigits : (fixed base width n).mapM (digitOf? base) with
      | none =>
          rw [hdigits] at hrest
          cases hrest
      | some ds =>
          rw [hdigits] at hrest
          show extendBelow? base bound acc (_ :: ds) = _
          rw [extendBelow?]
          exact (if_pos hfirst).trans hrest

theorem ofDigitsBelow?_fixed (hpos : 0 < base) (hbase : base ≤ 16) {bound width n : Nat}
    (h : n % base ^ width < bound) :
    ofDigitsBelow? base bound (fixed base width n) = some (n % base ^ width) := by
  unfold ofDigitsBelow?
  rw [extendBelow?_fixed hpos hbase (by simpa using h), Nat.zero_mul, Nat.zero_add]

/-! ## Numbers without leading zeros -/

theorem fixed_succ_right (width n : Nat) :
    fixed base (width + 1) n = fixed base width (n / base) ++ [Nat.digitChar (n % base)] := by
  induction width with
  | zero => simp [fixed]
  | succ width ih =>
      rw [fixed_succ, ih, fixed_succ, List.cons_append, Nat.div_div_eq_div_mul, Nat.pow_succ']

/-- A number is written with as many digits as it needs. -/
theorem natural_eq_fixed (n : Nat) :
    ∃ width, natural n = fixed 10 (width + 1) n ∧ n < 10 ^ (width + 1) ∧
      (0 < width → 10 ^ width ≤ n) := by
  induction n using Nat.strongRecOn with
  | _ n ih =>
    by_cases h : n < 10
    · refine ⟨0, ?_, h, fun hpos => absurd hpos (Nat.lt_irrefl 0)⟩
      unfold natural
      rw [Nat.toDigits_of_lt_base h]
      simp [fixed, Nat.mod_eq_of_lt h]
    · obtain ⟨width, hnatural, hlt, hle⟩ := ih (n / 10) (by omega)
      refine ⟨width + 1, ?_, ?_, fun _ => ?_⟩
      · unfold natural at hnatural ⊢
        rw [fixed_succ_right, ← hnatural]
        have happend := Nat.toDigits_append_toDigits (b := 10) (n := n / 10) (d := n % 10)
          (by decide) (by omega) (Nat.mod_lt _ (by decide))
        rw [Nat.toDigits_of_lt_base (Nat.mod_lt n (by decide)), Nat.div_add_mod] at happend
        exact happend.symm
      · rw [Nat.pow_succ]
        omega
      · rw [Nat.pow_succ]
        cases width with
        | zero => omega
        | succ width =>
            have hle := hle (Nat.succ_pos width)
            omega

/-- A number that is padded is written with as many digits as it needs, but not with too few. -/
theorem padded_eq_fixed {least most n : Nat} (hle : least ≤ most) (hn : n < 10 ^ most) :
    ∃ width, least ≤ width ∧ width ≤ most ∧ padded least n = fixed 10 width n ∧
      n < 10 ^ width := by
  unfold padded
  split
  next hlt => exact ⟨least, Nat.le_refl _, hle, rfl, hlt⟩
  next hge =>
    obtain ⟨width, hnatural, hlt, hwidth⟩ := natural_eq_fixed n
    have hlong : 10 ^ least ≤ n := Nat.le_of_not_lt hge
    refine ⟨width + 1, Nat.le_of_not_lt fun hshort => ?_, Nat.le_of_not_lt fun hmore => ?_,
      hnatural, hlt⟩
    · have hpow := Nat.pow_le_pow_right (show 0 < 10 by decide) (Nat.le_of_lt hshort)
      omega
    · have hpow := Nat.pow_le_pow_right (show 0 < 10 by decide) (Nat.le_of_lt_succ hmore)
      rcases Nat.eq_zero_or_pos width with rfl | hpos
      · rw [Nat.le_zero.mp (Nat.le_of_lt_succ hmore)] at hle hn
        rw [Nat.le_zero.mp hle] at hlong
        omega
      · have hfirst := hwidth hpos
        omega

end Checkout.Text
