import Checkout.Proofs.Decimal.Order

/-!
# Which amounts are accepted

An amount is accepted if it is worth a whole number of cents that has twelve digits at most, however
it is written. Whether a digit behind the second place matters is found out by rounding, and rounding
changes a number exactly if there is such a digit (`isFine_iff`). So each fault has its own condition
on the value and the digits of an amount, and an amount that has several gets the first of them
(`Money.cents_or_refused`).
-/

namespace Checkout

namespace Decimal

variable {a : Decimal} {cents k : Nat}

/-! ## Digits behind the point -/

/-- The digit at the `k`-th place behind the point. -/
def fractionDigit (a : Decimal) (k : Nat) : Nat := a.mantissa * tenTo k / tenTo a.scale % 10

/-- Some digit behind the second place is not zero. -/
def IsFine (a : Decimal) : Prop := ∃ k, 2 < k ∧ a.fractionDigit k ≠ 0

/-- If the point moves by one place, one more digit comes before it. -/
theorem shifted_succ (a : Decimal) (k : Nat) :
    a.mantissa * tenTo (k + 1) / tenTo a.scale =
      a.mantissa * tenTo k / tenTo a.scale * 10 + a.fractionDigit (k + 1) := by
  have hless : a.mantissa * tenTo (k + 1) / tenTo a.scale / 10 =
      a.mantissa * tenTo k / tenTo a.scale := by
    rw [Nat.div_div_eq_div_mul, tenTo_succ k, ← Nat.mul_assoc]
    exact Nat.mul_div_mul_right _ _ (by decide)
  unfold fractionDigit
  rw [← hless]
  exact (Nat.div_add_mod' _ 10).symm

/-- If all digits behind the second place are zeros, moving the point further only adds zeros. -/
theorem shifted_add (h : ¬ a.IsFine) (j : Nat) :
    a.mantissa * tenTo (2 + j) / tenTo a.scale =
      a.mantissa * tenTo 2 / tenTo a.scale * tenTo j := by
  induction j with
  | zero => exact (Nat.mul_one _).symm
  | succ j ih =>
      have hzero : a.fractionDigit (2 + j + 1) = 0 := by
        by_contra hne
        exact h ⟨2 + j + 1, by omega, hne⟩
      rw [← Nat.add_assoc, shifted_succ, hzero, ih, tenTo_succ j, Nat.mul_assoc, Nat.add_zero]

/-- **The digits behind the second place are zeros** if the number is a whole number of hundredths,
and only then. -/
theorem isFine_iff : a.IsFine ↔ ¬ tenTo a.scale ∣ a.mantissa * tenTo 2 := by
  constructor
  · rintro ⟨k, hk, hdigit⟩ ⟨n, hn⟩
    obtain ⟨j, rfl⟩ : ∃ j, k = 2 + (j + 1) := ⟨k - 3, by omega⟩
    apply hdigit
    unfold fractionDigit
    rw [tenTo_add, ← Nat.mul_assoc, hn, Nat.mul_assoc, Nat.mul_div_cancel_left _ (tenTo_pos _),
      tenTo_succ j, ← Nat.mul_assoc]
    exact Nat.mul_mod_left _ 10
  · intro hdvd
    by_contra hfine
    -- all fraction digits are in front of the point once it has moved by the scale
    have hall := shifted_add hfine a.scale
    rw [tenTo_add, ← Nat.mul_assoc, Nat.mul_div_cancel _ (tenTo_pos _)] at hall
    exact hdvd ⟨_, hall.trans (Nat.mul_comm _ _)⟩

/-! ## Values in cents -/

theorem hundredths_iff : a.Hundredths cents ↔ 100 * a.value = cents := by
  constructor
  · intro h
    rw [h.value_eq, mul_div_cancel₀]
    norm_num
  · intro h
    have hpos : ((tenTo a.scale : Nat) : ℚ) ≠ 0 := by exact_mod_cast (tenTo_pos a.scale).ne'
    unfold value at h
    rw [← mul_div_assoc, div_eq_iff hpos, mul_comm] at h
    show a.signed * 100 = cents * tenTo a.scale
    exact_mod_cast h

/-- A number that is not negative is a whole number of hundredths, or some digit behind the second
place is not zero. -/
theorem exists_hundredths_iff (h : 0 ≤ a.value) : (∃ cents, a.Hundredths cents) ↔ ¬ a.IsFine := by
  rw [isFine_iff, not_not]
  unfold Hundredths
  rw [← natCast_mantissa (value_nonneg_iff.mp h)]
  constructor
  · rintro ⟨cents, hcents⟩
    refine ⟨cents, ?_⟩
    rw [Nat.mul_comm (tenTo _)]
    exact_mod_cast hcents
  · rintro ⟨cents, hcents⟩
    refine ⟨cents, ?_⟩
    rw [Nat.mul_comm (tenTo _)] at hcents
    exact_mod_cast hcents

end Decimal

namespace Money

open Decimal

variable {a : Decimal} {fault : MoneyFault}

/-! ## Faults -/

/-- The first fault of an amount: its sign, then a digit behind the second place, then the bound. -/
inductive Refuses (a : Decimal) : MoneyFault → Prop
  | negative (hneg : a.value < 0) : Refuses a (.negative a)
  | tooFine (hnonneg : 0 ≤ a.value) (hfine : a.IsFine) : Refuses a (.tooFine a)
  | tooLarge (hlarge : (tenTo 10 : ℚ) ≤ a.value) (hfine : ¬ a.IsFine) : Refuses a (.tooLarge a)

theorem new_of_neg (h : a.value < 0) : new a = .error (.negative a) := by
  unfold new
  exact dif_neg fun hsigned => (value_nonneg_iff.mpr hsigned).not_gt h

theorem new_of_isFine (h : 0 ≤ a.value) (hfine : a.IsFine) : new a = .error (.tooFine a) := by
  have hsigned := value_nonneg_iff.mp h
  unfold new
  rw [dif_pos hsigned, if_pos]
  intro hsame
  exact (exists_hundredths_iff h).mp (exists_hundredths_of_sameValue hsigned hsame) hfine

theorem new_of_hundredths {cents : Nat} (h : a.Hundredths cents) (hle : tenTo 12 ≤ cents) :
    new a = .error (.tooLarge a) := by
  unfold new
  rw [dif_pos h.nonneg, if_neg (not_not.mpr h.round_sameValue), if_neg]
  rw [h.order_upperBound]
  exact Nat.not_lt.mpr hle

theorem tenTo_le_value_iff {cents : Nat} (h : a.Hundredths cents) :
    (tenTo 10 : ℚ) ≤ a.value ↔ tenTo 12 ≤ cents := by
  rw [h.value_eq, le_div_iff₀ (by norm_num)]
  exact_mod_cast Iff.rfl

/-- **Every amount is refused for its first fault**, if it has one. -/
theorem new_eq_error_iff : new a = .error fault ↔ Refuses a fault := by
  constructor
  · intro h
    rcases lt_or_ge a.value 0 with hneg | hnonneg
    · cases (new_of_neg hneg).symm.trans h
      exact .negative hneg
    by_cases hfine : a.IsFine
    · cases (new_of_isFine hnonneg hfine).symm.trans h
      exact .tooFine hnonneg hfine
    obtain ⟨cents, hcents⟩ := (exists_hundredths_iff hnonneg).mpr hfine
    rcases Nat.lt_or_ge cents (tenTo 12) with hlt | hle
    · obtain ⟨m, hm⟩ := exists_new_iff.mpr ⟨cents, hcents, hlt⟩
      cases hm.symm.trans h
    · cases (new_of_hundredths hcents hle).symm.trans h
      exact .tooLarge ((tenTo_le_value_iff hcents).mpr hle) hfine
  · intro h
    cases h with
    | negative hneg => exact new_of_neg hneg
    | tooFine hnonneg hfine => exact new_of_isFine hnonneg hfine
    | tooLarge hlarge hfine =>
        obtain ⟨cents, hcents⟩ :=
          (exists_hundredths_iff ((Nat.cast_nonneg _).trans hlarge)).mpr hfine
        exact new_of_hundredths hcents ((tenTo_le_value_iff hcents).mp hlarge)

/-! ## Acceptance -/

/-- **An amount is accepted if it is a whole number of cents below a million million**, and only
then, and is worth the same as an amount of money. Any other is refused for its first fault. -/
theorem cents_or_refused (a : Decimal) :
    ((∃ m, new a = .ok m) ↔ ∃ n : Int, 0 ≤ n ∧ n < tenTo 12 ∧ 100 * a.value = n) ∧
      (∀ m, new a = .ok m → m.amount.value = a.value) ∧
      ∀ fault, new a = .error fault ↔ Refuses a fault := by
  refine ⟨?_, fun m hm => by rw [amount_of_new hm], fun _ => new_eq_error_iff⟩
  rw [exists_new_iff]
  constructor
  · rintro ⟨cents, hcents, hlt⟩
    exact ⟨cents, Int.natCast_nonneg _, Int.ofNat_lt.mpr hlt, hundredths_iff.mp hcents⟩
  · rintro ⟨n, hnonneg, hlt, hvalue⟩
    obtain ⟨cents, rfl⟩ := Int.eq_ofNat_of_zero_le hnonneg
    exact ⟨cents, hundredths_iff.mpr hvalue, Int.ofNat_lt.mp hlt⟩

/-- It does not matter how an amount is written. -/
theorem new_of_sameValue {m n : Money} (h : m.sameValue n = true) (hn : new n.amount = .ok n) :
    new m.amount = .ok m := by
  obtain ⟨cents, hcents, hlt⟩ := exists_new_iff.mp ⟨n, hn⟩
  have hvalue : m.amount.value = n.amount.value := sameValue_iff_value_eq.mp h
  rw [hundredths_iff, ← hvalue, ← hundredths_iff] at hcents
  obtain ⟨m', hm'⟩ := exists_new_iff.mpr ⟨cents, hcents, hlt⟩
  have hamount := amount_of_new hm'
  cases m
  cases m'
  cases hamount
  exact hm'

end Money

end Checkout
