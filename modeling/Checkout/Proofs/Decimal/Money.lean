import Checkout.Money
import Mathlib.Order.Compare
import Mathlib.Tactic.Ring

/-!
# Amounts in cents

A new amount of money is a whole number of cents below a million million (`exists_new_iff`): what a
column of twelve digits, two of them behind the point, can hold without loss.
-/

namespace Checkout

theorem Rounding.halfEven_mul (q : Nat) {d : Nat} (hd : 0 < d) : halfEven (q * d) d = q := by
  unfold halfEven
  rw [Nat.mul_div_cancel _ hd, Nat.mul_mod_left]
  exact if_pos hd

namespace Decimal

variable {a b : Decimal} {cents : Nat}

/-- The value of the decimal is so many hundredths. -/
def Hundredths (a : Decimal) (cents : Nat) : Prop :=
  a.signed * tenTo 2 = cents * tenTo a.scale

theorem tenTo_cast_pos (k : Nat) : (0 : Int) < tenTo k := Int.natCast_pos.mpr (tenTo_pos k)

theorem signed_eq (a : Decimal) : a.signed = (if a.negative then -1 else 1) * (a.mantissa : Int) := by
  unfold signed
  split <;> ring

/-- A number that is not negative is its mantissa over a power of ten. -/
theorem natCast_mantissa (h : 0 ≤ a.signed) : (a.mantissa : Int) = a.signed := by
  unfold signed at h ⊢
  split at h <;> simp_all

theorem sameValue_iff : a.sameValue b = true ↔
    a.signed * tenTo b.scale = b.signed * tenTo a.scale := by
  unfold sameValue order
  rw [decide_eq_true_iff, compare_eq_iff_eq]

theorem Hundredths.nonneg (h : a.Hundredths cents) : 0 ≤ a.signed := by
  have hle : 0 ≤ a.signed * tenTo 2 := by
    rw [h]
    exact Int.mul_nonneg (Int.natCast_nonneg _) (Int.natCast_nonneg _)
  exact Int.nonneg_of_mul_nonneg_left hle (tenTo_cast_pos 2)

/-- An amount of hundredths is not changed by rounding to two places. -/
theorem Hundredths.round_sameValue (h : a.Hundredths cents) :
    (a.round Money.places).sameValue a = true := by
  unfold round
  split
  · exact sameValue_iff.mpr rfl
  next hscale =>
    obtain ⟨k, hk⟩ : ∃ k, a.scale = k + 2 :=
      ⟨a.scale - 2, by unfold Money.places at hscale; omega⟩
    have hsigned : a.signed = cents * tenTo k := by
      unfold Hundredths at h
      rw [hk, tenTo_add, Int.natCast_mul, ← mul_assoc] at h
      exact Int.eq_of_mul_eq_mul_right (tenTo_cast_pos 2).ne' h
    have hmantissa : a.mantissa = cents * tenTo k := by
      have habs := congrArg Int.natAbs hsigned
      rw [signed_eq, Int.natAbs_mul, Int.natAbs_mul] at habs
      split at habs <;> simpa using habs
    have hrounded : Rounding.halfEven a.mantissa (tenTo (a.scale - Money.places)) = cents := by
      rw [hmantissa, hk, Money.places, Nat.add_sub_cancel, Rounding.halfEven_mul _ (tenTo_pos k)]
    rw [sameValue_iff, signed_eq, signed_eq]
    show (if a.negative then -1 else 1) *
        ((Rounding.halfEven a.mantissa (tenTo (a.scale - Money.places)) : Nat) : Int) *
        tenTo a.scale = (if a.negative then -1 else 1) * (a.mantissa : Int) * tenTo Money.places
    rw [hrounded, hmantissa, hk, tenTo_add, Money.places]
    push_cast
    ring

/-- An amount that rounding to two places does not change is an amount of hundredths. -/
theorem exists_hundredths_of_sameValue (hnonneg : 0 ≤ a.signed)
    (h : (a.round Money.places).sameValue a = true) : ∃ cents, a.Hundredths cents := by
  have hint : ∃ n : Int, a.signed * tenTo 2 = n * tenTo a.scale := by
    unfold round at h
    split at h
    next hscale =>
      obtain ⟨k, hk⟩ : ∃ k, 2 = k + a.scale :=
        ⟨2 - a.scale, by unfold Money.places at hscale; omega⟩
      refine ⟨a.signed * tenTo k, ?_⟩
      rw [hk, tenTo_add]
      push_cast
      ring
    · exact ⟨_, (sameValue_iff.mp h).symm⟩
  obtain ⟨n, hn⟩ := hint
  have hn0 : 0 ≤ n := by
    have hle : 0 ≤ n * tenTo a.scale := hn ▸ Int.mul_nonneg hnonneg (Int.natCast_nonneg _)
    exact Int.nonneg_of_mul_nonneg_left hle (tenTo_cast_pos _)
  refine ⟨n.toNat, ?_⟩
  unfold Hundredths
  rw [hn, Int.toNat_of_nonneg hn0]

/-- Hundredths are below the bound of money if there are less than a million million of them. -/
theorem Hundredths.order_upperBound (h : a.Hundredths cents) :
    a.order Money.upperBound = .lt ↔ cents < tenTo 12 := by
  have hbound : Money.upperBound.signed = tenTo 10 := rfl
  have hscale : Money.upperBound.scale = 0 := rfl
  have h12 : (tenTo 12 : Int) = tenTo 10 * tenTo 2 := rfl
  have hpos := tenTo_cast_pos a.scale
  unfold order
  rw [compare_lt_iff_lt, hbound, hscale, show ((tenTo 0 : Nat) : Int) = 1 from rfl, mul_one]
  calc a.signed < tenTo 10 * tenTo a.scale
      ↔ a.signed * tenTo 2 < tenTo 10 * tenTo a.scale * tenTo 2 :=
        (Int.mul_lt_mul_right (tenTo_cast_pos 2)).symm
    _ ↔ (cents : Int) * tenTo a.scale < tenTo 12 * tenTo a.scale := by
        rw [h, h12, mul_right_comm]
    _ ↔ cents < tenTo 12 := by rw [Int.mul_lt_mul_right hpos, Int.ofNat_lt]

end Decimal

namespace Money

open Decimal

variable {a : Decimal} {m : Money}

theorem amount_of_new (h : new a = .ok m) : m.amount = a := by
  unfold new at h
  split at h
  · split at h
    · cases h
    · split at h
      · cases h
        rfl
      · cases h
  · cases h

/-- **New amounts are cents**: an amount is accepted if it is a whole number of cents below a million
million, and only then. -/
theorem exists_new_iff :
    (∃ m, new a = .ok m) ↔ ∃ cents, a.Hundredths cents ∧ cents < tenTo 12 := by
  unfold new
  constructor
  · rintro ⟨m, h⟩
    split at h
    next hnonneg =>
      split at h
      · cases h
      next hround =>
        obtain ⟨cents, hcents⟩ := exists_hundredths_of_sameValue hnonneg (not_not.mp hround)
        split at h
        next hlt => exact ⟨cents, hcents, hcents.order_upperBound.mp hlt⟩
        · cases h
    · cases h
  · rintro ⟨cents, hcents, hlt⟩
    refine ⟨⟨a, hcents.nonneg⟩, ?_⟩
    rw [dif_pos hcents.nonneg, if_neg (not_not.mpr hcents.round_sameValue),
      if_pos (hcents.order_upperBound.mpr hlt)]

end Money

end Checkout
