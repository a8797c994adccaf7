import Checkout.Power
import Checkout.Rounding

/-!
# Decimals

A decimal is a sign, a mantissa of 96 bits and a scale of at most 28: the number of digits after the
point. Sums and products are computed exactly and then fitted: the fewest fraction digits are dropped
that leave a mantissa of 96 bits, rounding once, half to even. A result that is still too large
without fraction digits is an overflow.
-/

namespace Checkout

/-- Mantissas are below this bound, two to the power of 96. -/
def Decimal.mantissaBound : Nat := 0x1000000000000000000000000

/-- There are at most so many fraction digits. -/
def Decimal.maxScale : Nat := 28

/-- A decimal number with a fixed number of fraction digits. Zero may carry a sign. -/
structure Decimal where
  negative : Bool
  mantissa : Nat
  scale : Nat
  mantissa_lt : mantissa < Decimal.mantissaBound
  scale_le : scale ≤ Decimal.maxScale
  deriving DecidableEq

namespace Decimal

theorem mantissaBound_pos : 0 < mantissaBound := by decide

/-- A decimal without fraction digits. -/
def whole (negative : Bool) (m : Nat) (hm : m < mantissaBound) : Decimal :=
  ⟨negative, m, 0, hm, Nat.zero_le maxScale⟩

/-- Zero without fraction digits. -/
def zero : Decimal := whole false 0 mantissaBound_pos

instance : Inhabited Decimal := ⟨zero⟩

/-- The whole number, if it is in range. -/
def ofNat? (n : Nat) : Option Decimal :=
  if h : n < mantissaBound then some (whole false n h) else none

/-- The mantissa with its sign. -/
def signed (a : Decimal) : Int := if a.negative then -(a.mantissa : Int) else a.mantissa

/-- Zero of either sign and any scale. -/
def isZero (a : Decimal) : Bool := a.mantissa = 0

/-! ### Comparison by value -/

/-- Compares the values; the scales do not matter. -/
def order (a b : Decimal) : Ordering :=
  compare (a.signed * tenTo b.scale) (b.signed * tenTo a.scale)

/-- The values are equal; the scales may differ. -/
def sameValue (a b : Decimal) : Bool := a.order b = .eq

/-! ### Fitting an exact result -/

/-- Fits `m / 10 ^ (s + k)`, of which `k` fraction digits are already given up: the first rounded
mantissa that is not too large is taken. -/
def fitFrom (negative : Bool) (m k s : Nat) (hs : s ≤ maxScale) : Option Decimal :=
  if h : Rounding.halfEven m (tenTo k) < mantissaBound then
    some ⟨negative, Rounding.halfEven m (tenTo k), s, h, hs⟩
  else
    match s with
    | 0 => none
    | s + 1 => fitFrom negative m (k + 1) s (Nat.le_of_succ_le hs)

/-- The decimal nearest to the signed value `m / 10 ^ s` that keeps the most fraction digits. -/
def fit? (negative : Bool) (m s : Nat) (hs : s ≤ maxScale) : Option Decimal :=
  fitFrom negative m 0 s hs

theorem negative_of_fitFrom {negative : Bool} {m k s : Nat} {hs : s ≤ maxScale} {d : Decimal}
    (h : fitFrom negative m k s hs = some d) : d.negative = negative := by
  induction s generalizing k with
  | zero =>
    rw [fitFrom] at h
    split at h
    · cases h; rfl
    · cases h
  | succ s ih =>
    rw [fitFrom] at h
    split at h
    · cases h; rfl
    · exact ih h

/-! ### Arithmetic -/

/-- The sum, or nothing where it overflows. Adding to a zero gives the other number unchanged. -/
def add? (a b : Decimal) : Option Decimal :=
  if a.isZero then some b
  else if b.isZero then some a
  else
    let s := max a.scale b.scale
    let n := a.signed * tenTo (s - a.scale) + b.signed * tenTo (s - b.scale)
    fit? (n < 0) n.natAbs s (Nat.max_le.2 ⟨a.scale_le, b.scale_le⟩)

/-- The product with a whole number, or nothing where it overflows. A product that is zero has no
fraction digits. -/
def times? (a : Decimal) (n : Nat) : Option Decimal :=
  if a.isZero ∨ n = 0 then some zero else fit? a.negative (a.mantissa * n) a.scale a.scale_le

theorem signed_nonneg_of_negative {a : Decimal} (h : a.negative = false) : 0 ≤ a.signed := by
  simp [signed, h]

/-- A value of at least zero that is not zero carries no minus sign. -/
theorem negative_of_signed_nonneg {a : Decimal} (h : 0 ≤ a.signed) (hz : a.isZero = false) :
    a.negative = false := by
  have hz : a.mantissa ≠ 0 := of_decide_eq_false hz
  cases hn : a.negative with
  | false => rfl
  | true =>
    rw [signed, hn, if_pos rfl] at h
    omega

theorem add?_nonneg {a b d : Decimal} (ha : 0 ≤ a.signed) (hb : 0 ≤ b.signed)
    (h : a.add? b = some d) : 0 ≤ d.signed := by
  simp only [add?] at h
  split at h
  · cases h; exact hb
  · split at h
    · cases h; exact ha
    · refine signed_nonneg_of_negative ((negative_of_fitFrom h).trans (decide_eq_false ?_))
      have h₁ : 0 ≤ a.signed * tenTo (max a.scale b.scale - a.scale) :=
        Int.mul_nonneg ha (Int.natCast_nonneg _)
      have h₂ : 0 ≤ b.signed * tenTo (max a.scale b.scale - b.scale) :=
        Int.mul_nonneg hb (Int.natCast_nonneg _)
      omega

theorem times?_nonneg {a d : Decimal} {n : Nat} (ha : 0 ≤ a.signed) (h : a.times? n = some d) :
    0 ≤ d.signed := by
  simp only [times?] at h
  split at h
  · cases h; decide
  · rename_i hz
    have hz : a.isZero = false := by
      cases hz' : a.isZero with
      | false => rfl
      | true => exact absurd (Or.inl hz') hz
    exact signed_nonneg_of_negative
      ((negative_of_fitFrom h).trans (negative_of_signed_nonneg ha hz))

/-- The mantissa without its last `k` digits, a half going up. The sign stays, also that of a value
that becomes zero. -/
def dropDigits (a : Decimal) (k : Nat) : Decimal :=
  { a with
    mantissa := Rounding.halfUp a.mantissa (tenTo k)
    mantissa_lt := Nat.lt_of_le_of_lt
      (Rounding.halfUp_le _ (tenTo_pos k)) a.mantissa_lt }

/-- The value rounded half to even to at most the given number of fraction digits. -/
def round (a : Decimal) (places : Nat) : Decimal :=
  if h : a.scale ≤ places then a
  else
    { negative := a.negative
      mantissa := Rounding.halfEven a.mantissa (tenTo (a.scale - places))
      scale := places
      mantissa_lt := Nat.lt_of_le_of_lt
        (Rounding.halfEven_le _ (tenTo_pos _)) a.mantissa_lt
      scale_le := Nat.le_trans (Nat.le_of_not_le h) a.scale_le }

/-- The same mantissa and sign under another scale. -/
def withScale (a : Decimal) (s : Nat) (hs : s ≤ maxScale) : Decimal :=
  ⟨a.negative, a.mantissa, s, a.mantissa_lt, hs⟩

end Decimal

end Checkout
