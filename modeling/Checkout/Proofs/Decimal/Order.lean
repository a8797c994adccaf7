import Checkout.Proofs.Decimal.Exact

/-!
# Rounding keeps the order

A decimal that is fitted is rounded at the greatest scale at which its mantissa is not too large, so
a sum is rounded at a scale that depends on what has been added before. Still a greater value is
never rounded to a lesser one, and it overflows if a lesser value does (`Fits.mono`). So sums and
products keep the order of what is added and multiplied (`Money.add_mono`, `Money.multiply_mono`),
and no sum of amounts is less than one of them (`Money.le_add`).
-/

namespace Checkout

/-! ## Rounding a quotient -/

namespace Rounding

variable {n n' d d' : Nat}

/-- The nearest whole number is at most a half away. -/
theorem halfEven_near (n : Nat) (hd : 0 < d) :
    2 * (halfEven n d * d) ≤ 2 * n + d ∧ 2 * n ≤ 2 * (halfEven n d * d) + d := by
  have hn : n / d * d + n % d = n := Nat.div_add_mod' n d
  have hr : n % d < d := Nat.mod_lt n hd
  have hsucc : (n / d + 1) * d = n / d * d + d := Nat.succ_mul _ _
  unfold halfEven
  dsimp only
  split
  · omega
  · split
    · omega
    · split <;> omega

theorem halfEven_mono (h : n ≤ n') (hd : 0 < d) : halfEven n d ≤ halfEven n' d := by
  by_contra hlt
  have hmul : (halfEven n' d + 1) * d ≤ halfEven n d * d :=
    Nat.mul_le_mul_right d (Nat.lt_of_not_le hlt)
  rw [Nat.succ_mul] at hmul
  have hnear := (halfEven_near n hd).1
  have hnear' := (halfEven_near n' hd).2
  -- both lie half-way between two neighbours, so they are the same
  have heq : n = n' := by omega
  rw [heq] at hlt
  exact hlt (Nat.le_refl _)

/-- Rounding depends on the quotient alone. -/
theorem halfEven_mul_mul (n d : Nat) {c : Nat} (hc : 0 < c) :
    halfEven (n * c) (d * c) = halfEven n d := by
  have hlt : 2 * (n % d * c) < d * c ↔ 2 * (n % d) < d := by
    rw [← Nat.mul_assoc, Nat.mul_lt_mul_right hc]
  have hgt : d * c < 2 * (n % d * c) ↔ d < 2 * (n % d) := by
    rw [← Nat.mul_assoc, Nat.mul_lt_mul_right hc]
  unfold halfEven
  rw [Nat.mul_div_mul_right n d hc, Nat.mul_mod_mul_right]
  simp only [hlt, hgt]

/-- **A greater quotient is not rounded to a lesser number.** -/
theorem halfEven_le_halfEven (hd : 0 < d) (hd' : 0 < d') (h : n * d' ≤ n' * d) :
    halfEven n d ≤ halfEven n' d' := by
  calc halfEven n d = halfEven (n * d') (d * d') := (halfEven_mul_mul n d hd').symm
    _ ≤ halfEven (n' * d) (d * d') := halfEven_mono h (Nat.mul_pos hd hd')
    _ = halfEven (n' * d) (d' * d) := by rw [Nat.mul_comm d d']
    _ = halfEven n' d' := halfEven_mul_mul n' d' hd

end Rounding

namespace Decimal

open Rounding

variable {negative negative' : Bool} {m m' s s' k u : Nat} {hs : s ≤ maxScale}
  {hs' : s' ≤ maxScale} {a a' b b' d d' : Decimal}

/-! ## What a value is fitted to -/

/-- The mantissa to which the value `m / 10 ^ s` is rounded at the scale `u`. -/
def mantissaAt (m s u : Nat) : Nat := halfEven (m * tenTo u) (tenTo s)

theorem mantissaAt_mono (h : m * tenTo s' ≤ m' * tenTo s) (u : Nat) :
    mantissaAt m s u ≤ mantissaAt m' s' u := by
  refine halfEven_le_halfEven (tenTo_pos s) (tenTo_pos s') ?_
  rw [Nat.mul_right_comm, Nat.mul_right_comm m' (tenTo u)]
  exact Nat.mul_le_mul_right _ h

/-- At its own scale and at greater ones a value is not rounded. -/
theorem mantissaAt_add (m s k : Nat) : mantissaAt m s (s + k) = m * tenTo k := by
  unfold mantissaAt
  rw [tenTo_add, Nat.mul_comm (tenTo s), ← Nat.mul_assoc]
  exact halfEven_mul _ (tenTo_pos s)

theorem mantissaAt_self (m s : Nat) : mantissaAt m s s = m :=
  (mantissaAt_add m s 0).trans (Nat.mul_one m)

/-- Giving up the last digits of a value is rounding it at a lesser scale. -/
theorem halfEven_tenTo (m s k : Nat) : halfEven m (tenTo k) = mantissaAt m (s + k) s := by
  unfold mantissaAt
  rw [Nat.add_comm, tenTo_add]
  exact (halfEven_mul_mul m (tenTo k) (tenTo_pos s)).symm

/-- The decimal is the value `m / 10 ^ s`, rounded at the greatest scale at which it fits. -/
structure Rounds (m s : Nat) (d : Decimal) : Prop where
  mantissa_eq : d.mantissa = mantissaAt m s d.scale
  scale_le : d.scale ≤ s
  greatest : d.scale < s → mantissaBound ≤ mantissaAt m s (d.scale + 1)

theorem rounds_of_fitFrom (h : fitFrom negative m k s hs = some d) :
    d.mantissa = mantissaAt m (s + k) d.scale ∧ d.scale ≤ s ∧
      (d.scale < s → mantissaBound ≤ mantissaAt m (s + k) (d.scale + 1)) := by
  induction s generalizing k with
  | zero =>
      rw [fitFrom] at h
      split at h
      · cases h
        exact ⟨halfEven_tenTo m 0 k, Nat.le_refl 0, fun hlt => absurd hlt (Nat.lt_irrefl 0)⟩
      · cases h
  | succ s ih =>
      rw [fitFrom] at h
      split at h
      · cases h
        exact ⟨halfEven_tenTo m (s + 1) k, Nat.le_refl _, fun hlt => absurd hlt (Nat.lt_irrefl _)⟩
      next hlarge =>
        obtain ⟨hmantissa, hle, hgreatest⟩ := ih h
        rw [show s + (k + 1) = s + 1 + k by omega] at hmantissa hgreatest
        refine ⟨hmantissa, Nat.le_succ_of_le hle, fun _ => ?_⟩
        -- the next greater scale has been tried, either just now or further on
        rcases Nat.lt_or_eq_of_le hle with hlt | heq
        · exact hgreatest hlt
        · rw [heq, ← halfEven_tenTo]
          exact Nat.le_of_not_lt hlarge

theorem rounds_of_fit? (h : fit? negative m s hs = some d) : Rounds m s d := by
  obtain ⟨hmantissa, hle, hgreatest⟩ := rounds_of_fitFrom h
  exact ⟨hmantissa, hle, hgreatest⟩

theorem exists_fitFrom (hu : u ≤ s) (hlt : mantissaAt m (s + k) u < mantissaBound) :
    ∃ d, fitFrom negative m k s hs = some d ∧ u ≤ d.scale := by
  induction s generalizing k with
  | zero =>
      obtain rfl : u = 0 := Nat.le_zero.mp hu
      rw [← halfEven_tenTo] at hlt
      rw [fitFrom, dif_pos hlt]
      exact ⟨_, rfl, Nat.le_refl 0⟩
  | succ s ih =>
      rw [fitFrom]
      split
      · exact ⟨_, rfl, hu⟩
      next hlarge =>
        rw [halfEven_tenTo m (s + 1) k] at hlarge
        have hne : u ≠ s + 1 := fun heq => hlarge (heq ▸ hlt)
        refine ih (by omega) ?_
        rw [show s + (k + 1) = s + 1 + k by omega]
        exact hlt

/-- A value that fits at some scale can be fitted, and keeps at least the digits of that scale. -/
theorem exists_fit? (hu : u ≤ s) (hlt : mantissaAt m s u < mantissaBound) :
    ∃ d, fit? negative m s hs = some d ∧ u ≤ d.scale :=
  exists_fitFrom hu hlt

/-- A decimal fits as it is. -/
theorem fit?_self (a : Decimal) : fit? a.negative a.mantissa a.scale a.scale_le = some a := by
  have h := fitFrom_of_lt a.negative 0 a.scale_le a.mantissa_lt
  rw [show a.mantissa * tenTo 0 = a.mantissa from Nat.mul_one _] at h
  exact h

/-! ## Fitting keeps the order -/

/-- What a lesser value is fitted to has the scale of the greater one, or all digits of the
value. -/
theorem exists_fit?_of_le (h : m * tenTo s' ≤ m' * tenTo s) (hd' : Rounds m' s' d') :
    ∃ d, fit? negative m s hs = some d ∧ min d'.scale s ≤ d.scale := by
  refine exists_fit? (Nat.min_le_right _ _) ?_
  rcases Nat.le_total d'.scale s with hle | hle
  · rw [Nat.min_eq_left hle]
    calc mantissaAt m s d'.scale ≤ mantissaAt m' s' d'.scale := mantissaAt_mono h _
      _ = d'.mantissa := hd'.mantissa_eq.symm
      _ < mantissaBound := d'.mantissa_lt
  · obtain ⟨k, hk⟩ := Nat.exists_eq_add_of_le hle
    rw [Nat.min_eq_right hle]
    calc mantissaAt m s s = m := mantissaAt_self m s
      _ ≤ m * tenTo k := Nat.le_mul_of_pos_right m (tenTo_pos k)
      _ = mantissaAt m s d'.scale := by rw [hk, mantissaAt_add]
      _ ≤ mantissaAt m' s' d'.scale := mantissaAt_mono h _
      _ = d'.mantissa := hd'.mantissa_eq.symm
      _ < mantissaBound := d'.mantissa_lt

/-- A mantissa that is too large at the next scale is not much less than a tenth of the bound. -/
theorem mantissaBound_le (hd : Rounds m s d) (hlt : d.scale < s) :
    mantissaBound ≤ d.mantissa * 10 := by
  obtain ⟨k, rfl⟩ := Nat.exists_eq_add_of_le hlt
  have hlarge := hd.greatest hlt
  have hkept : d.mantissa = halfEven m (tenTo (k + 1)) := by
    rw [halfEven_tenTo m d.scale, hd.mantissa_eq, Nat.succ_add_eq_add_succ]
  rw [← halfEven_tenTo] at hlarge
  have hnear := (halfEven_near m (tenTo_pos k)).1
  have hnear' := (halfEven_near m (tenTo_pos (k + 1))).2
  rw [← hkept, show tenTo (k + 1) = 10 * tenTo k from Nat.pow_succ'] at hnear'
  -- in units of the next scale the value is at least the bound less a half
  have hvalue : (2 * mantissaBound) * tenTo k ≤ (20 * d.mantissa + 11) * tenTo k := by
    have hmul := Nat.mul_le_mul_right (tenTo k) hlarge
    have hten : d.mantissa * (10 * tenTo k) = 10 * (d.mantissa * tenTo k) :=
      Nat.mul_left_comm _ _ _
    rw [Nat.mul_assoc, Nat.add_mul, Nat.mul_assoc]
    omega
  have hle := Nat.le_of_mul_le_mul_right hvalue (tenTo_pos k)
  unfold mantissaBound at hle ⊢
  omega

/-- **Rounding keeps the order**, at whatever scales two values are rounded. -/
theorem mantissa_le_of_rounds (h : m * tenTo s' ≤ m' * tenTo s) (hd : Rounds m s d)
    (hd' : Rounds m' s' d') (hmin : min d'.scale s ≤ d.scale) :
    d.mantissa * tenTo d'.scale ≤ d'.mantissa * tenTo d.scale := by
  rcases Nat.le_total d.scale d'.scale with hle | hle
  · obtain ⟨k, hk⟩ := Nat.exists_eq_add_of_le hle
    have hkept : d.mantissa * tenTo k ≤ d'.mantissa := by
      rw [hd'.mantissa_eq]
      refine Nat.le_trans (Nat.le_of_eq ?_) (mantissaAt_mono h _)
      -- the lesser value has the same scale or is not rounded at all
      rcases Nat.eq_zero_or_pos k with rfl | hpos
      · rw [hk, Nat.add_zero, ← hd.mantissa_eq]
        exact Nat.mul_one _
      · have hscale : d.scale = s := by have := hd.scale_le; omega
        rw [hk, hscale, mantissaAt_add, hd.mantissa_eq, hscale, mantissaAt_self]
    calc d.mantissa * tenTo d'.scale = d.mantissa * tenTo k * tenTo d.scale := by
          rw [hk, tenTo_add, Nat.mul_comm (tenTo d.scale), Nat.mul_assoc]
      _ ≤ d'.mantissa * tenTo d.scale := Nat.mul_le_mul_right _ hkept
  · obtain ⟨k, hk⟩ := Nat.exists_eq_add_of_le hle
    have hkept : d.mantissa ≤ d'.mantissa * tenTo k := by
      rcases Nat.lt_or_eq_of_le hd'.scale_le with hlt | heq
      · rcases Nat.eq_zero_or_pos k with rfl | hpos
        · rw [hd.mantissa_eq, hd'.mantissa_eq, hk, Nat.add_zero]
          exact Nat.le_trans (mantissaAt_mono h _) (Nat.le_of_eq (Nat.mul_one _).symm)
        · -- the greater value has not fitted at the scale of the lesser one
          have hten : 10 ≤ tenTo k := Nat.le_self_pow hpos.ne' 10
          calc d.mantissa ≤ mantissaBound := Nat.le_of_lt d.mantissa_lt
            _ ≤ d'.mantissa * 10 := mantissaBound_le hd' hlt
            _ ≤ d'.mantissa * tenTo k := Nat.mul_le_mul_left _ hten
      · -- the greater value is not rounded
        calc d.mantissa = mantissaAt m s d.scale := hd.mantissa_eq
          _ ≤ mantissaAt m' s' d.scale := mantissaAt_mono h _
          _ = d'.mantissa * tenTo k := by
            rw [hk, heq, mantissaAt_add, hd'.mantissa_eq, heq, mantissaAt_self]
    calc d.mantissa * tenTo d'.scale ≤ d'.mantissa * tenTo k * tenTo d'.scale :=
          Nat.mul_le_mul_right _ hkept
      _ = d'.mantissa * tenTo d.scale := by
        rw [hk, tenTo_add, Nat.mul_comm (tenTo d'.scale), Nat.mul_assoc]

/-! ## Sums and products keep the order -/

/-- What a decimal is worth, its sign left out. -/
def magnitude (a : Decimal) : ℚ := a.mantissa / tenTo a.scale

theorem tenTo_ratCast_pos (k : Nat) : (0 : ℚ) < tenTo k := Nat.cast_pos.mpr (tenTo_pos k)

theorem value_eq_magnitude (h : 0 ≤ a.signed) : a.value = a.magnitude := by
  unfold value magnitude
  rw [← natCast_mantissa h, Int.cast_natCast]

theorem value_of_isZero (h : a.isZero = true) : a.value = 0 := by
  have hmantissa : a.mantissa = 0 := of_decide_eq_true h
  simp [value, signed, hmantissa]

/-- Comparing decimals is comparing what they are worth. -/
theorem sameValue_iff_value_eq : a.sameValue b = true ↔ a.value = b.value := by
  unfold value
  rw [sameValue_iff, div_eq_div_iff (tenTo_ratCast_pos _).ne' (tenTo_ratCast_pos _).ne']
  exact_mod_cast Iff.rfl

theorem div_tenTo_le : (m / tenTo s : ℚ) ≤ m' / tenTo s' ↔ m * tenTo s' ≤ m' * tenTo s := by
  rw [div_le_div_iff₀ (tenTo_ratCast_pos s) (tenTo_ratCast_pos s')]
  exact_mod_cast Iff.rfl

/-- The result is the value, fitted. -/
def Fits (value : ℚ) (result : Option Decimal) : Prop :=
  ∃ negative m s, ∃ hs : s ≤ maxScale, result = fit? negative m s hs ∧ (m / tenTo s : ℚ) = value

/-- **Fitting keeps the order**: what is not greater than a value that fits does fit as well, and to
nothing greater. -/
theorem Fits.mono {v v' : ℚ} {result : Option Decimal} (h : Fits v result)
    (h' : Fits v' (some d')) (hle : v ≤ v') :
    ∃ d, result = some d ∧ d.magnitude ≤ d'.magnitude := by
  obtain ⟨negative, m, s, hs, rfl, rfl⟩ := h
  obtain ⟨negative', m', s', hs', hfit, rfl⟩ := h'
  have hcross := div_tenTo_le.mp hle
  have hrounds' := rounds_of_fit? hfit.symm
  obtain ⟨d, hd, hmin⟩ : ∃ d, fit? negative m s hs = some d ∧ min d'.scale s ≤ d.scale :=
    exists_fit?_of_le hcross hrounds'
  exact ⟨d, hd, div_tenTo_le.mpr (mantissa_le_of_rounds hcross (rounds_of_fit? hd) hrounds' hmin)⟩

theorem fits_self (h : 0 ≤ a.signed) : Fits a.value (some a) :=
  ⟨a.negative, a.mantissa, a.scale, a.scale_le, (fit?_self a).symm, (value_eq_magnitude h).symm⟩

/-- A decimal is a whole number over the power of ten of a greater scale. -/
theorem signed_mul_div (a : Decimal) (h : a.scale ≤ s) :
    ((a.signed * tenTo (s - a.scale) : Int) : ℚ) / tenTo s = a.value := by
  have hsplit : (tenTo s : ℚ) = tenTo a.scale * tenTo (s - a.scale) := by
    rw [← Nat.cast_mul, ← tenTo_add, Nat.add_sub_cancel' h]
  rw [hsplit, Int.cast_mul, Int.cast_natCast]
  exact mul_div_mul_right _ _ (tenTo_ratCast_pos _).ne'

/-- A sum of amounts is the sum of their values, fitted. -/
theorem fits_add? (ha : 0 ≤ a.signed) (hb : 0 ≤ b.signed) :
    Fits (a.value + b.value) (a.add? b) := by
  unfold add?
  split
  next hz =>
    rw [value_of_isZero hz, zero_add]
    exact fits_self hb
  next =>
  split
  next hz =>
    rw [value_of_isZero hz, add_zero]
    exact fits_self ha
  next =>
    refine ⟨_, _, _, Nat.max_le.2 ⟨a.scale_le, b.scale_le⟩, rfl, ?_⟩
    have hsum : 0 ≤ a.signed * tenTo (max a.scale b.scale - a.scale) +
        b.signed * tenTo (max a.scale b.scale - b.scale) :=
      Int.add_nonneg (Int.mul_nonneg ha (Int.natCast_nonneg _))
        (Int.mul_nonneg hb (Int.natCast_nonneg _))
    rw [← Int.cast_natCast, Int.natAbs_of_nonneg hsum, Int.cast_add, add_div,
      signed_mul_div a (Nat.le_max_left _ _), signed_mul_div b (Nat.le_max_right _ _)]

/-- An amount taken so many times is worth so many times its value, fitted. -/
theorem fits_times? (ha : 0 ≤ a.signed) (n : Nat) : Fits (a.value * n) (a.times? n) := by
  unfold times?
  split
  next hzero =>
    have hvalue : a.value * n = zero.value := by
      rw [show zero.value = 0 from value_of_isZero rfl]
      rcases hzero with hz | rfl
      · rw [value_of_isZero hz, zero_mul]
      · rw [Nat.cast_zero, mul_zero]
    rw [hvalue]
    exact fits_self (by decide)
  next =>
    refine ⟨_, _, _, a.scale_le, rfl, ?_⟩
    rw [value_eq_magnitude ha, Nat.cast_mul]
    exact mul_div_right_comm _ _ _

end Decimal

/-! ## Amounts of money -/

namespace Money

open Decimal

variable {a a' b b' c c' : Money} {n n' : UInt32}

theorem value_nonneg (a : Money) : 0 ≤ a.amount.value := value_nonneg_iff.mpr a.nonneg

/-- **Sums keep the order**: a sum of lesser amounts can be computed if that of greater ones can,
and is not greater. -/
theorem add_mono (ha : a.amount.value ≤ a'.amount.value) (hb : b.amount.value ≤ b'.amount.value)
    (h : a'.add b' = .ok c') :
    ∃ c, a.add b = .ok c ∧ c.amount.value ≤ c'.amount.value := by
  have hfits := fits_add? a'.nonneg b'.nonneg
  rw [add_eq_ok_iff.mp h] at hfits
  obtain ⟨d, hd, hle⟩ := (fits_add? a.nonneg b.nonneg).mono hfits (add_le_add ha hb)
  have hnonneg := add?_nonneg a.nonneg b.nonneg hd
  refine ⟨⟨d, hnonneg⟩, add_eq_ok_iff.mpr hd, ?_⟩
  rw [value_eq_magnitude hnonneg, value_eq_magnitude c'.nonneg]
  exact hle

/-- **Products keep the order** as well. -/
theorem multiply_mono (ha : a.amount.value ≤ a'.amount.value) (hn : n ≤ n')
    (h : a'.multiply n' = .ok c') :
    ∃ c, a.multiply n = .ok c ∧ c.amount.value ≤ c'.amount.value := by
  have hfits := fits_times? a'.nonneg n'.toNat
  rw [multiply_eq_ok_iff.mp h] at hfits
  have hcast : (n.toNat : ℚ) ≤ n'.toNat := Nat.cast_le.mpr (UInt32.le_iff_toNat_le.mp hn)
  obtain ⟨d, hd, hle⟩ := (fits_times? a.nonneg n.toNat).mono hfits
    (mul_le_mul ha hcast (Nat.cast_nonneg _) a'.value_nonneg)
  have hnonneg := times?_nonneg a.nonneg hd
  refine ⟨⟨d, hnonneg⟩, multiply_eq_ok_iff.mpr hd, ?_⟩
  rw [value_eq_magnitude hnonneg, value_eq_magnitude c'.nonneg]
  exact hle

/-- Adding an amount makes nothing less. -/
theorem le_add (h : a.add b = .ok c) : a.amount.value ≤ c.amount.value := by
  have hfits := fits_add? a.nonneg b.nonneg
  rw [add_eq_ok_iff.mp h] at hfits
  obtain ⟨d, hd, hle⟩ := (fits_self a.nonneg).mono hfits (le_add_of_nonneg_right b.value_nonneg)
  obtain rfl := Option.some_inj.mp hd
  rw [value_eq_magnitude a.nonneg, value_eq_magnitude c.nonneg]
  exact hle

end Money

end Checkout
