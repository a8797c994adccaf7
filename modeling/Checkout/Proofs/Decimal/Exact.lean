import Checkout.Proofs.Decimal.Money
import Checkout.Order.Item
import Mathlib.Algebra.Order.Field.Rat
import Mathlib.Tactic.Linarith

/-!
# Exact totals

Sums and products of decimals are rounded only where they do not fit any more. Whole numbers of
cents do fit as long as there are less than the bound of mantissas of them: then only zeros behind
the second place are given up (`fit?_exact`). So products and sums of cents are exact, and the total
of not too many items at accepted prices is what their prices and quantities come to
(`Item.total_exact`).
-/

namespace Checkout

namespace Decimal

variable {a b : Decimal} {cents more : Nat}

/-! ## Fitting whole cents -/

/-- If what is left of whole cents does not fit, its last digit is a zero. -/
theorem exists_of_le {q s : Nat} (h : q * tenTo 2 = cents * tenTo s) (hlt : cents < q) :
    ∃ j, s = j + 3 ∧ q = cents * tenTo j * tenTo 1 := by
  by_cases hs : s ≤ 2
  · have hle : cents * tenTo s ≤ cents * tenTo 2 :=
      Nat.mul_le_mul_left _ (Nat.pow_le_pow_right (by decide) hs)
    rw [← h] at hle
    have := Nat.le_of_mul_le_mul_right hle (tenTo_pos 2)
    omega
  · obtain ⟨j, rfl⟩ : ∃ j, s = j + 3 := ⟨s - 3, by omega⟩
    refine ⟨j, rfl, ?_⟩
    rw [show j + 3 = j + 1 + 2 from rfl, tenTo_add, tenTo_add, ← Nat.mul_assoc] at h
    rw [Nat.eq_of_mul_eq_mul_right (tenTo_pos 2) h, Nat.mul_assoc]

/-- Where the kept digits of a number fit, they are all of it. -/
theorem fitFrom_of_lt (negative : Bool) {q s : Nat} (k : Nat) (hs : s ≤ maxScale)
    (hq : q < mantissaBound) :
    fitFrom negative (q * tenTo k) k s hs = some ⟨negative, q, s, hq, hs⟩ := by
  rw [fitFrom.eq_def]
  simp [Rounding.halfEven_mul q (tenTo_pos k), hq]

/-- Where they do not, one more digit is given up. -/
theorem fitFrom_succ (negative : Bool) {q s : Nat} (k : Nat) (hs : s + 1 ≤ maxScale)
    (hq : ¬ q < mantissaBound) :
    fitFrom negative (q * tenTo k) k (s + 1) hs =
      fitFrom negative (q * tenTo k) (k + 1) s (Nat.le_of_succ_le hs) := by
  rw [fitFrom.eq_def]
  simp [Rounding.halfEven_mul q (tenTo_pos k), hq]

theorem fitFrom_exact (negative : Bool) {q s : Nat} (k : Nat) (hs : s ≤ maxScale)
    (h : q * tenTo 2 = cents * tenTo s) (hlt : cents < mantissaBound) :
    ∃ d, fitFrom negative (q * tenTo k) k s hs = some d ∧ d.negative = negative ∧
      d.mantissa * tenTo 2 = cents * tenTo d.scale := by
  induction s using Nat.strong_induction_on generalizing q k with
  | _ s ih =>
      by_cases hq : q < mantissaBound
      · exact ⟨_, fitFrom_of_lt negative k hs hq, rfl, h⟩
      · obtain ⟨j, rfl, heq⟩ := exists_of_le h (by omega)
        have hnext : cents * tenTo j * tenTo 2 = cents * tenTo (j + 2) := by
          rw [tenTo_add, Nat.mul_assoc]
        obtain ⟨d, hd, hexact⟩ := ih (j + 2) (by omega) (k + 1) (by omega) hnext
        refine ⟨d, ?_, hexact⟩
        rw [fitFrom_succ negative k hs hq, ← hd, heq, Nat.add_comm k 1, tenTo_add, Nat.mul_assoc,
          Nat.mul_assoc, Nat.mul_assoc]

/-- **Whole cents are fitted without loss**, if there are not too many of them. -/
theorem fit?_exact (negative : Bool) {m s : Nat} (hs : s ≤ maxScale)
    (h : m * tenTo 2 = cents * tenTo s) (hlt : cents < mantissaBound) :
    ∃ d, fit? negative m s hs = some d ∧ d.negative = negative ∧
      d.mantissa * tenTo 2 = cents * tenTo d.scale := by
  have hfit := fitFrom_exact negative 0 hs h hlt
  rw [show m * tenTo 0 = m from Nat.mul_one m] at hfit
  exact hfit

/-! ## Products and sums of cents -/

theorem hundredths_of_mantissa (hnegative : a.negative = false)
    (h : a.mantissa * tenTo 2 = cents * tenTo a.scale) : a.Hundredths cents := by
  unfold Hundredths signed
  rw [hnegative, if_neg Bool.false_ne_true]
  exact_mod_cast h

theorem Hundredths.mantissa_eq (h : a.Hundredths cents) :
    a.mantissa * tenTo 2 = cents * tenTo a.scale := by
  have hint := h
  unfold Hundredths at hint
  rw [← natCast_mantissa h.nonneg] at hint
  exact_mod_cast hint

theorem Hundredths.eq_zero (h : a.Hundredths cents) (hz : a.isZero = true) : cents = 0 := by
  have hmantissa := h.mantissa_eq
  rw [show a.mantissa = 0 from of_decide_eq_true hz, Nat.zero_mul] at hmantissa
  exact (Nat.mul_eq_zero.mp hmantissa.symm).resolve_right (tenTo_pos _).ne'

theorem zero_hundredths : zero.Hundredths 0 := rfl

/-- **Products of cents are exact.** -/
theorem times?_exact (h : a.Hundredths cents) {n : Nat} (hlt : cents * n < mantissaBound) :
    ∃ d, a.times? n = some d ∧ d.Hundredths (cents * n) := by
  unfold times?
  split
  next hzero =>
    have hprod : cents * n = 0 := by
      rcases hzero with hz | rfl
      · rw [h.eq_zero hz, Nat.zero_mul]
      · rfl
    rw [hprod]
    exact ⟨zero, rfl, zero_hundredths⟩
  next hzero =>
    have hnegative : a.negative = false :=
      negative_of_signed_nonneg h.nonneg (by simpa using (not_or.mp hzero).1)
    have hmul : a.mantissa * n * tenTo 2 = cents * n * tenTo a.scale := by
      rw [Nat.mul_right_comm, h.mantissa_eq, Nat.mul_right_comm]
    obtain ⟨d, hd, hsign, hexact⟩ := fit?_exact a.negative a.scale_le hmul hlt
    exact ⟨d, hd, hundredths_of_mantissa (hsign.trans hnegative) hexact⟩

/-- Cents at a greater scale. -/
theorem Hundredths.scaled (h : a.Hundredths cents) {s : Nat} (hs : a.scale ≤ s) :
    a.signed * tenTo (s - a.scale) * tenTo 2 = cents * tenTo s := by
  have hsplit : tenTo s = tenTo a.scale * tenTo (s - a.scale) := by
    rw [← tenTo_add, Nat.add_sub_cancel' hs]
  rw [mul_right_comm, h, hsplit, Nat.cast_mul, mul_assoc]

/-- **Sums of cents are exact.** -/
theorem add?_exact (ha : a.Hundredths cents) (hb : b.Hundredths more)
    (hlt : cents + more < mantissaBound) :
    ∃ d, a.add? b = some d ∧ d.Hundredths (cents + more) := by
  unfold add?
  split
  next hz =>
    rw [ha.eq_zero hz, Nat.zero_add]
    exact ⟨b, rfl, hb⟩
  next =>
  split
  next hz =>
    rw [hb.eq_zero hz]
    exact ⟨a, rfl, ha⟩
  next =>
    have hsum : (a.signed * tenTo (max a.scale b.scale - a.scale) +
        b.signed * tenTo (max a.scale b.scale - b.scale)) * tenTo 2 =
        ((cents + more : Nat) : Int) * tenTo (max a.scale b.scale) := by
      rw [add_mul, ha.scaled (le_max_left _ _), hb.scaled (le_max_right _ _), ← add_mul,
        Nat.cast_add]
    dsimp only
    generalize a.signed * _ + b.signed * _ = n at hsum
    have hn : 0 ≤ n := by
      refine Int.nonneg_of_mul_nonneg_left (hsum ▸ ?_) (tenTo_cast_pos 2)
      exact Int.mul_nonneg (Int.natCast_nonneg _) (Int.natCast_nonneg _)
    have habs : n.natAbs * tenTo 2 = (cents + more) * tenTo (max a.scale b.scale) := by
      rw [← Int.natAbs_of_nonneg hn] at hsum
      exact_mod_cast hsum
    obtain ⟨d, hd, hsign, hexact⟩ := fit?_exact (n < 0) _ habs hlt
    refine ⟨d, hd, hundredths_of_mantissa (hsign.trans ?_) hexact⟩
    simpa using hn

/-! ## Values -/

/-- What a decimal is worth. -/
def value (a : Decimal) : ℚ := a.signed / tenTo a.scale

theorem value_nonneg_iff : 0 ≤ a.value ↔ 0 ≤ a.signed := by
  have hpos : (0 : ℚ) < tenTo a.scale := Nat.cast_pos.mpr (tenTo_pos a.scale)
  unfold value
  rw [le_div_iff₀ hpos, zero_mul]
  exact Int.cast_nonneg_iff

theorem Hundredths.value_eq (h : a.Hundredths cents) : a.value = cents / 100 := by
  have hpos : ((tenTo a.scale : Nat) : ℚ) ≠ 0 := by exact_mod_cast (tenTo_pos a.scale).ne'
  have hrat : (a.signed : ℚ) * 100 = cents * tenTo a.scale := by
    have hint : a.signed * 100 = cents * tenTo a.scale := h
    exact_mod_cast hint
  unfold value
  rw [div_eq_div_iff hpos (by norm_num), hrat]

end Decimal

/-! ## Totals of items -/

namespace Money

open Decimal

variable {a b c : Money} {cents more : Nat} {quantity : UInt32}

theorem multiply_eq_ok_iff :
    a.multiply quantity = .ok c ↔ a.amount.times? quantity.toNat = some c.amount := by
  unfold multiply
  split
  next d hd =>
    constructor
    · intro h
      cases h
      exact hd
    · intro h
      obtain rfl : d = c.amount := Option.some_inj.mp (hd.symm.trans h)
      rfl
  next hnone =>
    rw [hnone]
    constructor <;> intro h <;> cases h

theorem add_eq_ok_iff : a.add b = .ok c ↔ a.amount.add? b.amount = some c.amount := by
  unfold add
  split
  next d hd =>
    constructor
    · intro h
      cases h
      exact hd
    · intro h
      obtain rfl : d = c.amount := Option.some_inj.mp (hd.symm.trans h)
      rfl
  next hnone =>
    rw [hnone]
    constructor <;> intro h <;> cases h

theorem multiply_exact (h : a.amount.Hundredths cents) (quantity : UInt32)
    (hlt : cents * quantity.toNat < mantissaBound) :
    ∃ m, a.multiply quantity = .ok m ∧ m.amount.Hundredths (cents * quantity.toNat) := by
  obtain ⟨d, hd, hexact⟩ := times?_exact h hlt
  exact ⟨⟨d, times?_nonneg a.nonneg hd⟩, multiply_eq_ok_iff.mpr hd, hexact⟩

theorem add_exact (ha : a.amount.Hundredths cents) (hb : b.amount.Hundredths more)
    (hlt : cents + more < mantissaBound) :
    ∃ m, a.add b = .ok m ∧ m.amount.Hundredths (cents + more) := by
  obtain ⟨d, hd, hexact⟩ := add?_exact ha hb hlt
  exact ⟨⟨d, add?_nonneg a.nonneg b.nonneg hd⟩, add_eq_ok_iff.mpr hd, hexact⟩

end Money

namespace Item

open Decimal

variable {i : Item} {items : List Item}

/-- The item has a price that can be new. -/
def IsPriced (i : Item) : Prop := ∃ cents, i.price.amount.Hundredths cents ∧ cents < tenTo 12

/-- Accepted prices are cents. -/
theorem isPriced_of_new {amount : Decimal} (h : Money.new amount = .ok i.price) : i.IsPriced := by
  obtain ⟨cents, hcents, hlt⟩ := Money.exists_new_iff.mp ⟨_, h⟩
  rw [← Money.amount_of_new h] at hcents
  exact ⟨cents, hcents, hlt⟩

/-- What the prices and quantities of the items come to. -/
def worth (items : List Item) : ℚ :=
  (items.map fun i => i.price.amount.value * (i.quantity.toNat : ℚ)).sum

theorem worth_cons (i : Item) (items : List Item) :
    worth (i :: items) = i.price.amount.value * (i.quantity.toNat : ℚ) + worth items :=
  List.sum_cons

/-- No subtotal comes to more cents than this. -/
def subtotalBound : Nat := tenTo 12 * UInt32.size

/-- The subtotal of an item is a whole number of cents. -/
theorem IsPriced.exists_cents (h : i.IsPriced) :
    ∃ cents : Nat, 100 * (i.price.amount.value * (i.quantity.toNat : ℚ)) = cents ∧
      cents ≤ subtotalBound ∧
      ∃ m, i.subtotal = .ok m ∧ m.amount.Hundredths cents := by
  obtain ⟨price, hprice, hbound⟩ := h
  have hle : price * i.quantity.toNat ≤ subtotalBound :=
    Nat.mul_le_mul (Nat.le_of_lt hbound) (Nat.le_of_lt i.quantity.toNat_lt_size)
  refine ⟨price * i.quantity.toNat, ?_, hle, ?_⟩
  · rw [hprice.value_eq]
    push_cast
    ring
  · exact Money.multiply_exact hprice i.quantity (Nat.lt_of_le_of_lt hle (by decide))

/-- **Subtotals are exact.** -/
theorem IsPriced.subtotal_exact (h : i.IsPriced) :
    ∃ m, i.subtotal = .ok m ∧
      m.amount.value = i.price.amount.value * (i.quantity.toNat : ℚ) := by
  obtain ⟨cents, hcents, -, m, hm, hexact⟩ := h.exists_cents
  exact ⟨m, hm, by rw [hexact.value_eq, ← hcents, mul_div_cancel_left₀ _ (by norm_num)]⟩

/-- What so many items come to. -/
theorem worth_bounds (hpriced : ∀ i ∈ items, i.IsPriced) :
    0 ≤ worth items ∧ 100 * worth items ≤ ((items.length * subtotalBound : Nat) : ℚ) := by
  induction items with
  | nil => simp [worth]
  | cons i items ih =>
      obtain ⟨hnonneg, hle⟩ := ih fun j hj => hpriced j (List.mem_cons_of_mem i hj)
      obtain ⟨cents, hcents, hbound, -⟩ := (hpriced i List.mem_cons_self).exists_cents
      have hfirst : (cents : ℚ) ≤ subtotalBound := Nat.cast_le.mpr hbound
      have hpos : (0 : ℚ) ≤ cents := Nat.cast_nonneg cents
      rw [worth_cons, List.length_cons, Nat.succ_mul, Nat.cast_add]
      constructor <;> linarith

/-- The induction behind `total_exact_of_lt`: from any sum of cents that leaves room for the
items. -/
theorem foldlM_exact (hpriced : ∀ i ∈ items, i.IsPriced) (sum : Money) {cents : Nat}
    (hsum : sum.amount.Hundredths cents)
    (hlt : cents + 100 * worth items < mantissaBound) :
    ∃ m, items.foldlM (fun sum i => i.subtotal.bind sum.add) sum = .ok m ∧
      m.amount.value = sum.amount.value + worth items := by
  induction items generalizing sum cents with
  | nil => exact ⟨sum, rfl, by simp [worth]⟩
  | cons i items ih =>
      have hrest : ∀ j ∈ items, j.IsPriced := fun j hj => hpriced j (List.mem_cons_of_mem i hj)
      obtain ⟨more, hmore, -, part, hpart, hexact⟩ := (hpriced i List.mem_cons_self).exists_cents
      rw [worth_cons, mul_add, hmore, ← add_assoc, ← Nat.cast_add] at hlt
      have hroom : cents + more < mantissaBound := by
        have hnonneg := (worth_bounds hrest).1
        exact_mod_cast (show ((cents + more : Nat) : ℚ) < mantissaBound by linarith)
      obtain ⟨next, hnext, hnextExact⟩ := Money.add_exact hsum hexact hroom
      obtain ⟨m, hm, htotal⟩ := ih hrest next hnextExact hlt
      refine ⟨m, ?_, ?_⟩
      · rw [List.foldlM_cons, hpart]
        show (sum.add part).bind _ = _
        rw [hnext]
        exact hm
      · rw [htotal, hnextExact.value_eq, hsum.value_eq, worth_cons]
        push_cast
        linarith

/-- **Totals are exact**, if the items do not come to too many cents. -/
theorem total_exact_of_lt (hpriced : ∀ i ∈ items, i.IsPriced)
    (hlt : 100 * worth items < mantissaBound) :
    ∃ m, total items = .ok m ∧ m.amount.value = worth items := by
  have hzero : Money.zero.amount.value = 0 := by simp [Money.zero, zero_hundredths.value_eq]
  obtain ⟨m, hm, hvalue⟩ :=
    foldlM_exact hpriced Money.zero zero_hundredths (by rwa [Nat.cast_zero, zero_add])
  exact ⟨m, hm, by rw [hvalue, hzero, zero_add]⟩

/-- Not too many items do not come to too many cents. -/
theorem worth_lt (hpriced : ∀ i ∈ items, i.IsPriced)
    (hlength : items.length * subtotalBound < mantissaBound) :
    100 * worth items < mantissaBound :=
  (worth_bounds hpriced).2.trans_lt (Nat.cast_lt.mpr hlength)

/-- **Totals are exact**, if there are not too many items. -/
theorem total_exact (hpriced : ∀ i ∈ items, i.IsPriced)
    (hlength : items.length * subtotalBound < mantissaBound) :
    ∃ m, total items = .ok m ∧ m.amount.value = worth items :=
  total_exact_of_lt hpriced (worth_lt hpriced hlength)

end Item

end Checkout
