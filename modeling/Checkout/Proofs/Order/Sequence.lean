import Checkout.Order.Basic
import Checkout.Proofs.Decimal.Order
import Mathlib.Algebra.BigOperators.Group.List.Basic

/-!
# Totals in any sequence

Items are added up one after the other, and what is added may have more digits than fit. At accepted
prices only zeros are dropped, so that a total does not depend on the sequence of the items
(`Order.total_of_perm`).
-/

namespace Checkout

/-- Items come to the same in any sequence. -/
theorem Item.worth_perm {items items' : List Item} (h : items.Perm items') :
    worth items = worth items' :=
  (h.map _).sum_eq

/-- 18 million items at accepted prices do not come to too many cents. -/
theorem Item.worth_lt_of_length_le {items : List Item} (hpriced : ∀ i ∈ items, i.IsPriced)
    (hlength : items.length ≤ 18000000) : 100 * worth items < Decimal.mantissaBound :=
  worth_lt hpriced (Nat.lt_of_le_of_lt (Nat.mul_le_mul_right _ hlength) (by decide))

theorem Decimal.mantissaBound_eq : (mantissaBound : ℚ) = 2 ^ 96 := by
  unfold mantissaBound
  norm_num

namespace Order

/-- **Subtotals and totals are exact.** At accepted prices every subtotal of an order can be computed
and is the price times the quantity. If the order comes to less than two to the power of 96 cents,
as one of 18 million items does, its total can be computed as well, is just that, and is the same in
any sequence of the items. -/
theorem total_of_perm (o : Order) (hprices : ∀ i ∈ o.items, ∃ a, Money.new a = .ok i.price) :
    (∀ i ∈ o.items, ∃ m, i.subtotal = .ok m ∧
        m.amount.value = i.price.amount.value * (i.quantity.toNat : ℚ)) ∧
      (o.items.length ≤ 18000000 → 100 * Item.worth o.items < 2 ^ 96) ∧
      (100 * Item.worth o.items < 2 ^ 96 →
        ∃ m, o.total = .ok m ∧ m.amount.value = Item.worth o.items ∧
          ∀ o' : Order, o'.items.Perm o.items → ∃ m', o'.total = .ok m' ∧ m'.sameValue m) := by
  have hpriced : ∀ i ∈ o.items, i.IsPriced := by
    intro i hi
    obtain ⟨a, hprice⟩ := hprices i hi
    exact Item.isPriced_of_new hprice
  rw [← Decimal.mantissaBound_eq]
  refine ⟨fun i hi => (hpriced i hi).subtotal_exact, Item.worth_lt_of_length_le hpriced, ?_⟩
  intro hlt
  obtain ⟨m, hm, hvalue⟩ := Item.total_exact_of_lt hpriced hlt
  refine ⟨m, hm, hvalue, fun o' hperm => ?_⟩
  have hpriced' : ∀ i ∈ o'.items, i.IsPriced := fun i hi => hpriced i (hperm.subset hi)
  rw [← Item.worth_perm hperm] at hlt hvalue
  obtain ⟨m', hm', hvalue'⟩ := Item.total_exact_of_lt hpriced' hlt
  exact ⟨m', hm', Decimal.sameValue_iff_value_eq.mpr (hvalue'.trans hvalue.symm)⟩

end Order

/-! Three pieces at 5, written with as many zeros as there is room for, and four at 1.50. Neither the
first subtotal nor the sum can keep all the zeros. -/

namespace Sample

/-- Five, with 28 zeros behind the point. -/
def five : Decimal := ⟨false, 5 * tenTo 28, 28, by decide, by decide⟩

def priced : Order where
  toHeader := ⟨default, default, .epoch, .epoch⟩
  items :=
    [ ⟨default, default, default, ⟨five, by decide⟩, 3, by decide⟩,
      ⟨default, default, default, ⟨⟨false, 150, 2, by decide, by decide⟩, by decide⟩, 4, by decide⟩ ]

end Sample

namespace Order

theorem total_of_perm_sample :
    (∀ i ∈ Sample.priced.items, ∃ a, Money.new a = .ok i.price) ∧
      ∃ m, Sample.priced.total = .ok m ∧ m.amount.value = 21 ∧
        ∃ m', Order.total ⟨Sample.priced.toHeader, Sample.priced.items.reverse⟩ = .ok m' ∧
          m'.sameValue m := by
  have hprices : ∀ i ∈ Sample.priced.items, ∃ a, Money.new a = .ok i.price := by
    intro i hi
    refine ⟨i.price.amount, ?_⟩
    revert i
    decide
  obtain ⟨-, hfew, hexact⟩ := total_of_perm Sample.priced hprices
  obtain ⟨m, hm, hvalue, hperm⟩ := hexact (hfew (by decide))
  refine ⟨hprices, m, hm, ?_, hperm _ (List.reverse_perm _)⟩
  have hpieces : (3 : UInt32).toNat = 3 ∧ (4 : UInt32).toNat = 4 := by decide
  rw [hvalue]
  norm_num [Item.worth, Sample.priced, Sample.five, Decimal.value, Decimal.signed, tenTo, hpieces]

end Order

end Checkout
