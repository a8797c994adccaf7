import Checkout.Order.Request
import Checkout.Proofs.Decimal.Order
import Mathlib.Data.List.Forall2

/-!
# Totals of parts

Items that are left out, or are to be had for less, make a total no greater. Subtotals are added up
in sequence and each sum may be rounded, but rounding keeps the order: so with the total of some
items all such totals can be computed as well (`Item.total_of_noDearer`). A request that has been
accepted has a total, and with it has every order that is made from some of its items
(`Request.total_of_part`).
-/

namespace Checkout

namespace Item

open List (SublistForall₂)

variable {i j : Item} {items part : List Item} {sum sum' whole : Money}

/-- There are no more pieces of the one than of the other, at no greater price for each. -/
structure NoDearer (i j : Item) : Prop where
  price_le : i.price.amount.value ≤ j.price.amount.value
  quantity_le : i.quantity ≤ j.quantity

theorem NoDearer.refl (i : Item) : NoDearer i i := ⟨le_refl _, UInt32.le_refl _⟩

/-- Items that agree cost the same. -/
theorem noDearer_of_same (h : i.same j = true) : NoDearer i j := by
  unfold same at h
  simp only [Bool.and_eq_true, decide_eq_true_iff] at h
  obtain ⟨⟨-, hprice⟩, hquantity⟩ := h
  exact ⟨le_of_eq (Decimal.sameValue_iff_value_eq.mp hprice), hquantity ▸ UInt32.le_refl _⟩

/-- A subtotal makes a sum no less. -/
theorem le_add_subtotal (h : i.subtotal.bind sum.add = .ok sum') :
    sum.amount.value ≤ sum'.amount.value := by
  cases hsubtotal : i.subtotal with
  | error fault =>
      rw [hsubtotal] at h
      cases h
  | ok subtotal =>
      rw [hsubtotal] at h
      exact Money.le_add h

/-- Adding the subtotal of a cheaper item to a lesser sum. -/
theorem add_subtotal_mono (hij : NoDearer i j) (hle : sum.amount.value ≤ sum'.amount.value)
    (h : j.subtotal.bind sum'.add = .ok whole) :
    ∃ next, i.subtotal.bind sum.add = .ok next ∧ next.amount.value ≤ whole.amount.value := by
  cases hj : j.subtotal with
  | error fault =>
      rw [hj] at h
      cases h
  | ok subtotal =>
      rw [hj] at h
      obtain ⟨cheaper, hi, hcheaper⟩ := Money.multiply_mono hij.price_le hij.quantity_le hj
      rw [show i.subtotal = .ok cheaper from hi]
      exact Money.add_mono hle hcheaper h

theorem exists_of_foldlM_cons
    (h : (i :: items).foldlM (fun sum i => i.subtotal.bind sum.add) sum = .ok whole) :
    ∃ next, i.subtotal.bind sum.add = .ok next ∧
      items.foldlM (fun sum i => i.subtotal.bind sum.add) next = .ok whole := by
  rw [List.foldlM_cons] at h
  cases hnext : i.subtotal.bind sum.add with
  | error fault =>
      rw [hnext] at h
      cases h
  | ok next =>
      rw [hnext] at h
      exact ⟨next, rfl, h⟩

theorem le_foldlM (h : items.foldlM (fun sum i => i.subtotal.bind sum.add) sum = .ok whole) :
    sum.amount.value ≤ whole.amount.value := by
  induction items generalizing sum with
  | nil =>
      cases h
      exact le_refl _
  | cons i items ih =>
      obtain ⟨next, hnext, hrest⟩ := exists_of_foldlM_cons h
      exact (le_add_subtotal hnext).trans (ih hrest)

/-- The induction behind `total_of_noDearer`: from any two sums, of which the one for the part is
not the greater. -/
theorem foldlM_mono (hpart : SublistForall₂ NoDearer part items)
    (hle : sum.amount.value ≤ sum'.amount.value)
    (h : items.foldlM (fun sum i => i.subtotal.bind sum.add) sum' = .ok whole) :
    ∃ total, part.foldlM (fun sum i => i.subtotal.bind sum.add) sum = .ok total ∧
      total.amount.value ≤ whole.amount.value := by
  induction hpart generalizing sum sum' with
  | nil => exact ⟨sum, rfl, hle.trans (le_foldlM h)⟩
  | @cons i j part items hij _ ih =>
      obtain ⟨next', hnext', hrest⟩ := exists_of_foldlM_cons h
      obtain ⟨next, hnext, hless⟩ := add_subtotal_mono hij hle hnext'
      rw [List.foldlM_cons, hnext]
      exact ih hless hrest
  | @cons_right j part items _ ih =>
      -- an item that is left out only makes the sum of the whole greater
      obtain ⟨next', hnext', hrest⟩ := exists_of_foldlM_cons h
      exact ih (hle.trans (le_add_subtotal hnext')) hrest

/-- **The total of a part** can be computed if that of the whole can, and is not greater. -/
theorem total_of_noDearer (hpart : SublistForall₂ NoDearer part items)
    (h : total items = .ok whole) :
    ∃ m, total part = .ok m ∧ m.amount.value ≤ whole.amount.value :=
  foldlM_mono hpart (le_refl _) h

end Item

/-- Orders are the same if their headers are, and their items, one by one. -/
theorem Order.same_iff {a b : Order} : a.same b = true ↔
    a.toHeader = b.toHeader ∧ List.Forall₂ (fun i j => i.same j = true) a.items b.items := by
  unfold same
  rw [Bool.and_eq_true, Bool.and_eq_true, decide_eq_true_iff, decide_eq_true_iff, and_assoc,
    List.forall₂_iff_zip, List.all_eq_true]
  simp only [Prod.forall]

theorem Order.id_eq_of_same {a b : Order} (h : a.same b = true) : a.id = b.id :=
  congrArg Header.id (same_iff.mp h).1

namespace Request

variable {items : List Item}

theorem exists_total (r : Request) : ∃ whole, Item.total r.items = .ok whole := by
  have hok := r.total_isOk
  cases h : Item.total r.items with
  | error fault =>
      rw [h] at hok
      cases hok
  | ok whole => exact ⟨whole, rfl⟩

/-- **An order made from some of the items of a request** has a total, at most that of the request.
So has an order that agrees with it, prices compared by value. -/
theorem total_of_part (r : Request) (hsub : items.Sublist r.items) {o : Order}
    (ho : o.same (r.toOrder items) = true) {whole : Money} (h : Item.total r.items = .ok whole) :
    ∃ m, o.total = .ok m ∧ m.amount.value ≤ whole.amount.value := by
  refine Item.total_of_noDearer ?_ h
  have hsame := (Order.same_iff.mp ho).2.imp fun _ _ => Item.noDearer_of_same
  exact List.sublistForall₂_iff.mpr ⟨items, hsame, hsub⟩

end Request

end Checkout
