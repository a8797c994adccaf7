import Checkout.Http.Envelope
import Checkout.Proofs.Batch.Outcome
import Checkout.Proofs.Order.Total

/-!
# Receipts

An order is shown as it is (`OrderView.Shows`), and with its total, so it can be shown only if its
total can be computed. Requests are accepted only if theirs can, and an order is made from some of the
items of its request. Therefore whoever is answered with an order can be shown it
(`parts_have_totals`).
-/

namespace Checkout

open Batch

variable {o : Order} {total : Money}

/-- The item is shown as it is, with its identifiers in their text. -/
structure ItemView.Shows (view : ItemView) (i : Item) : Prop where
  id : view.id = toString i.id
  order : view.order = toString i.order
  product : view.product = toString i.product
  price : view.price = i.price.amount
  quantity : view.quantity = i.quantity.toNat

/-- The order is shown as it is, and all its items in their own sequence. -/
structure OrderView.Shows (view : OrderView) (o : Order) : Prop where
  id : view.id = toString o.id
  user : view.user = toString o.user
  items : List.Forall₂ ItemView.Shows view.items o.items
  createdAt : view.createdAt = o.createdAt
  updatedAt : view.updatedAt = o.updatedAt

theorem ItemView.shows_ofItem (i : Item) : (ofItem i).Shows i := ⟨rfl, rfl, rfl, rfl, rfl⟩

/-- **An order with a total can be shown**, as it is and with its total. -/
theorem OrderView.ofOrder_of_total (h : o.total = .ok total) :
    ∃ view, ofOrder o = .ok view ∧ view.Shows o ∧ view.total = total.amount := by
  have hitems : List.Forall₂ ItemView.Shows (o.items.map ItemView.ofItem) o.items :=
    List.forall₂_map_left_iff.mpr (List.forall₂_same.mpr fun i _ => ItemView.shows_ofItem i)
  unfold ofOrder
  rw [h]
  exact ⟨_, rfl, ⟨rfl, rfl, hitems, rfl, rfl⟩, rfl⟩

theorem Order.same_refl (o : Order) : o.same o = true := by
  apply same_iff.mpr
  simp [List.forall₂_same, Item.same, Money.sameValue, Decimal.sameValue_iff]

namespace Request

/-- **Any order that is made from a request can be shown.** The total of some of the items can be
computed, and is at most that of the request. So an order that a batch answers the request with can
be shown, also if it has been read from somewhere that gives prices back with other digits. -/
theorem parts_have_totals (r : Request) :
    ∃ whole, Item.total r.items = .ok whole ∧
      (∀ items : List Item, items.Sublist r.items →
        ∃ part, (r.toOrder items).total = .ok part ∧ part.amount.value ≤ whole.amount.value) ∧
      ∀ {ρ : Type} {m : Memory} (batch : List (Pending ρ)) (p : Pending ρ) (o o' : Order),
        m.Reachable → (p, .ok o) ∈ answers batch m → p.request = r → o'.same o = true →
        ∃ view, OrderView.ofOrder o' = .ok view ∧ view.total.value ≤ whole.amount.value := by
  obtain ⟨whole, hwhole⟩ := r.exists_total
  refine ⟨whole, hwhole, fun items hsub => ?_, ?_⟩
  · exact r.total_of_part hsub (Order.same_refl _) hwhole
  · rintro ρ m batch p o o' hm hmem rfl hsame
    obtain ⟨-, -, hheader, -, hsub⟩ := order_of_answer hm.sound hmem
    have hmade : o = p.request.toOrder o.items := by
      rw [toOrder, ← hheader]
    rw [hmade] at hsame
    obtain ⟨part, hpart, hle⟩ := p.request.total_of_part hsub hsame hwhole
    obtain ⟨view, hview, -, htotal⟩ := OrderView.ofOrder_of_total hpart
    exact ⟨view, hview, htotal ▸ hle⟩

end Request

/-! ## A sample

Two pieces of product 1 and one of product 2, each at the greatest price that can be written with 28
digits behind the point. Neither the subtotal of the first item nor the sum can keep them all. -/

namespace Sample

def price : Money :=
  ⟨⟨false, Decimal.mantissaBound - 1, Decimal.maxScale, by decide, by decide⟩, by decide⟩

def precise : Request where
  header := first.header
  items := first.items.map fun i => { i with price }
  trace := .zero
  items_ne_nil := by decide
  order_eq := by decide
  ids_nodup := by decide
  total_isOk := by decide

end Sample

namespace Request

theorem parts_have_totals_sample :
    ∃ whole, Item.total Sample.precise.items = .ok whole ∧
      (∃ part, (Sample.precise.toOrder (Sample.precise.items.drop 1)).total = .ok part ∧
        part.amount.value ≤ whole.amount.value) ∧
      ∃ view, OrderView.ofOrder (Sample.precise.toOrder (Sample.precise.items.take 1)) = .ok view ∧
        view.total.value ≤ whole.amount.value := by
  obtain ⟨whole, hwhole, hpart, hview⟩ := parts_have_totals Sample.precise
  refine ⟨whole, hwhole, hpart _ (List.drop_sublist _ _), ?_⟩
  have hanswers : answers [⟨Sample.precise, 0⟩] Sample.store =
      [((⟨Sample.precise, 0⟩ : Pending Nat),
        .ok (Sample.precise.toOrder (Sample.precise.items.take 1)))] := rfl
  refine hview [⟨Sample.precise, 0⟩] ⟨Sample.precise, 0⟩ _ _ Sample.store_reachable ?_ rfl
    (Order.same_refl _)
  rw [hanswers]
  exact List.mem_singleton_self _

end Request

end Checkout
