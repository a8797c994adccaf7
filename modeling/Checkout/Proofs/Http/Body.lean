import Checkout.Http.Body
import Checkout.Proofs.Json.Size
import Checkout.Proofs.Order.Request
import Mathlib.Data.List.Forall2

/-!
# What a request takes from its body

A body has no more items than its text has symbols, but for one (`Body.length_items_le`). A body
that is accepted gives the request its header, and one item for each of its own
(`Body.forall₂_of_toItems`).
-/

namespace Checkout

/-- The item of an order is what a body asks for; it gets a fresh identifier if the body has none. -/
structure ItemBody.Gives (b : ItemBody) (order : OrderId) (fresh : ItemId) (i : Item) : Prop where
  id : i.id = (b.id.map (⟨·⟩)).getD fresh
  order : i.order = order
  product : i.product = ⟨b.product⟩
  price : Money.new b.price = .ok i.price
  quantity : i.quantity = b.quantity

/-- A field that is read gets the value that its draft is read as. -/
theorem Json.RecordField.put_of_read {ρ α : Type} {name : String}
    {read : Json.Draft → Except Json.ReadFault α} {get : ρ → Option α} {put : ρ → α → ρ} {r r' : ρ}
    {d : Json.Draft} (h : (RecordField.of name read get put).read r d = .ok r') :
    ∃ value, read d = .ok value ∧ r' = put r value := by
  unfold RecordField.of at h
  dsimp only at h
  cases hread : read d with
  | error fault =>
      rw [hread] at h
      cases h
  | ok value =>
      rw [hread] at h
      cases h
      exact ⟨value, rfl, rfl⟩

namespace Body

open Json (Symbol Draft RecordField)

/-! ## How many items there are -/

/-- Reading a field adds no more items than its draft is large. -/
theorem fields_keep_length (bound : Nat) :
    Draft.FieldsKeep fields bound fun p => (p.items.getD []).length ≤ bound := by
  intro f hf r r' d hr hsize hread
  simp only [fields, List.mem_cons, List.not_mem_nil, or_false] at hf
  rcases hf with rfl | rfl | rfl | rfl | rfl <;>
    obtain ⟨value, hvalue, rfl⟩ := RecordField.put_of_read hread
  case inr.inr.inl => exact Nat.le_trans (Draft.length_of_asList hvalue) hsize
  all_goals exact hr

/-- **A body has no more items than its text has symbols**, but for one. -/
theorem length_items_le {text : List Symbol} {b : Body} (h : ofText text = .ok b) :
    b.items.length ≤ text.length + 1 := by
  obtain ⟨p, hlength, hparts⟩ :=
    Draft.of_asRecord (fields_keep_length _) (Nat.zero_le _) (Draft.size_read_le text) h
  cases hparts
  exact hlength

/-! ## What the items are -/

theorem gives_of_toItem {order : OrderId} {id : ItemId} {b : ItemBody} {i : Item}
    (h : toItem order id b = .ok i) : b.Gives order id i := by
  unfold toItem at h
  split at h
  · cases h
  next price hprice =>
    obtain ⟨hid, horder, hproduct, rfl, hquantity⟩ := Item.eq_of_new h
    exact ⟨hid, horder, hproduct, hprice, hquantity⟩

/-- **Every item is given by one of a body**, in the same sequence. -/
theorem forall₂_of_toItems {order : OrderId} {fresh : Nat → ItemId} {index : Nat}
    {bodies : List ItemBody} {items : List Item}
    (h : toItems order fresh index bodies = .ok items) :
    List.Forall₂ (fun b i => b.1.Gives order (fresh b.2) i) (bodies.zipIdx index) items := by
  induction bodies generalizing index items with
  | nil =>
      cases h
      exact .nil
  | cons b bs ih =>
      obtain ⟨i, hitem, h⟩ := ok_of_bind h
      obtain ⟨is, hitems, h⟩ := ok_of_bind h
      cases h
      exact .cons (gives_of_toItem hitem) (ih hitems)

theorem length_of_toItems {order : OrderId} {fresh : Nat → ItemId} {index : Nat}
    {bodies : List ItemBody} {items : List Item}
    (h : toItems order fresh index bodies = .ok items) : items.length = bodies.length := by
  rw [← (forall₂_of_toItems h).length_eq, List.length_zipIdx]

theorem price_of_mem_toItems {order : OrderId} {fresh : Nat → ItemId} {index : Nat}
    {bodies : List ItemBody} {items : List Item}
    (h : toItems order fresh index bodies = .ok items) :
    ∀ i ∈ items, ∃ b ∈ bodies, Money.new b.price = .ok i.price := by
  intro i hi
  obtain ⟨n, hn, rfl⟩ := List.getElem_of_mem hi
  have hgives := (forall₂_of_toItems h).get (by rw [(forall₂_of_toItems h).length_eq]; exact hn) hn
  rw [List.get_eq_getElem, List.get_eq_getElem, List.getElem_zipIdx] at hgives
  exact ⟨_, List.getElem_mem _, hgives.price⟩

section

variable {b : Body} {user : UserId} {trace : Uuid} {supply : Supply} {r : Request}

/-- An accepted body gives the request its header and its items. -/
theorem toItems_of_toRequest (h : b.toRequest user trace supply = .ok r) :
    r.header = b.header user supply ∧
      toItems (b.header user supply).id supply.item 0 b.items = .ok r.items := by
  unfold toRequest at h
  split at h
  · cases h
  · obtain ⟨items, hitems, h⟩ := ok_of_bind h
    obtain ⟨hheader, rfl, -⟩ := Request.eq_of_new h
    exact ⟨hheader, hitems⟩

/-- An accepted body gives each item a price that is accepted. -/
theorem of_toRequest (h : b.toRequest user trace supply = .ok r) :
    r.header = b.header user supply ∧
      ∀ i ∈ r.items, ∃ body ∈ b.items, Money.new body.price = .ok i.price := by
  obtain ⟨hheader, hitems⟩ := toItems_of_toRequest h
  exact ⟨hheader, price_of_mem_toItems hitems⟩

end

end Body

end Checkout
