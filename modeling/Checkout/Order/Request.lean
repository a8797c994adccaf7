import Checkout.Order.Basic

/-!
# Checkout requests

A request asks for an order. It has at least one item, all its items name its order, no two of them
share an identifier, and its total can be computed. `Request.new` checks this and reports the first
rule that is not kept.
-/

namespace Checkout

/-- A request to check out an order. -/
structure Request where
  header : Header
  items : List Item
  trace : Uuid
  items_ne_nil : items ≠ []
  order_eq : ∀ i ∈ items, i.order = header.id
  ids_nodup : (items.map Item.id).Nodup
  total_isOk : (Item.total items).isOk = true

namespace Request

/-- The first identifier that has occurred before, either among `seen` or in the list. -/
def firstRepeated (seen : IdentifierSet .item) : List ItemId → Option ItemId
  | [] => none
  | i :: is => if i ∈ seen then some i else firstRepeated (seen.insert i) is

theorem nodup_of_firstRepeated {ids : List ItemId} {seen : IdentifierSet .item}
    (h : firstRepeated seen ids = none) : ids.Nodup ∧ ∀ i ∈ ids, i ∉ seen := by
  induction ids generalizing seen with
  | nil => exact ⟨List.nodup_nil, by simp⟩
  | cons i is ih =>
    rw [firstRepeated] at h
    split at h
    · cases h
    · rename_i hi
      obtain ⟨hd, hs⟩ := ih h
      refine ⟨List.nodup_cons.2 ⟨fun hm => hs i hm Std.ExtTreeSet.mem_insert_self, hd⟩, ?_⟩
      intro j hj
      rcases List.mem_cons.1 hj with rfl | hj
      · exact hi
      · exact fun hjs => hs j hj (Std.ExtTreeSet.mem_insert.2 (.inr hjs))

/-- The request, if it keeps all rules. -/
def new (header : Header) (items : List Item) (trace : Uuid) : Except Refusal Request :=
  if hne : items = [] then .error (.invalidRequest .noItems)
  else
    match hown : items.find? (·.order ≠ header.id) with
    | some i => .error (.invalidRequest (.foreignItem i.id header.id))
    | none =>
      match hrep : firstRepeated ∅ (items.map Item.id) with
      | some i => .error (.invalidRequest (.repeatedItem i))
      | none =>
        match htot : Item.total items with
        | .error fault => .error (.invalidValue fault)
        | .ok _ => .ok
          { header, items, trace
            items_ne_nil := hne
            order_eq := fun i hi => by simpa using List.find?_eq_none.1 hown i hi
            ids_nodup := (nodup_of_firstRepeated hrep).1
            total_isOk := by rw [htot]; rfl }

/-- The order asked for. -/
abbrev order (r : Request) : OrderId := r.header.id

/-- The order made of some of the items. -/
def toOrder (r : Request) (items : List Item) : Order := { r.header with items }

end Request

end Checkout
