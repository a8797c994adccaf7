import Checkout.Proofs.Memory.History
import Mathlib.Data.List.Perm.Basic

/-!
# Integrity of the contents

Headers and items are kept apart and are added by different operations, but they always belong
together. `Contents.orders` lists the orders of a store, each put together from its header and its
items, and then no item is left over and none is used twice (`Sound.orders_perm`). So the contents
of a store are intact whatever happens to it (`intact_run`).
-/

namespace Checkout

/-- Picked out key by key, the elements of a list are all there, each once. -/
theorem flatMap_filter_perm {α κ : Type} [DecidableEq κ] (key : α → κ) {keys : List κ} {as : List α}
    (hnd : keys.Nodup) (hkey : ∀ a ∈ as, key a ∈ keys) :
    (keys.flatMap fun k => as.filter fun a => key a = k).Perm as := by
  induction keys generalizing as with
  | nil =>
      have hnil : as = [] := by
        apply List.eq_nil_iff_forall_not_mem.mpr
        intro a ha
        simpa using hkey a ha
      simp [hnil]
  | cons k ks ih =>
      obtain ⟨hk, hnd⟩ := List.nodup_cons.mp hnd
      -- the other keys pick from what the first one leaves
      have hrest : (ks.flatMap fun k' => as.filter fun a => key a = k') =
          ks.flatMap fun k' => (as.filter fun a => !decide (key a = k)).filter fun a =>
            key a = k' := by
        apply List.flatMap_congr
        intro k' hk'
        have hne : k' ≠ k := fun heq => hk (heq ▸ hk')
        rw [List.filter_filter]
        apply List.filter_congr
        intro a ha
        by_cases h : key a = k' <;> simp [h, hne]
      have hkeys : ∀ a ∈ as.filter fun a => !decide (key a = k), key a ∈ ks := by
        intro a ha
        obtain ⟨hmem, hne⟩ := List.mem_filter.mp ha
        have hcases := List.mem_cons.mp (hkey a hmem)
        exact hcases.resolve_left (by simpa using hne)
      rw [List.flatMap_cons, hrest]
      exact ((ih hnd hkeys).append_left _).trans (List.filter_append_perm _ as)

namespace Contents

variable {c : Contents}

/-! ## The orders of a store -/

/-- All orders with their items, in the sequence of their identifiers. -/
def orders (c : Contents) : List Order := c.headers.keys.filterMap c.order?

theorem mem_keys {id : OrderId} : id ∈ c.headers.keys ↔ (c.header? id).isSome := by
  rw [Std.ExtTreeMap.mem_keys, Std.ExtTreeMap.mem_iff_isSome_getElem?]
  rfl

theorem flatMap_items_filterMap {ids : List OrderId} (h : ∀ id ∈ ids, (c.header? id).isSome) :
    (ids.filterMap c.order?).flatMap (·.items) =
      ids.flatMap fun id => c.items.filter fun i => i.order = id := by
  induction ids with
  | nil => rfl
  | cons id ids ih =>
      obtain ⟨hd, hhd⟩ := Option.isSome_iff_exists.mp (h id List.mem_cons_self)
      have hrest := ih fun id hid => h id (List.mem_cons_of_mem _ hid)
      simp [order?, hhd, hrest]

namespace Sound

/-- An order is listed if and only if it is found under its identifier. -/
theorem mem_orders (h : Sound c) {o : Order} : o ∈ c.orders ↔ c.order? o.id = some o := by
  unfold orders
  rw [List.mem_filterMap]
  constructor
  · rintro ⟨id, -, ho⟩
    obtain ⟨hd, hhd, rfl⟩ := Option.map_eq_some_iff.mp ho
    have hid : hd.id = id := h.header_id id hd hhd
    show c.order? hd.id = _
    rw [hid, ho]
  · intro ho
    refine ⟨o.id, mem_keys.mpr ?_, ho⟩
    obtain ⟨hd, hhd, -⟩ := Option.map_eq_some_iff.mp ho
    rw [hhd]
    rfl

/-- **The items of all orders are the items of the store**, each of them once. -/
theorem orders_perm (h : Sound c) : (c.orders.flatMap (·.items)).Perm c.items := by
  unfold orders
  rw [flatMap_items_filterMap fun id hid => mem_keys.mp hid]
  apply flatMap_filter_perm
  · exact Std.ExtTreeMap.nodup_keys
  · intro i hi
    exact mem_keys.mpr (h.item_header i hi)

theorem ids_orders (h : Sound c) : c.orders.map (·.id) = c.headers.keys := by
  unfold orders
  have hsome : ∀ id ∈ c.headers.keys, (c.order? id).map (·.id) = some id := by
    intro id hid
    obtain ⟨hd, hhd⟩ := Option.isSome_iff_exists.mp (mem_keys.mp hid)
    simp [order?, hhd, h.header_id id hd hhd]
  rw [List.map_filterMap]
  exact (List.filterMap_congr hsome).trans List.filterMap_some

end Sound

/-- Nothing in the contents refers to something that is not there. -/
structure Intact (c : Contents) : Prop extends Sound c where
  order_items : ∀ id o, c.order? id = some o → o.id = id ∧ o.items ≠ []
  quantity_pos : ∀ i ∈ c.items, 1 ≤ i.quantity
  /-- The orders, found one by one, are as many as there are headers. -/
  mem_orders : ∀ o, o ∈ c.orders ↔ c.order? o.id = some o
  ids_nodup : (c.orders.map (·.id)).Nodup
  length_orders : c.orders.length = c.headers.size
  /-- Their items are the items of the store. -/
  items_perm : (c.orders.flatMap (·.items)).Perm c.items
  length_items : c.items.length = (c.orders.map (·.items.length)).sum

theorem Sound.intact (h : Sound c) : Intact c where
  toSound := h
  order_items id o ho := by
    obtain ⟨hd, hhd, rfl⟩ := Option.map_eq_some_iff.mp ho
    obtain ⟨i, hi, hio⟩ := h.header_item id hd hhd
    have hmem : i ∈ c.items.filter fun i => i.order = id := by simp [hi, hio]
    exact ⟨h.header_id id hd hhd, List.ne_nil_of_mem hmem⟩
  quantity_pos i _ := i.quantity_pos
  mem_orders _ := h.mem_orders
  ids_nodup := by
    rw [h.ids_orders]
    exact Std.ExtTreeMap.nodup_keys
  length_orders := by
    rw [← List.length_map (·.id), h.ids_orders]
    exact Std.ExtTreeMap.length_keys
  items_perm := h.orders_perm
  length_items := by
    rw [← h.orders_perm.length_eq, List.length_flatMap]

end Contents

namespace Memory

variable {ρ : Type}

/-- **The contents of a store stay intact**, whatever is set, sold or fails. -/
theorem intact_run (events : List (Event ρ)) : (empty.run events).contents.Intact :=
  (Reachable.empty.run events).sound.intact

example : (Sample.store.run Sample.history).contents.orders =
    [Sample.first.toOrder (Sample.first.items.take 1)] := by
  rfl

end Memory

end Checkout
