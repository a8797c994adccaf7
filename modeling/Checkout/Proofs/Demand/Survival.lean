import Checkout.Proofs.Demand.Resolution

/-!
# What a request keeps

The items that a request keeps are read off the resolution place by place. No two items of a request
are the same, so an item is among those that are kept exactly if the resolution does not give up its
place (`mem_survivingItems`). Request after request, what is kept is what survives of the batch
(`flatMap_survivingItems`).
-/

namespace Checkout

theorem Request.items_nodup (request : Request) : request.items.Nodup :=
  .of_map Item.id request.ids_nodup

namespace Resolution

theorem survivingItems_eq (r : Resolution) (index : Nat) (request : Request) :
    r.survivingItems index request =
      (r.surviving (Arrival.ofItems index 0 request.items)).map (·.item) := by
  unfold survivingItems
  generalize 0 = start
  induction request.items generalizing start with
  | nil => rfl
  | cons i is ih =>
      rw [List.zipIdx_cons, List.filter_cons, Arrival.ofItems]
      unfold surviving at ih ⊢
      rw [List.filter_cons]
      dsimp only
      split
      · rw [List.map_cons, List.map_cons, ih]
      · exact ih _

theorem survivingItems_sublist (r : Resolution) (index : Nat) (request : Request) :
    (r.survivingItems index request).Sublist request.items := by
  have hsub : ((r.surviving (Arrival.ofItems index 0 request.items)).map (·.item)).Sublist
      ((Arrival.ofItems index 0 request.items).map (·.item)) := List.filter_sublist.map _
  rw [Arrival.map_item_ofItems] at hsub
  rw [survivingItems_eq]
  exact hsub

/-- A request keeps an item exactly if the resolution does not give up its place. -/
theorem mem_survivingItems (r : Resolution) {request : Request} {i : Nat} {item : Item}
    (hi : request.items[i]? = some item) (index : Nat) :
    item ∈ r.survivingItems index request ↔ r.isEvicted ⟨index, i⟩ = false := by
  unfold survivingItems
  rw [List.mem_map]
  constructor
  · rintro ⟨⟨item', i'⟩, hmem, rfl⟩
    obtain ⟨hplace, hkept⟩ := List.mem_filter.mp hmem
    -- no other place of the request has the same item
    have hlt := (List.getElem?_eq_some_iff.mp hi).1
    have hsame := List.mem_zipIdx_iff_getElem?.mp hplace
    obtain rfl := (List.getElem?_inj hlt request.items_nodup).mp (hi.trans hsame.symm)
    simpa using hkept
  · intro hkept
    refine ⟨(item, i), List.mem_filter.mpr ⟨List.mem_zipIdx_iff_getElem?.mpr hi, ?_⟩, rfl⟩
    simp [hkept]

/-- The items that are not gone, place by place. -/
theorem filter_zipIdx_eq_filterMap (gone : Nat → Bool) (is : List Item) :
    (is.zipIdx.filter fun (_, i) => !gone i).map (·.1) =
      (List.range is.length).filterMap fun i => if gone i then none else is[i]? := by
  induction is generalizing gone with
  | nil => rfl
  | cons i is ih =>
      have hrest := ih fun i => gone (i + 1)
      rw [List.zipIdx_cons, List.zipIdx_succ, List.length_cons, List.range_succ_eq_map,
        List.filter_cons, List.filterMap_cons, List.filterMap_map, List.filter_map]
      simp only [Function.comp_def, List.getElem?_cons_succ, ← hrest]
      cases gone 0 <;> simp [Function.comp_def]

/-- What a request keeps, place by place in its own sequence. -/
theorem survivingItems_eq_filterMap (r : Resolution) (index : Nat) (request : Request) :
    r.survivingItems index request = (List.range request.items.length).filterMap fun i =>
      if r.isEvicted ⟨index, i⟩ then none else request.items[i]? :=
  filter_zipIdx_eq_filterMap (fun i => r.isEvicted ⟨index, i⟩) request.items

/-- What the requests keep is what survives of the batch. -/
theorem flatMap_survivingItems (r : Resolution) (requests : List Request) :
    (requests.zipIdx.flatMap fun (request, index) => r.survivingItems index request) =
      r.survivors requests := by
  unfold survivors Arrival.ofBatch
  generalize 0 = start
  induction requests generalizing start with
  | nil => rfl
  | cons request requests ih =>
      rw [List.zipIdx_cons, List.flatMap_cons, ih, Arrival.ofRequests]
      simp [surviving, survivingItems_eq]

end Resolution

end Checkout
