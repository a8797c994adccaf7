import Checkout.Proofs.Demand.Survival
import Mathlib.Data.List.Basic

/-!
# The balance of a batch

What the stock is reduced by is computed from what is left of the demands, and what the requests
keep from the positions given up. The two agree (`ofBatch_balance`): product by product the stock is
reduced by the pieces that are kept, and every item is either kept or counted as given up.
-/

namespace Checkout

namespace Resolution

open Arrival Ledger

variable {requests : List Request} {stock : List StockRow} {product : ProductId}

/-! ## What the stock is reduced by -/

/-- The ledger has the products that are asked for. -/
theorem mem_products : product ∈ (merge requests).products ↔
    ∃ request ∈ requests, ∃ i ∈ request.items, i.product = product := by
  have hmap : (Arrival.ofBatch requests).map (·.item.product) =
      (requests.flatMap (·.items)).map (·.product) := by
    rw [← map_item_ofRequests 0, List.map_map]
    rfl
  rw [products, (merge_collects requests).mem_products, hmap]
  simp only [List.mem_map, List.mem_flatMap]
  constructor
  · rintro ⟨i, ⟨request, hrequest, hi⟩, hproduct⟩
    exact ⟨request, hrequest, i, hi, hproduct⟩
  · rintro ⟨request, hrequest, i, hi, hproduct⟩
    exact ⟨i, ⟨request, hrequest, hi⟩, hproduct⟩

/-- What is left of the demand for a product is known by the product. -/
theorem eq_of_product_eq_of_mem {d e : Demand} (hd : d ∈ (ofBatch requests stock).demands)
    (he : e ∈ (ofBatch requests stock).demands) (h : d.product = e.product) : d = e := by
  obtain ⟨d', hd', rfl⟩ := mem_demands.mp hd
  obtain ⟨e', he', rfl⟩ := mem_demands.mp he
  rw [Demand.shrink_product, Demand.shrink_product] at h
  obtain rfl := eq_of_product_eq hd' he' h
  rfl

theorem finalQuantity_eq {e : Demand} (he : e ∈ (ofBatch requests stock).demands) :
    (ofBatch requests stock).finalQuantity e.product = e.quantity := by
  unfold finalQuantity
  cases hfind : (ofBatch requests stock).demands.find? (·.product = e.product) with
  | none => exact absurd (decide_eq_true rfl) (List.find?_eq_none.mp hfind e he)
  | some d =>
      have hproduct : d.product = e.product := by simpa using List.find?_some hfind
      rw [eq_of_product_eq_of_mem (List.mem_of_find?_eq_some hfind) he hproduct]
      rfl

/-- **The final quantity is what is kept**, whether or not the batch asks for the product. -/
theorem finalQuantity_eq_pieces (requests : List Request) (stock : List StockRow)
    (product : ProductId) :
    (ofBatch requests stock).finalQuantity product =
      pieces product (survivors (ofBatch requests stock) requests) := by
  by_cases h : product ∈ (ofBatch requests stock).demands.map (·.product)
  · obtain ⟨e, he, rfl⟩ := List.mem_map.mp h
    rw [finalQuantity_eq he, quantity_eq_pieces he]
  · have hfind : (ofBatch requests stock).demands.find? (·.product = product) = none :=
      List.find?_eq_none.mpr fun e he heq =>
        h (List.mem_map.mpr ⟨e, he, of_decide_eq_true heq⟩)
    rw [pieces_eq_zero, finalQuantity, hfind]
    · rfl
    intro i hi heq
    obtain ⟨a, ha, rfl⟩ := List.mem_map.mp hi
    rw [map_product_demands, products, (merge_collects requests).mem_products] at h
    exact h (heq ▸ List.mem_map_of_mem (List.mem_filter.mp ha).1)

/-- **The final quantity is in stock.** -/
theorem finalQuantity_le_available (requests : List Request) (stock : List StockRow)
    (product : ProductId) :
    (ofBatch requests stock).finalQuantity product ≤ (available stock product).toNat := by
  unfold finalQuantity
  cases hfind : (ofBatch requests stock).demands.find? (·.product = product) with
  | none => exact Nat.zero_le _
  | some d =>
      obtain rfl : d.product = product := by simpa using List.find?_some hfind
      exact quantity_le_available (List.mem_of_find?_eq_some hfind)

/-- **The decrements are the final quantities**, one for each product. -/
theorem map_decrements (requests : List Request) (stock : List StockRow) :
    (ofBatch requests stock).decrements.map (fun d => (d.product, d.quantity.toNat)) =
      (merge requests).products.map fun p => (p, (ofBatch requests stock).finalQuantity p) := by
  rw [← map_product_demands requests stock, decrements, List.map_map, List.map_map]
  refine List.map_congr_left fun e he => ?_
  simp only [Function.comp_def, toNat_decrement he, finalQuantity_eq he]

/-! ## How many items are given up -/

/-- The positions given up, product after product, the last one of each product first. -/
def givenUp (requests : List Request) (stock : List StockRow) : List Position :=
  (merge requests).demands.flatMap fun d => (d.shrink (available stock d.product).toNat).1

theorem evicted_eq (requests : List Request) (stock : List StockRow) :
    (ofBatch requests stock).evicted = .ofList (givenUp requests stock) := by
  show Std.ExtTreeSet.ofList (((merge requests).demands.map _).flatMap _) compare = _
  rw [List.flatMap_map]
  rfl

/-- No position is given up twice. -/
theorem givenUp_nodup (requests : List Request) (stock : List StockRow) :
    (givenUp requests stock).Nodup := by
  refine List.nodup_flatMap.mpr ⟨fun d hd => ?_, ?_⟩
  · obtain ⟨lost, kept, hfit, hperm, -⟩ :=
      shrink_gathered (available stock d.product).toNat hd
    have hnd := gather_positions_nodup d.product requests
    rw [hfit.append_eq, List.map_append] at hnd
    exact hperm.nodup_iff.mpr (List.nodup_append.mp hnd).1
  · have hproducts := List.pairwise_map.mp (merge_collects requests).ascending.products_nodup
    refine hproducts.imp_of_mem fun hd he hne p hpd hpe => hne ?_
    -- an item at a position given up for two products would be of both
    obtain ⟨a, ha, hap⟩ := exists_asking_of_mem_shrink hd hpd
    obtain ⟨b, hb, hbp⟩ := exists_asking_of_mem_shrink he hpe
    obtain ⟨ha, hproduct⟩ := mem_asking.mp ha
    obtain ⟨hb, hproduct'⟩ := mem_asking.mp hb
    rw [← hproduct, ← hproduct', eq_of_position_eq ha hb (hap.trans hbp.symm)]

theorem mem_evicted_iff {p : Position} :
    p ∈ (ofBatch requests stock).evicted ↔ p ∈ givenUp requests stock := by
  rw [evicted_eq, Std.ExtTreeSet.mem_ofList, List.contains_iff_mem]

theorem evictedItems_eq (requests : List Request) (stock : List StockRow) :
    (ofBatch requests stock).evictedItems = (givenUp requests stock).length := by
  have hdistinct : (givenUp requests stock).Pairwise fun p q => ¬ compare p q = .eq :=
    (givenUp_nodup requests stock).imp fun hne heq => hne (Std.LawfulEqOrd.eq_of_compare heq)
  rw [evictedItems, evicted_eq, Std.ExtTreeSet.size_ofList hdistinct]

/-- **An item is given up once**, and only items of the batch are. -/
theorem givenUp_perm (requests : List Request) (stock : List StockRow) :
    (givenUp requests stock).Perm
      (((Arrival.ofBatch requests).filter fun a =>
        (ofBatch requests stock).isEvicted a.position).map (·.position)) := by
  have hnd := (ofBatch_positions_nodup requests).sublist
    ((List.filter_sublist (p := fun a => (ofBatch requests stock).isEvicted a.position)).map _)
  refine (List.perm_ext_iff_of_nodup (givenUp_nodup requests stock) hnd).mpr fun p => ?_
  constructor
  · intro hp
    obtain ⟨d, hd, hmem⟩ := mem_evicted.mp (mem_evicted_iff.mpr hp)
    obtain ⟨a, ha, rfl⟩ := exists_asking_of_mem_shrink hd hmem
    have ha := (mem_asking.mp ha).1
    refine List.mem_map.mpr ⟨a, List.mem_filter.mpr ⟨ha, ?_⟩, rfl⟩
    exact (isEvicted_iff ha).mpr (mem_evicted_iff.mpr hp)
  · intro hp
    obtain ⟨a, ha, rfl⟩ := List.mem_map.mp hp
    obtain ⟨ha, hgone⟩ := List.mem_filter.mp ha
    exact mem_evicted_iff.mp ((isEvicted_iff ha).mp hgone)

/-- **Every item is given up or kept.** -/
theorem evictedItems_add_survivors (requests : List Request) (stock : List StockRow) :
    (ofBatch requests stock).evictedItems +
        (survivors (ofBatch requests stock) requests).length =
      (requests.flatMap (·.items)).length := by
  rw [evictedItems_eq, (givenUp_perm requests stock).length_eq, List.length_map, survivors,
    List.length_map, surviving, ← List.length_eq_length_filter_add, ← map_item_ofRequests 0,
    List.length_map]
  rfl

/-! ## The balance -/

/-- A resolution balances: what its decrements take is what the requests keep. -/
structure Balance (requests : List Request) (stock : List StockRow) (r : Resolution)
    (kept : List Item) : Prop where
  /-- There is one decrement for each product, of the final quantity. -/
  decrements : r.decrements.map (fun d => (d.product, d.quantity.toNat)) =
    (merge requests).products.map fun p => (p, r.finalQuantity p)
  ascending : (merge requests).products.Pairwise (·.before · = true)
  mem_products : ∀ p, p ∈ (merge requests).products ↔
    ∃ request ∈ requests, ∃ i ∈ request.items, i.product = p
  /-- The final quantity is what the items that are kept come to. -/
  kept_pieces : ∀ p, r.finalQuantity p = pieces p kept
  in_stock : ∀ p, ∃ n, Stocked p stock n ∧ r.finalQuantity p ≤ n.toNat
  /-- Every item is given up or kept. -/
  counted : r.evictedItems + kept.length = (requests.flatMap (·.items)).length

/-- **Every batch balances.** -/
theorem ofBatch_balance (requests : List Request) (stock : List StockRow) :
    let resolution := (merge requests).resolve stock
    Balance requests stock resolution
      (requests.zipIdx.flatMap fun (request, index) =>
        resolution.survivingItems index request) := by
  intro resolution
  rw [flatMap_survivingItems]
  exact
    { decrements := map_decrements requests stock
      ascending := List.pairwise_map.mpr (merge_collects requests).ascending
      mem_products := fun _ => mem_products
      kept_pieces := finalQuantity_eq_pieces requests stock
      in_stock := fun p =>
        ⟨_, available_eq_iff.mp rfl, finalQuantity_le_available requests stock p⟩
      counted := evictedItems_add_survivors requests stock }

end Resolution

end Checkout
