import Checkout.Proofs.Demand.Balance

/-!
# The ledger as a partition

Merging a batch puts every item under its own product, once, and keeps the items of a product in the
sequence of their arrival. What is asked for of a product is the sum over the items that are put
under it (`merge_partitions`), and as long as the batch has fewer items than 32 bits can count, such
a sum fits into 64 bits.

What a demand says is asked for is what its contributions come to (`Demand.Tallied`), and pushing,
popping and clearing keep it so.
-/

namespace Checkout

/-! ## Demands whose quantity is their sum -/

namespace Demand

variable {d d' : Demand} {c : Contribution}

/-- The quantity is what the contributions come to. -/
def Tallied (d : Demand) : Prop := d.quantity = total d.newestFirst

theorem Tallied.push (h : d.Tallied) (c : Contribution) : (d.push c).Tallied := by
  show d.quantity + c.quantity.toNat = total (c :: d.newestFirst)
  rw [total_cons, h, Nat.add_comm]

theorem pop?_eq_some_iff :
    d.pop? = some (c, d') ↔
      ∃ older, d.newestFirst = c :: older ∧
        d' = ⟨d.product, d.quantity - c.quantity.toNat, older⟩ := by
  unfold pop?
  constructor
  · intro h
    split at h
    next => cases h
    next c' older hcs =>
      cases h
      exact ⟨older, hcs, rfl⟩
  · rintro ⟨older, hcs, rfl⟩
    rw [hcs]

theorem length_lt_of_pop? (hpop : d.pop? = some (c, d')) :
    d'.newestFirst.length < d.newestFirst.length := by
  obtain ⟨older, hcs, rfl⟩ := pop?_eq_some_iff.mp hpop
  rw [hcs]
  exact Nat.lt_succ_self _

/-- What is popped is part of the sum. -/
theorem Tallied.quantity_le_of_pop? (h : d.Tallied) (hpop : d.pop? = some (c, d')) :
    c.quantity.toNat ≤ d.quantity := by
  obtain ⟨older, hcs, -⟩ := pop?_eq_some_iff.mp hpop
  rw [h, hcs, total_cons]
  exact Nat.le_add_right _ _

theorem Tallied.pop? (h : d.Tallied) (hpop : d.pop? = some (c, d')) : d'.Tallied := by
  obtain ⟨older, hcs, rfl⟩ := pop?_eq_some_iff.mp hpop
  show d.quantity - c.quantity.toNat = total older
  rw [h, hcs, total_cons, Nat.add_sub_cancel_left]

theorem tallied_clear (d : Demand) : d.clear.2.Tallied := rfl

end Demand

/-! ## Positions of a batch -/

/-- The item at a position of a batch. -/
def itemAt? (requests : List Request) (p : Position) : Option Item :=
  requests[p.request]?.bind (·.items[p.item]?)

theorem itemAt?_eq_some_iff {requests : List Request} {p : Position} {item : Item} :
    itemAt? requests p = some item ↔
      ∃ request, requests[p.request]? = some request ∧ request.items[p.item]? = some item :=
  Option.bind_eq_some_iff

namespace Arrival

/-- The arrivals of a batch are its items, each at its own position. -/
theorem mem_ofBatch_iff {requests : List Request} {a : Arrival} :
    a ∈ ofBatch requests ↔ itemAt? requests a.position = some a.item := by
  have hmem {p : Position} {item : Item} (h : itemAt? requests p = some item) :
      ⟨p, item⟩ ∈ ofBatch requests := by
    obtain ⟨request, hrequest, hitem⟩ := itemAt?_eq_some_iff.mp h
    obtain ⟨earlier, later, hsplit, -⟩ := ofBatch_split hrequest hitem
    rw [hsplit]
    exact List.mem_append_right _ List.mem_cons_self
  refine ⟨fun h => ?_, hmem⟩
  obtain ⟨-, request, hrequest, hlt⟩ := request_of_mem_ofRequests h
  have hitem : itemAt? requests a.position = some request.items[a.position.item] :=
    itemAt?_eq_some_iff.mpr ⟨request, hrequest, List.getElem?_eq_getElem hlt⟩
  have hsame := Resolution.eq_of_position_eq h (hmem hitem) rfl
  exact hitem.trans (congrArg (some ·.item) hsame).symm

end Arrival

/-! ## What merging does -/

namespace Ledger

open Arrival Demand

variable {requests : List Request}

/-- The ledger has every item of a batch once, under its own product and in the sequence of
arrival, and what is asked for of a product is the sum over the items under it. -/
structure Partitions (l : Ledger) (requests : List Request) : Prop where
  once : ∀ p item, itemAt? requests p = some item →
    (l.demands.flatMap (·.contributors)).count p = 1
  own : ∀ d ∈ l.demands, ∀ p ∈ d.contributors,
    ∃ item, itemAt? requests p = some item ∧ item.product = d.product
  ascending : ∀ d ∈ l.demands, d.contributors.Pairwise Position.before
  quantity : ∀ d ∈ l.demands, d.quantity =
    (d.contributors.map fun p => ((itemAt? requests p).map (·.quantity.toNat)).getD 0).sum
  tallied : ∀ d ∈ l.demands, d.Tallied
  quantity_lt : ∀ d ∈ l.demands, d.quantity < UInt64.size

theorem contributors_gather (product : ProductId) (as : List Arrival) :
    (gather product as).contributors = (asking product as).map (·.position) := by
  show ((List.map contribution _).reverse.map (·.position)).reverse = _
  rw [List.map_reverse, List.reverse_reverse, List.map_map]
  rfl

theorem contributors_of_mem {d : Demand} (hd : d ∈ (merge requests).demands) :
    d.contributors = (asking d.product (Arrival.ofBatch requests)).map (·.position) := by
  conv_lhs => rw [(merge_collects requests).eq_gather d hd]
  exact contributors_gather _ _

/-- The contributors to a demand are the positions where its product is asked for. -/
theorem mem_contributors_iff {d : Demand} (hd : d ∈ (merge requests).demands) {p : Position} :
    p ∈ d.contributors ↔ ∃ item, itemAt? requests p = some item ∧ item.product = d.product := by
  rw [contributors_of_mem hd, List.mem_map]
  constructor
  · rintro ⟨a, ha, rfl⟩
    obtain ⟨ha, hproduct⟩ := mem_asking.mp ha
    exact ⟨a.item, mem_ofBatch_iff.mp ha, hproduct⟩
  · rintro ⟨item, hitem, hproduct⟩
    exact ⟨⟨p, item⟩, mem_asking.mpr ⟨mem_ofBatch_iff.mpr hitem, hproduct⟩, rfl⟩

theorem contributors_ascending {d : Demand} (hd : d ∈ (merge requests).demands) :
    d.contributors.Pairwise Position.before := by
  rw [contributors_of_mem hd]
  exact List.pairwise_map.mpr ((ofBatch_ascending requests).sublist List.filter_sublist)

/-- No position contributes twice. -/
theorem flatMap_contributors_nodup (requests : List Request) :
    ((merge requests).demands.flatMap (·.contributors)).Nodup := by
  refine List.nodup_flatMap.mpr ⟨fun d hd => ?_, ?_⟩
  · exact (contributors_ascending hd).imp Position.ne_of_before
  · have hproducts := List.pairwise_map.mp (merge_collects requests).ascending.products_nodup
    refine hproducts.imp_of_mem fun hd he hne p hpd hpe => hne ?_
    obtain ⟨item, hitem, hproduct⟩ := (mem_contributors_iff hd).mp hpd
    obtain ⟨item', hitem', hproduct'⟩ := (mem_contributors_iff he).mp hpe
    rw [← hproduct, ← hproduct', Option.some.inj (hitem.symm.trans hitem')]

/-- Every position contributes. -/
theorem mem_flatMap_contributors {p : Position} {item : Item}
    (h : itemAt? requests p = some item) :
    p ∈ (merge requests).demands.flatMap (·.contributors) := by
  have ha : ⟨p, item⟩ ∈ Arrival.ofBatch requests := mem_ofBatch_iff.mpr h
  obtain ⟨d, hd, hproduct⟩ := List.mem_map.mp
    (((merge_collects requests).mem_products item.product).mpr
      (List.mem_map.mpr ⟨_, ha, rfl⟩))
  exact List.mem_flatMap.mpr ⟨d, hd, (mem_contributors_iff hd).mpr ⟨item, h, hproduct.symm⟩⟩

theorem quantity_eq_sum_contributors {d : Demand} (hd : d ∈ (merge requests).demands) :
    d.quantity =
      (d.contributors.map fun p =>
        ((itemAt? requests p).map (·.quantity.toNat)).getD 0).sum := by
  rw [contributors_of_mem hd, List.map_map]
  conv_lhs => rw [(merge_collects requests).eq_gather d hd]
  show (((asking d.product (Arrival.ofBatch requests)).map contribution).map _).sum = _
  rw [List.map_map]
  congr 1
  refine List.map_congr_left fun a ha => ?_
  simp [contribution, mem_ofBatch_iff.mp (mem_asking.mp ha).1]

/-! ### How large quantities get -/

/-- Every contribution is of fewer pieces than 32 bits can count. -/
theorem total_le (cs : List Contribution) : total cs ≤ cs.length * (UInt32.size - 1) := by
  induction cs with
  | nil => exact Nat.zero_le _
  | cons c cs ih =>
      have hlt := c.quantity.toNat_lt_size
      rw [total_cons, List.length_cons, Nat.succ_mul]
      omega

/-- Collected demands are the sums of what has arrived. -/
theorem Collects.tallied {as : List Arrival} {ds : List Demand} (h : Collects as ds) {d : Demand}
    (hd : d ∈ ds) : d.Tallied := by
  rw [h.eq_gather d hd]
  exact gather_quantity _ _

/-- A quantity fits into 64 bits, if fewer items have arrived than 32 bits can count. -/
theorem Collects.quantity_lt {as : List Arrival} {ds : List Demand} (h : Collects as ds)
    (hlength : as.length < UInt32.size) {d : Demand} (hd : d ∈ ds) : d.quantity < UInt64.size := by
  have hcs : d.newestFirst.length ≤ as.length := by
    rw [h.eq_gather d hd]
    show ((asking d.product as).map contribution).reverse.length ≤ _
    rw [List.length_reverse, List.length_map]
    exact List.length_filter_le _ _
  have hmul := Nat.mul_le_mul_right (UInt32.size - 1) (Nat.le_trans hcs (Nat.le_of_lt hlength))
  calc d.quantity = total d.newestFirst := h.tallied hd
    _ ≤ d.newestFirst.length * (UInt32.size - 1) := total_le _
    _ ≤ UInt32.size * (UInt32.size - 1) := hmul
    _ < UInt64.size := by decide

theorem length_ofBatch (requests : List Request) :
    (Arrival.ofBatch requests).length = (requests.flatMap (·.items)).length := by
  rw [← map_item_ofRequests 0, List.length_map]
  rfl

/-- **Merging partitions the batch.** -/
theorem merge_partitions (h : (requests.flatMap (·.items)).length < UInt32.size) :
    (merge requests).Partitions requests where
  once _ _ hitem := List.count_eq_one_of_mem (flatMap_contributors_nodup requests)
    (mem_flatMap_contributors hitem)
  own _ hd _ := (mem_contributors_iff hd).mp
  ascending _ := contributors_ascending
  quantity _ := quantity_eq_sum_contributors
  tallied _ := (merge_collects requests).tallied
  quantity_lt _ := (merge_collects requests).quantity_lt (length_ofBatch requests ▸ h)

end Ledger

end Checkout
