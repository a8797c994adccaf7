import Checkout.Demand.Resolution
import Checkout.Proofs.Demand.Ledger
import Mathlib.Data.List.Nodup

/-!
# What survives the resolution

Shrinking a demand cuts its contributions in two: those that came last are given up, and the rest is
the longest beginning that fits into the stock (`shrink_fitted`). Since every position belongs to
one product only, an item of the batch survives exactly if its contribution is kept
(`exists_fitted`). So what is left of a demand is what the surviving items of its product come
to, and the stock has enough for it (`quantity_eq_pieces`, `quantity_le_available`).
-/

namespace Checkout

/-! ## Shrinking one demand -/

namespace Demand

variable {available : Nat} {product : ProductId} {cs lost kept : List Contribution}

/-- Contributions, the last one first, are cut in two. What is kept is the longest rest that
fits. -/
structure Fitted (available : Nat) (cs lost kept : List Contribution) : Prop where
  append_eq : cs = lost ++ kept
  total_le : total kept ≤ available
  longest : ∀ t, t <:+ cs → total t ≤ available → t <:+ kept

theorem Fitted.of_total_le (h : total cs ≤ available) : Fitted available cs [] cs :=
  ⟨rfl, h, fun _ ht _ => ht⟩

/-- The last contribution is lost if with it there is too much. -/
theorem Fitted.cons {c : Contribution} (h : Fitted available cs lost kept)
    (hlt : available < total (c :: cs)) : Fitted available (c :: cs) (c :: lost) kept := by
  refine ⟨by rw [h.append_eq, List.cons_append], h.total_le, ?_⟩
  intro t ht hle
  rcases List.suffix_cons_iff.mp ht with rfl | ht
  · exact absurd hle (Nat.not_le_of_lt hlt)
  · exact h.longest t ht hle

theorem shrinkFrom_fitted (product : ProductId) (available : Nat) (cs : List Contribution) :
    ∃ lost kept, Fitted available cs lost kept ∧
      shrinkFrom product available (total cs) cs =
        (lost.map (·.position), ⟨product, total kept, kept⟩) := by
  induction cs with
  | nil => exact ⟨[], [], .of_total_le (Nat.zero_le _), rfl⟩
  | cons c cs ih =>
      unfold shrinkFrom
      split
      next hlt =>
        obtain ⟨lost, kept, hfit, heq⟩ := ih
        refine ⟨c :: lost, kept, hfit.cons hlt, ?_⟩
        rw [total_cons, Nat.add_sub_cancel_left, heq]
        rfl
      next hge => exact ⟨[], c :: cs, .of_total_le (Nat.le_of_not_lt hge), rfl⟩

/-- Without stock nothing is kept, as every contribution is of one piece at least. -/
theorem fitted_zero (hpos : ∀ c ∈ cs, 0 < c.quantity.toNat) : Fitted 0 cs cs [] := by
  refine ⟨(List.append_nil cs).symm, Nat.le_refl 0, ?_⟩
  intro t ht hle
  cases t with
  | nil => exact List.nil_suffix
  | cons c t =>
      have := hpos c (ht.subset List.mem_cons_self)
      rw [total_cons] at hle
      omega

/-- **Shrinking a demand keeps the longest beginning that fits.** -/
theorem shrink_fitted (available : Nat) {d : Demand} (hq : d.quantity = total d.newestFirst)
    (hpos : ∀ c ∈ d.newestFirst, 0 < c.quantity.toNat) :
    ∃ lost kept, Fitted available d.newestFirst lost kept ∧
      (d.shrink available).1.Perm (lost.map (·.position)) ∧
      (d.shrink available).2 = ⟨d.product, total kept, kept⟩ := by
  unfold shrink
  split
  next h =>
    subst h
    exact ⟨_, [], fitted_zero hpos, List.reverse_perm _, rfl⟩
  next =>
    obtain ⟨lost, kept, hfit, heq⟩ := shrinkFrom_fitted d.product available d.newestFirst
    rw [hq, heq]
    exact ⟨lost, kept, hfit, .refl _, rfl⟩

theorem shrinkFrom_product (product : ProductId) (available quantity : Nat)
    (cs : List Contribution) : (shrinkFrom product available quantity cs).2.product = product := by
  induction cs generalizing quantity with
  | nil => rfl
  | cons c cs ih =>
      unfold shrinkFrom
      split
      · exact ih _
      · rfl

theorem shrink_product (available : Nat) (d : Demand) :
    (d.shrink available).2.product = d.product := by
  unfold shrink
  split
  · rfl
  · exact shrinkFrom_product _ _ _ _

/-- Of contributions at different positions those that are not lost are kept. -/
theorem Fitted.filter_not_lost (h : Fitted available cs lost kept)
    (hnd : (cs.map (·.position)).Nodup) :
    cs.filter (fun c => c.position ∉ lost.map (·.position)) = kept := by
  rw [h.append_eq, List.map_append] at hnd
  have hdisjoint := (List.nodup_append.mp hnd).2.2
  rw [h.append_eq, List.filter_append]
  have hlost : lost.filter (fun c => c.position ∉ lost.map (·.position)) = [] := by
    refine List.filter_eq_nil_iff.mpr fun c hc => ?_
    simpa using ⟨c, hc, rfl⟩
  have hkept : kept.filter (fun c => c.position ∉ lost.map (·.position)) = kept := by
    refine List.filter_eq_self.mpr fun c hc => ?_
    have hpos := List.mem_map_of_mem (f := (·.position)) hc
    exact decide_eq_true fun hmem => hdisjoint _ hmem _ hpos rfl
  rw [hlost, hkept, List.nil_append]

theorem gather_pos (product : ProductId) (as : List Arrival) :
    ∀ c ∈ (gather product as).newestFirst, 0 < c.quantity.toNat := by
  intro c hc
  obtain ⟨a, -, rfl⟩ := List.mem_map.mp (List.mem_reverse.mp hc)
  exact UInt32.lt_iff_toNat_lt.mp a.item.quantity_pos

theorem gather_quantity (product : ProductId) (as : List Arrival) :
    (gather product as).quantity = total (gather product as).newestFirst :=
  (total_reverse _).symm

end Demand

/-! ## Counting pieces -/

/-- So many pieces of a product are among the items. -/
def pieces (product : ProductId) (items : List Item) : Nat :=
  ((items.filter (·.product = product)).map (·.quantity.toNat)).sum

@[simp] theorem pieces_nil (product : ProductId) : pieces product [] = 0 := rfl

@[simp] theorem pieces_append (product : ProductId) (xs ys : List Item) :
    pieces product (xs ++ ys) = pieces product xs + pieces product ys := by
  simp [pieces]

theorem pieces_eq_zero {product : ProductId} {items : List Item}
    (h : ∀ i ∈ items, i.product ≠ product) : pieces product items = 0 := by
  have hnil : items.filter (·.product = product) = [] :=
    List.filter_eq_nil_iff.mpr fun i hi => by simpa using h i hi
  rw [pieces, hnil]
  rfl

/-- No piece of a product is among the items only if no item is of that product. -/
theorem pieces_pos {product : ProductId} {items : List Item} {i : Item} (hi : i ∈ items)
    (hp : i.product = product) : 0 < pieces product items := by
  induction items with
  | nil => cases hi
  | cons j js ih =>
      rcases List.mem_cons.mp hi with rfl | hi
      · have := UInt32.lt_iff_toNat_lt.mp i.quantity_pos
        simp only [pieces, List.filter_cons, hp, decide_true, if_true, List.map_cons, List.sum_cons]
        exact Nat.lt_of_lt_of_le this (Nat.le_add_right _ _)
      · have := ih hi
        unfold pieces at this ⊢
        rw [List.filter_cons]
        split
        · simp only [List.map_cons, List.sum_cons]
          omega
        · exact this

/-! ## What is in stock -/

/-- So many pieces of a product are in stock: the last row for the product says how many, and
without a row there are none. -/
inductive Stocked (product : ProductId) : List StockRow → UInt32 → Prop
  | missing {stock : List StockRow} (h : ∀ row ∈ stock, row.product ≠ product) :
      Stocked product stock 0
  | last {before after : List StockRow} {n : UInt32} (h : ∀ row ∈ after, row.product ≠ product) :
      Stocked product (before ++ ⟨product, n⟩ :: after) n

theorem Stocked.available_eq {stock : List StockRow} {product : ProductId} {n : UInt32}
    (h : Stocked product stock n) : available stock product = n := by
  unfold available
  cases h with
  | missing h =>
      have hnone : stock.reverse.find? (·.product = product) = none := by simpa using h
      rw [hnone]
      rfl
  | @last before after _ h =>
      have hnone : after.reverse.find? (·.product = product) = none := by simpa using h
      simp [hnone]

theorem stocked_available (stock : List StockRow) (product : ProductId) :
    Stocked product stock (available stock product) := by
  unfold available
  cases hfind : stock.reverse.find? (·.product = product) with
  | none => exact .missing (by simpa using hfind)
  | some row =>
      obtain ⟨hrow, after, before, hsplit, hafter⟩ := List.find?_eq_some_iff_append.mp hfind
      obtain rfl : row.product = product := of_decide_eq_true hrow
      have hstock : stock = before.reverse ++ row :: after.reverse := by
        rw [← stock.reverse_reverse, hsplit]
        simp
      rw [hstock]
      exact .last (by simpa using hafter)

/-- **What is available is what is in stock**, and no other number of pieces is. -/
theorem available_eq_iff {stock : List StockRow} {product : ProductId} {n : UInt32} :
    available stock product = n ↔ Stocked product stock n :=
  ⟨fun h => h ▸ stocked_available stock product, Stocked.available_eq⟩

/-! ## Resolving a batch -/

namespace Resolution

open Arrival Demand Ledger

variable {requests : List Request} {stock : List StockRow}

/-- A batch, resolved. -/
abbrev ofBatch (requests : List Request) (stock : List StockRow) : Resolution :=
  (merge requests).resolve stock

/-- The arrivals that survive, in their own sequence. -/
def surviving (r : Resolution) (as : List Arrival) : List Arrival :=
  as.filter fun a => !r.isEvicted a.position

theorem mem_evicted {p : Position} :
    p ∈ (ofBatch requests stock).evicted ↔
      ∃ d ∈ (merge requests).demands, p ∈ (d.shrink (available stock d.product).toNat).1 := by
  show p ∈ Std.ExtTreeSet.ofList _ compare ↔ _
  rw [Std.ExtTreeSet.mem_ofList, List.contains_iff_mem]
  simp

theorem mem_demands {e : Demand} :
    e ∈ (ofBatch requests stock).demands ↔
      ∃ d ∈ (merge requests).demands, (d.shrink (available stock d.product).toNat).2 = e := by
  show e ∈ List.map _ (List.map _ _) ↔ _
  simp

theorem inRange_of_mem {a : Arrival} (h : a ∈ Arrival.ofBatch requests) :
    (ofBatch requests stock).inRange a.position = true := by
  obtain ⟨-, r, hr, hlt⟩ := request_of_mem_ofRequests h
  show ((requests.map (·.items.length))[a.position.request]?).any _ = true
  rw [List.getElem?_map, show requests[a.position.request]? = some r from hr]
  simpa using hlt

theorem isEvicted_iff {a : Arrival} (h : a ∈ Arrival.ofBatch requests) :
    (ofBatch requests stock).isEvicted a.position = true ↔
      a.position ∈ (ofBatch requests stock).evicted := by
  rw [isEvicted, inRange_of_mem h]
  exact Std.ExtTreeSet.contains_iff_mem

/-- An arrival of the batch is known by its position. -/
theorem eq_of_position_eq {a b : Arrival} (ha : a ∈ Arrival.ofBatch requests)
    (hb : b ∈ Arrival.ofBatch requests) (h : a.position = b.position) : a = b :=
  List.inj_on_of_nodup_map (ofBatch_positions_nodup requests) ha hb h

/-- The demand for a product in the ledger. -/
theorem eq_of_product_eq {d e : Demand} (hd : d ∈ (merge requests).demands)
    (he : e ∈ (merge requests).demands) (h : d.product = e.product) : d = e := by
  rw [(merge_collects requests).eq_gather d hd, (merge_collects requests).eq_gather e he, h]

theorem gather_positions_nodup (product : ProductId) (requests : List Request) :
    ((gather product (Arrival.ofBatch requests)).newestFirst.map (·.position)).Nodup := by
  show (List.map _ (List.reverse _)).Nodup
  rw [List.map_reverse, List.nodup_reverse, List.map_map]
  exact (ofBatch_positions_nodup requests).sublist (List.filter_sublist.map _)

/-- A demand in the ledger is what was gathered for its product, and so it can be shrunk. -/
theorem shrink_gathered (n : Nat) {d : Demand} (hd : d ∈ (merge requests).demands) :
    ∃ lost kept,
      Fitted n (gather d.product (Arrival.ofBatch requests)).newestFirst lost kept ∧
      (d.shrink n).1.Perm (lost.map (·.position)) ∧
      (d.shrink n).2 = ⟨d.product, total kept, kept⟩ := by
  obtain ⟨lost, kept, hfit, hperm, hshrunk⟩ := shrink_fitted n
    (gather_quantity d.product (Arrival.ofBatch requests)) (gather_pos _ _)
  rw [← (merge_collects requests).eq_gather d hd] at hperm hshrunk
  exact ⟨lost, kept, hfit, hperm, hshrunk⟩

/-- Only items that ask for a product are given up when its demand is shrunk. -/
theorem exists_asking_of_mem_shrink {d : Demand} {n : Nat} {p : Position}
    (hd : d ∈ (merge requests).demands) (hp : p ∈ (d.shrink n).1) :
    ∃ a ∈ asking d.product (Arrival.ofBatch requests), a.position = p := by
  obtain ⟨lost, kept, hfit, hperm, -⟩ := shrink_gathered n hd
  obtain ⟨c, hc, rfl⟩ := List.mem_map.mp (hperm.mem_iff.mp hp)
  have hmem : c ∈ (gather d.product (Arrival.ofBatch requests)).newestFirst := by
    rw [hfit.append_eq]
    exact List.mem_append_left _ hc
  obtain ⟨a, ha, rfl⟩ := List.mem_map.mp (List.mem_reverse.mp hmem)
  exact ⟨a, ha, rfl⟩

/-- An item is given up exactly when the demand for its own product gives it up. -/
theorem position_mem_evicted {d : Demand} {a : Arrival} (hd : d ∈ (merge requests).demands)
    (ha : a ∈ asking d.product (Arrival.ofBatch requests)) :
    a.position ∈ (ofBatch requests stock).evicted ↔
      a.position ∈ (d.shrink (available stock d.product).toNat).1 := by
  rw [mem_evicted]
  constructor
  · rintro ⟨e, he, hmem⟩
    -- whichever demand gives up the position, an item at that position asked for its product
    obtain ⟨b, hb, hpos⟩ := exists_asking_of_mem_shrink he hmem
    obtain ⟨hb, hbp⟩ := mem_asking.mp hb
    obtain ⟨ha, hap⟩ := mem_asking.mp ha
    obtain rfl := eq_of_position_eq hb ha hpos
    obtain rfl := eq_of_product_eq he hd (hbp.symm.trans hap)
    exact hmem
  · intro hmem
    exact ⟨d, hd, hmem⟩

/-- **What is left of a demand.** The demand for a product keeps the longest beginning that fits
into the stock, and the items that survive are those that it keeps. -/
theorem exists_fitted {e : Demand} (he : e ∈ (ofBatch requests stock).demands) :
    ∃ lost kept, Fitted (available stock e.product).toNat
        (gather e.product (Arrival.ofBatch requests)).newestFirst lost kept ∧
      e = ⟨e.product, total kept, kept⟩ ∧
      kept = ((surviving (ofBatch requests stock)
        (asking e.product (Arrival.ofBatch requests))).map contribution).reverse := by
  obtain ⟨d, hd, rfl⟩ := mem_demands.mp he
  obtain ⟨lost, kept, hfit, hperm, hshrunk⟩ :=
    shrink_gathered (available stock d.product).toNat hd
  rw [shrink_product]
  refine ⟨lost, kept, hfit, hshrunk, ?_⟩
  -- both sides filter the same arrivals, and they filter alike
  rw [← hfit.filter_not_lost (gather_positions_nodup d.product requests)]
  show List.filter _ (List.reverse _) = _
  rw [List.filter_reverse, List.filter_map]
  congr 2
  refine List.filter_congr fun a ha => ?_
  have hmem := (mem_asking.mp ha).1
  rw [Bool.eq_iff_iff, Bool.not_eq_true', ← Bool.not_eq_true, isEvicted_iff hmem,
    position_mem_evicted hd ha, hperm.mem_iff]
  exact decide_eq_true_iff

/-! ## Pieces that survive -/

/-- The items that survive. -/
def survivors (r : Resolution) (requests : List Request) : List Item :=
  (r.surviving (Arrival.ofBatch requests)).map (·.item)

theorem pieces_survivors (r : Resolution) (product : ProductId) (as : List Arrival) :
    pieces product ((r.surviving as).map (·.item)) =
      total ((r.surviving (asking product as)).map contribution) := by
  unfold pieces total surviving asking
  rw [List.filter_map, List.map_map, List.map_map, List.filter_filter, List.filter_filter]
  congr 2
  exact List.filter_congr fun a _ => Bool.and_comm _ _

/-- **The stock is reduced by what is sold**: what is left of a demand is what the surviving items
of its product come to. -/
theorem quantity_eq_pieces {e : Demand} (he : e ∈ (ofBatch requests stock).demands) :
    e.quantity = pieces e.product (survivors (ofBatch requests stock) requests) := by
  obtain ⟨lost, kept, -, heq, hkept⟩ := exists_fitted he
  unfold survivors
  rw [pieces_survivors, ← total_reverse, ← hkept, heq]

/-- **The stock has enough for what is left of a demand.** -/
theorem quantity_le_available {e : Demand} (he : e ∈ (ofBatch requests stock).demands) :
    e.quantity ≤ (available stock e.product).toNat := by
  obtain ⟨lost, kept, hfit, heq, -⟩ := exists_fitted he
  rw [heq]
  exact hfit.total_le

/-- The number of pieces that the stock of a product is reduced by fits into its 32 bits. -/
theorem toNat_decrement {e : Demand} (he : e ∈ (ofBatch requests stock).demands) :
    (UInt32.ofNat (min e.quantity (UInt32.size - 1))).toNat = e.quantity := by
  have hle := quantity_le_available he
  have hlt := (available stock e.product).toNat_lt_size
  rw [Nat.min_eq_left (by omega)]
  exact UInt32.toNat_ofNat_of_lt' (by omega)

theorem map_product_demands (requests : List Request) (stock : List StockRow) :
    (ofBatch requests stock).demands.map (·.product) = (merge requests).products := by
  show List.map _ (List.map _ (List.map _ _)) = List.map _ _
  rw [List.map_map, List.map_map]
  exact List.map_congr_left fun d _ => shrink_product _ d

end Resolution

end Checkout
