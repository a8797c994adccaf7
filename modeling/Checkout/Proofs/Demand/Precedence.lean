import Checkout.Proofs.Demand.Survival

/-!
# Who gets the pieces

Of the items of a batch that ask for a product, those that came first get it. So the resolution can
be read off the sequence of the items alone: an item is given up exactly if the stock does not do
for it together with all that asked for its product before (`isEvicted_iff_lt_pieces`). What comes
after it does not matter. `served_in_sequence` is the same for the items of one request, place by
place, and says what the request is left with.
-/

namespace Checkout

open Arrival

namespace Demand

variable {available : Nat} {c : Contribution} {newer older lost kept : List Contribution}

/-- A contribution is lost exactly if it does not fit together with those that came before it. -/
theorem Fitted.position_mem_lost_iff (h : Fitted available (newer ++ c :: older) lost kept)
    (hnd : ((newer ++ c :: older).map (·.position)).Nodup) :
    c.position ∈ lost.map (·.position) ↔ available < total (c :: older) := by
  have hcut := h.append_eq
  constructor
  · intro hlost
    by_contra hle
    have hsuffix : c :: older <:+ kept :=
      h.longest _ (List.suffix_append _ _) (Nat.le_of_not_lt hle)
    rw [hcut, List.map_append] at hnd
    have hdisjoint := (List.nodup_append.mp hnd).2.2
    exact hdisjoint _ hlost _ (List.mem_map_of_mem (hsuffix.subset List.mem_cons_self)) rfl
  · intro hlt
    have hle := h.total_le
    -- the cut is either behind `c`, and then `c` is lost, or all from `c` on is kept and fits
    rcases List.append_eq_append_iff.mp hcut with ⟨between, rfl, hrest⟩ | ⟨between, rfl, rfl⟩
    · cases between with
      | nil =>
          rw [List.nil_append] at hrest
          rw [← hrest] at hle
          omega
      | cons d between =>
          obtain ⟨rfl, -⟩ := List.cons.inj hrest
          simp
    · rw [total_append] at hle
      omega

end Demand

theorem pieces_map_item (product : ProductId) (as : List Arrival) :
    pieces product (as.map (·.item)) = total ((asking product as).map contribution) := by
  unfold pieces total asking
  rw [List.filter_map, List.map_map, List.map_map]
  rfl

namespace Resolution

open Ledger

variable {requests : List Request} {stock : List StockRow}

/-- **An item is given up exactly if it does not fit** together with all items that asked for its
product before. -/
theorem isEvicted_iff_lt_pieces {a : Arrival} {earlier later : List Arrival}
    (h : Arrival.ofBatch requests = earlier ++ a :: later) :
    (ofBatch requests stock).isEvicted a.position = true ↔
      (available stock a.item.product).toNat <
        pieces a.item.product ((earlier ++ [a]).map (·.item)) := by
  have ha : a ∈ Arrival.ofBatch requests := by simp [h]
  obtain ⟨d, hd, hproduct⟩ : ∃ d ∈ (merge requests).demands, d.product = a.item.product :=
    List.mem_map.mp (((merge_collects requests).mem_products _).mpr (List.mem_map_of_mem ha))
  have hasking : a ∈ asking d.product (Arrival.ofBatch requests) :=
    mem_asking.mpr ⟨ha, hproduct.symm⟩
  obtain ⟨lost, kept, hfit, hperm, -⟩ :=
    shrink_gathered (available stock d.product).toNat hd
  -- the contributions, the last one first, with that of `a` in their middle
  have hgather : (Demand.gather d.product (Arrival.ofBatch requests)).newestFirst =
      ((asking d.product later).map contribution).reverse ++ a.contribution ::
        ((asking d.product earlier).map contribution).reverse := by
    simp [Demand.gather, h, asking, hproduct]
  have hnd := gather_positions_nodup d.product requests
  rw [hgather] at hfit hnd
  have hsum : pieces a.item.product ((earlier ++ [a]).map (·.item)) =
      total (a.contribution :: ((asking d.product earlier).map contribution).reverse) := by
    rw [pieces_map_item, hproduct]
    simp [asking, Nat.add_comm]
  rw [isEvicted_iff ha, position_mem_evicted hd hasking, hperm.mem_iff, hsum, ← hproduct]
  exact hfit.position_mem_lost_iff hnd

/-- An item is kept exactly if the stock does for it together with all that asked for its product
before it: those of the requests before its own, and those before it in its own request. -/
theorem isEvicted_eq_false_iff (stock : List StockRow) {r i : Nat} {request : Request}
    {item : Item} (hr : requests[r]? = some request) (hi : request.items[i]? = some item) :
    (ofBatch requests stock).isEvicted ⟨r, i⟩ = false ↔
      pieces item.product
        ((requests.take r).flatMap (·.items) ++ request.items.take (i + 1)) ≤
          (available stock item.product).toNat := by
  obtain ⟨earlier, later, hsplit, hearlier⟩ := Arrival.ofBatch_split hr hi
  have hsofar : (earlier ++ [Arrival.mk ⟨r, i⟩ item]).map (·.item) =
      (requests.take r).flatMap (·.items) ++ request.items.take (i + 1) := by
    rw [List.map_append, hearlier, List.take_add_one, hi, List.append_assoc]
    rfl
  rw [← Bool.not_eq_true, isEvicted_iff_lt_pieces hsplit, hsofar, Nat.not_lt]

/-- **The resolution in closed form.** An item is kept exactly if the pieces of its product that
have been asked for up to and with it are in stock; and what is left of a request is its items, in their
own sequence, without those that are given up. -/
theorem served_in_sequence (requests : List Request) (stock : List StockRow)
    (r : Fin requests.length) :
    let request := requests[r]
    let resolution := (merge requests).resolve stock
    (∀ i : Fin request.items.length,
      let item := request.items[i]
      let asked := (requests.take r).flatMap (·.items) ++ request.items.take (i + 1)
      ∃ n, Stocked item.product stock n ∧
        (resolution.isEvicted ⟨r, i⟩ = false ↔ pieces item.product asked ≤ n.toNat) ∧
        (item ∈ resolution.survivingItems r request ↔ pieces item.product asked ≤ n.toNat)) ∧
      resolution.survivingItems r request =
        (List.range request.items.length).filterMap fun i =>
          if resolution.isEvicted ⟨r, i⟩ then none else request.items[i]? := by
  intro request resolution
  refine ⟨fun i => ?_, survivingItems_eq_filterMap resolution r request⟩
  have hr : requests[(r : Nat)]? = some request := List.getElem?_eq_getElem r.isLt
  have hi : request.items[(i : Nat)]? = some request.items[i] := List.getElem?_eq_getElem i.isLt
  have hkept := isEvicted_eq_false_iff stock hr hi
  exact ⟨_, available_eq_iff.mp rfl, hkept, (mem_survivingItems resolution hi r).trans hkept⟩

end Resolution

end Checkout
