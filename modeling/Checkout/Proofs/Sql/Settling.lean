import Checkout.Proofs.Batch.Withdrawal
import Checkout.Proofs.Sql.Actions

/-!
# Settling on a relational server

On a relational server whose tables hold the contents of a store in memory, a transaction turns away
the same requests and sells the same orders as in memory, and the tables then hold the contents that
it leads to in memory (`Yields.settle`).
-/

namespace Checkout

/-- All that is stored of the order is held without loss. -/
structure Order.IsKept (o : Order) : Prop where
  header : o.toHeader.IsKept
  items : ∀ i ∈ o.items, i.IsKept

namespace Contents

variable {c : Contents} {requests : List Request}

/-- What is sold to requests that are kept is kept. -/
theorem isKept_of_mem_sales (hkept : ∀ r ∈ requests, r.IsKept) {o : Order}
    (ho : o ∈ c.sales requests) : o.IsKept := by
  obtain ⟨index, request, hrequest, rfl, -⟩ := Batch.mem_survivingOrders ho
  have hr := hkept request (List.mem_of_getElem? hrequest)
  refine ⟨hr.header, fun i hi => ?_⟩
  exact hr.items i ((Resolution.survivingItems_sublist _ _ _).subset hi)

end Contents

/-- A ledger asks no more of the stock than what is available of its products. -/
theorem Ledger.resolve_congr {l : Ledger} {stock stock' : List StockRow}
    (h : ∀ p ∈ l.products, available stock p = available stock' p) :
    l.resolve stock = l.resolve stock' := by
  have hshrunk : (l.demands.map fun d => d.shrink (available stock d.product).toNat) =
      l.demands.map fun d => d.shrink (available stock' d.product).toNat := by
    refine List.map_congr_left fun d hd => ?_
    rw [h d.product (List.mem_map_of_mem hd)]
  unfold resolve
  rw [hshrunk]

namespace Sql

open Batch Connection

variable {π ρ : Type} {db : Database π} {view : π → Server} {t₀ : Tables} {P : Tables → Prop}
  {c : Contents} {orders : List Order} {requests : List Request}

/-! ## Inside a transaction -/

namespace Yields

/-- Requests clash with the tables if they clash with the contents. -/
theorem persistedClashes (hdb : Relational db view) (hsound : c.Sound)
    {Q : List (OrderId × CheckoutError) → Tables → Prop}
    (h : ∀ t, P t → t.HoldsOrders c ∧ Q (c.turnedAway requests) t) :
    Yields view t₀ P (persistedClashes (store db.recorded) requests) Q := by
  unfold Batch.persistedClashes
  refine Yields.bind (Q := fun found t => P t ∧
      ∀ id, id ∈ found ↔ toString id ∈ t.ids .orders ∧ id ∈ requests.map (·.order))
    (.existingIds hdb .orders _ _ fun t hp found hfound => ⟨hp, hfound⟩) fun orders => ?_
  refine Yields.bind (Q := fun found t => P t ∧
      (∀ id, id ∈ orders ↔ toString id ∈ t.ids .orders ∧ id ∈ requests.map (·.order)) ∧
      ∀ id, id ∈ found ↔
        toString id ∈ t.ids .orderItems ∧ id ∈ requests.flatMap (·.items.map (·.id)))
    (.existingIds hdb .orderItems _ _ ?_) fun items => .pure _ ?_
  · rintro t ⟨hp, horders⟩ found hfound
    exact ⟨hp, horders, hfound⟩
  · rintro t ⟨hp, horders, hitems⟩
    obtain ⟨hholds, hq⟩ := h t hp
    have hturned : requests.filterMap (fun r =>
        (Batch.clash (.ofList orders) (.ofList items) r).map (r.order, ·)) =
          c.turnedAway requests := by
      refine List.filterMap_congr fun r hr => ?_
      rw [← Contents.clash_ofList hr]
      congr 1
      apply clash_congr
      · rw [Std.ExtTreeSet.mem_ofList, Std.ExtTreeSet.mem_ofList, List.contains_iff_mem,
          List.contains_iff_mem, horders, hholds.mem_ids_orders hsound, List.mem_filter, and_comm]
      · intro i _
        rw [Std.ExtTreeSet.mem_ofList, Std.ExtTreeSet.mem_ofList, List.contains_iff_mem,
          List.contains_iff_mem, hitems, hholds.mem_ids_orderItems, List.mem_filter, and_comm]
    rw [hturned]
    exact hq

/-- Orders that fit the contents are stored and read back. -/
theorem persist (hdb : Relational db view) (hsound : c.Sound) (c' : Contents)
    {Q : List Order → Tables → Prop}
    (h : ∀ t, P t → t.HoldsOrders c ∧ c.Fits orders ∧ (∀ o ∈ orders, o.IsKept) ∧
      c.Sale orders c' ∧ ∀ t' found, t'.products = t.products → t'.HoldsOrders c' →
        Found found orders → Q found t') :
    Yields view t₀ P (persist (store db.recorded) orders) Q := by
  unfold Batch.persist
  refine Yields.bind (Q := fun _ t' => ∃ t, P t ∧
      t' = { t with orders := t.orders ++ orders.map fun o => .of o.toHeader })
    (.insertOrders hdb ?_) fun _ => ?_
  · intro t hp
    obtain ⟨hholds, hfit, hkept, -⟩ := h t hp
    exact ⟨hholds.ids_orders_nodup hsound hfit, fun o ho => (hkept o ho).header, t, hp, rfl⟩
  refine Yields.bind (Q := fun _ t' => ∃ t, P t ∧ t'.products = t.products ∧ t'.HoldsOrders c')
    (.insertItems hdb ?_) fun _ => ?_
  · rintro _ ⟨t, hp, rfl⟩
    obtain ⟨hholds, hfit, hkept, hsale, -⟩ := h t hp
    refine ⟨hholds.ids_orderItems_nodup hsound hfit, ?_, ?_, hholds.ascending, ?_⟩
    · intro i hi
      obtain ⟨o, ho, hio⟩ := List.mem_flatMap.mp hi
      rw [hfit.item_order o ho i hio]
      refine List.mem_map.mpr ⟨.of o.toHeader, List.mem_append_right _ ?_, rfl⟩
      exact List.mem_map.mpr ⟨o, ho, rfl⟩
    · intro i hi
      obtain ⟨o, ho, hio⟩ := List.mem_flatMap.mp hi
      exact (hkept o ho).items i hio
    · intro new hstores hascending
      have hheaders : ∀ o ∈ orders, o.toHeader.IsKept := fun o ho => (hkept o ho).header
      exact ⟨t, hp, rfl, hholds.sale hsound hfit hheaders hsale hstores hascending⟩
  split
  next hnil =>
    refine .pure _ ?_
    rintro t' ⟨t, hp, hproducts, hholds'⟩
    obtain ⟨-, -, -, -, hq⟩ := h t hp
    refine hq t' [] hproducts hholds' ?_
    rw [List.isEmpty_iff.mp hnil]
    refine ⟨List.nodup_nil, ?_, ?_⟩
    all_goals exact fun _ ho => absurd ho List.not_mem_nil
  next hne =>
    refine .fetchOrders hdb (fun hnil => hne (List.isEmpty_iff.mpr hnil)) ?_
    rintro t' ⟨t, hp, hproducts, hholds'⟩
    obtain ⟨-, hfit, -, hsale, hq⟩ := h t hp
    have hstored : ∀ o ∈ orders, c'.order? o.id = some o :=
      fun o ho => hsale.order?_of_mem hsound hfit ho
    exact ⟨hholds'.shows hfit.ids_nodup hstored hfit.items_ne_nil,
      fun found hfound => hq t' found hproducts hholds' hfound⟩

/-- **What happens inside a transaction**: the same requests are turned away as in memory, and the
same orders are sold. -/
theorem settle (hdb : Relational db view) (hsound : c.Sound) (hsep : Separate requests)
    (hkept : ∀ r ∈ requests, r.IsKept) {c' : Contents}
    (hsale : c.Sale (c.sales (c.admitted requests)) c') :
    Yields view t₀ (·.Holds c) (settle (store db.recorded) requests) (fun s t => t.Holds c' ∧
      s.rejected = c.turnedAway requests ∧
      Found s.persisted (c.sales (c.admitted requests))) := by
  have hfit := Contents.fits_sales_admitted (c := c) hsep
  have hcover := c.covers_sales (c.admitted requests)
  have hsold : ∀ o ∈ c.sales (c.admitted requests), o.IsKept := fun o ho =>
    Contents.isKept_of_mem_sales (fun r hr => hkept r ((c.admitted_sublist requests).subset hr)) ho
  unfold Batch.settle
  refine Yields.bind (Q := fun rejected t => t.Holds c ∧ rejected = c.turnedAway requests)
    (.persistedClashes hdb hsound fun t ht => ⟨ht.toHoldsOrders, ht, rfl⟩) fun rejected => ?_
  dsimp only
  have hadmitted : rejected = c.turnedAway requests →
      (requests.filter fun r => !rejected.any (·.1 = r.order)) = c.admitted requests := by
    rintro rfl
    exact Contents.filter_not_turnedAway hsep.orders_nodup
  generalize (requests.filter fun r => !rejected.any (·.1 = r.order)) = admitted at hadmitted ⊢
  split
  next hnil =>
    refine .pure _ ?_
    rintro t ⟨hholds, hrejected⟩
    have hnone : c.sales (c.admitted requests) = [] := by
      rw [← hadmitted hrejected, List.isEmpty_iff.mp hnil]
      rfl
    rw [hnone] at hsale ⊢
    refine ⟨hholds.of_nil hsound hsale, hrejected, List.nodup_nil, ?_, ?_⟩
    all_goals exact fun _ ho => absurd ho List.not_mem_nil
  next =>
    refine Yields.bind (Q := fun stock t => t.Holds c ∧ rejected = c.turnedAway requests ∧
        (Ledger.merge admitted).resolve stock = c.resolution (c.admitted requests))
      (.fetchStock hdb fun t ht => ⟨ht.1.toHoldsStock, ?_⟩) fun stock => ?_
    · rintro stock hstock
      obtain ⟨hholds, hrejected⟩ := ht
      refine ⟨hholds, hrejected, ?_⟩
      rw [hadmitted hrejected] at hstock ⊢
      refine Ledger.resolve_congr fun p hp => ?_
      rw [hstock p hp, Contents.available_rows hp]
    refine Yields.bind (Q := fun _ t => t.HoldsStock c' ∧ t.HoldsOrders c ∧
        rejected = c.turnedAway requests ∧
        (Ledger.merge admitted).resolve stock = c.resolution (c.admitted requests))
      (.decrementStock hdb ?_) fun _ => ?_
    · rintro t ⟨hholds, hrejected, hresolution⟩
      rw [hresolution]
      refine ⟨?_, hholds.toHoldsStock.sale hcover hsale, ?_, hrejected, rfl⟩
      · intro d hd row hrow hid
        obtain ⟨p, hq, hp⟩ := (hholds.products row).mp hrow
        obtain rfl : p = d.product := Identifier.toString_injective (hp.symm.trans hid)
        exact hcover.quantity_le d hd _ hq
      · exact ⟨hholds.orders, hholds.orders_nodup, hholds.header_kept, hholds.items,
          hholds.ascending⟩
    refine Yields.bind (Q := fun found t => t.Holds c' ∧ rejected = c.turnedAway requests ∧
        Found found (c.sales (c.admitted requests))) (.persist hdb hsound c' ?_) fun found => ?_
    · rintro t ⟨hstock, hholds, hrejected, hresolution⟩
      rw [hresolution, hadmitted hrejected]
      refine ⟨hholds, hfit, hsold, hsale, fun t' found hproducts hholds' hfound => ?_⟩
      refine ⟨⟨⟨?_, ?_⟩, hholds'⟩, hrejected, hfound⟩
      · rw [hproducts]
        exact hstock.products
      · show (t'.products.map _).Nodup
        rw [hproducts]
        exact hstock.products_nodup
    · refine .pure _ ?_
      rintro t ⟨hholds, hrejected, hfound⟩
      refine ⟨hholds, hrejected, ?_⟩
      rw [foldl_index [] found hfound.ids_nodup, List.nil_append]
      exact hfound

end Yields

end Sql

end Checkout
