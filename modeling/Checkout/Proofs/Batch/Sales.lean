import Checkout.Proofs.Batch.Screen
import Checkout.Proofs.Demand.Survival
import Checkout.Proofs.Memory.Contents
import Mathlib.Data.List.Find

/-!
# What a batch sells

Read against the contents of a store, requests that exist already clash, and the others are
admitted. The demand of those is resolved against the stock, and the orders made of what survives
are the sales of the batch. All this is computed from the contents alone.

For admitted requests that share no identifier the sales always go through: they fit the contents
(`fits_sales`) and the stock covers them (`covers_sales`).
-/

namespace Checkout

namespace Batch

/-! ## Orders made of what survives -/

variable {r : Resolution} {requests : List Request}

/-- An order that survives is made of surviving items of its request, and there are some. -/
theorem mem_survivingOrders {o : Order} (h : o ∈ survivingOrders r requests) :
    ∃ index request, requests[index]? = some request ∧
      o = request.toOrder (r.survivingItems index request) ∧
      r.survivingItems index request ≠ [] := by
  obtain ⟨⟨request, index⟩, hmem, ho⟩ := List.mem_filterMap.mp h
  dsimp only at ho
  split at ho
  · cases ho
  next hne =>
    cases ho
    exact ⟨index, request, List.mem_zipIdx_iff_getElem?.mp hmem, rfl,
      fun heq => hne (List.isEmpty_iff.mpr heq)⟩

/-- The orders made of what survives of requests that are numbered from `start` on. -/
def survivingFrom (r : Resolution) (start : Nat) (requests : List Request) : List Order :=
  (requests.zipIdx start).filterMap fun (request, index) =>
    let items := r.survivingItems index request
    if items.isEmpty then none else some (request.toOrder items)

theorem survivingFrom_cons (r : Resolution) (start : Nat) (request : Request)
    (requests : List Request) :
    survivingFrom r start (request :: requests) =
      (if (r.survivingItems start request).isEmpty then []
        else [request.toOrder (r.survivingItems start request)]) ++
      survivingFrom r (start + 1) requests := by
  unfold survivingFrom
  rw [List.zipIdx_cons, List.filterMap_cons]
  dsimp only
  by_cases h : (r.survivingItems start request).isEmpty <;> simp [h]

theorem survivingFrom_append (r : Resolution) (start : Nat) (requests later : List Request) :
    survivingFrom r start (requests ++ later) =
      survivingFrom r start requests ++ survivingFrom r (start + requests.length) later := by
  unfold survivingFrom
  rw [List.zipIdx_append, List.filterMap_append]

theorem survivingFrom_ids_sublist (r : Resolution) (start : Nat) (requests : List Request) :
    ((survivingFrom r start requests).map (·.id)).Sublist (requests.map (·.order)) := by
  induction requests generalizing start with
  | nil => exact .refl _
  | cons request requests ih =>
      rw [survivingFrom_cons]
      split
      · exact (ih _).cons _
      · exact (ih _).cons_cons _

theorem survivingOrders_ids_sublist (r : Resolution) (requests : List Request) :
    ((survivingOrders r requests).map (·.id)).Sublist (requests.map (·.order)) :=
  survivingFrom_ids_sublist r 0 requests

/-- The items sold are the items that survive. -/
theorem sold_survivingOrders (r : Resolution) (requests : List Request) :
    Contents.sold (survivingOrders r requests) = r.survivors requests := by
  rw [← r.flatMap_survivingItems, survivingOrders, Contents.sold, List.filterMap_eq_flatMap_toList,
    List.flatMap_assoc]
  refine List.flatMap_congr ?_
  rintro ⟨request, index⟩ -
  cases hitems : r.survivingItems index request <;> simp [hitems, Request.toOrder]

end Batch

namespace Contents

open Batch Ledger

variable {c : Contents} {requests : List Request}

/-! ## Requests that exist already -/

/-- Why a request is turned away by the store, if it is: its order exists, or the first of its items
that does. -/
def clash (c : Contents) (r : Request) : Option CheckoutError :=
  if (c.header? r.order).isSome then some (.duplicateOrder (toString r.order))
  else (r.items.find? fun i => c.hasItem i.id).map fun i => .duplicateItem (toString i.id)

/-- The requests that the store turns away. -/
def turnedAway (c : Contents) (requests : List Request) : List (OrderId × CheckoutError) :=
  requests.filterMap fun r => (c.clash r).map (r.order, ·)

/-- The requests that the store does not turn away. -/
def admitted (c : Contents) (requests : List Request) : List Request :=
  requests.filter fun r => (c.clash r).isNone

theorem clash_eq_none {r : Request} (h : c.clash r = none) :
    c.header? r.order = none ∧ ∀ i ∈ r.items, c.hasItem i.id = false := by
  unfold clash at h
  split at h
  · cases h
  next hr =>
    refine ⟨Option.not_isSome_iff_eq_none.mp hr, fun i hi => ?_⟩
    have hfind := List.find?_eq_none.mp (Option.map_eq_none_iff.mp h) i hi
    simpa using hfind

/-- The store turns requests away as duplicates only. -/
theorem isDuplicate_of_clash {r : Request} {e : CheckoutError} (h : c.clash r = some e) :
    e.isDuplicate := by
  unfold clash at h
  split at h
  · cases h
    rfl
  · obtain ⟨i, -, rfl⟩ := Option.map_eq_some_iff.mp h
    rfl

/-- The answers of the store to both questions are as good as its contents. -/
theorem clash_ofList {r : Request} (hr : r ∈ requests) :
    Batch.clash (.ofList ((requests.map (·.order)).filter fun id => (c.header? id).isSome))
        (.ofList ((requests.flatMap (·.items.map (·.id))).filter c.hasItem)) r = c.clash r := by
  have horder : r.order ∈ (Std.ExtTreeSet.ofList
      ((requests.map (·.order)).filter fun id => (c.header? id).isSome) : IdentifierSet .order) ↔
      (c.header? r.order).isSome := by
    rw [Std.ExtTreeSet.mem_ofList, List.contains_iff_mem, List.mem_filter]
    exact and_iff_right (List.mem_map_of_mem hr)
  have hitem : ∀ i ∈ r.items, i.id ∈ (Std.ExtTreeSet.ofList
      ((requests.flatMap (·.items.map (·.id))).filter c.hasItem) : IdentifierSet .item) ↔
      c.hasItem i.id = true := by
    intro i hi
    rw [Std.ExtTreeSet.mem_ofList, List.contains_iff_mem, List.mem_filter]
    exact and_iff_right (List.mem_flatMap.mpr ⟨r, hr, List.mem_map_of_mem hi⟩)
  unfold Batch.clash clash
  simp only [horder]
  congr 2
  refine List.find?_congr fun i hi => ?_
  rw [Bool.eq_iff_iff, decide_eq_true_iff]
  exact hitem i hi

/-- Requests of different orders are admitted if their orders are not among those turned away. -/
theorem filter_not_turnedAway (h : (requests.map (·.order)).Nodup) :
    (requests.filter fun r => !(c.turnedAway requests).any (·.1 = r.order)) =
      c.admitted requests := by
  refine List.filter_congr fun r hr => ?_
  rw [Bool.eq_iff_iff, Bool.not_eq_true', List.any_eq_false, Option.isNone_iff_eq_none]
  constructor
  · intro hnot
    cases he : c.clash r with
    | none => rfl
    | some e =>
        have hmem : (r.order, e) ∈ c.turnedAway requests :=
          List.mem_filterMap.mpr ⟨r, hr, by rw [he]; rfl⟩
        exact absurd (decide_eq_true rfl) (hnot _ hmem)
  · rintro hnone ⟨id, e⟩ hmem heq
    obtain ⟨r', hr', hsome⟩ := List.mem_filterMap.mp hmem
    obtain ⟨e', he', hpair⟩ := Option.map_eq_some_iff.mp hsome
    cases hpair
    obtain rfl := List.inj_on_of_nodup_map h hr' hr (of_decide_eq_true heq)
    rw [hnone] at he'
    cases he'

/-- Whether a request is turned away can be looked up by its order. -/
theorem find?_turnedAway (c : Contents) {r : Request} (hnd : (requests.map (·.order)).Nodup)
    (hr : r ∈ requests) :
    (c.turnedAway requests).find? (·.1 = r.order) = (c.clash r).map (r.order, ·) := by
  cases hfind : (c.turnedAway requests).find? (·.1 = r.order) with
  | none =>
      cases hclash : c.clash r with
      | none => rfl
      | some e =>
          have hmem : (r.order, e) ∈ c.turnedAway requests :=
            List.mem_filterMap.mpr ⟨r, hr, by rw [hclash]; rfl⟩
          exact absurd (decide_eq_true rfl) (List.find?_eq_none.mp hfind _ hmem)
  | some t =>
      obtain ⟨r', hr', hsome⟩ := List.mem_filterMap.mp (List.mem_of_find?_eq_some hfind)
      obtain ⟨e, hclash, rfl⟩ := Option.map_eq_some_iff.mp hsome
      have hid : r'.order = r.order := by simpa using List.find?_some hfind
      obtain rfl := List.inj_on_of_nodup_map hnd hr' hr hid
      rw [hclash]
      rfl

/-! ## Sales -/

/-- The stock rows of the products that have one. -/
def rows (c : Contents) (products : List ProductId) : List StockRow :=
  products.filterMap fun p => (c.stock? p).map (⟨p, ·⟩)

/-- The demand of the requests, resolved against the stock. -/
def resolution (c : Contents) (requests : List Request) : Resolution :=
  .ofBatch requests (c.rows (merge requests).products)

/-- The orders made of what the requests get. -/
def sales (c : Contents) (requests : List Request) : List Order :=
  survivingOrders (c.resolution requests) requests

/-- What is available is what the contents have in stock. -/
theorem available_rows {products : List ProductId} {p : ProductId} (hp : p ∈ products) :
    available (c.rows products) p = (c.stock? p).getD 0 := by
  unfold available
  cases hfind : (c.rows products).reverse.find? (·.product = p) with
  | some row =>
      have hproduct : row.product = p := by simpa using List.find?_some hfind
      obtain ⟨q, -, hrow⟩ := List.mem_filterMap.mp
        (List.mem_reverse.mp (List.mem_of_find?_eq_some hfind))
      obtain ⟨n, hn, rfl⟩ := Option.map_eq_some_iff.mp hrow
      obtain rfl : q = p := hproduct
      rw [hn]
      rfl
  | none =>
      cases hstock : c.stock? p with
      | none => rfl
      | some n =>
          have hrow : ⟨p, n⟩ ∈ c.rows products :=
            List.mem_filterMap.mpr ⟨p, hp, by rw [hstock]; rfl⟩
          have hnot := List.find?_eq_none.mp hfind _ (List.mem_reverse.mpr hrow)
          exact absurd (decide_eq_true rfl) hnot

theorem quantity_le_stock {d : Demand} (hd : d ∈ (c.resolution requests).demands) :
    d.quantity ≤ ((c.stock? d.product).getD 0).toNat := by
  have hmem : d.product ∈ (merge requests).products := by
    rw [← Resolution.map_product_demands requests]
    exact List.mem_map_of_mem hd
  rw [← available_rows hmem]
  exact Resolution.quantity_le_available hd

/-- **The stock covers the sales.** No decrement takes more than there is, and each takes just what
is sold. -/
theorem covers_sales (c : Contents) (requests : List Request) :
    Covers c (c.resolution requests).decrements (sold (c.sales requests)) := by
  have hproducts : (c.resolution requests).decrements.map (·.product) =
      (merge requests).products := by
    rw [← Resolution.map_product_demands requests (c.rows (merge requests).products)]
    show List.map _ (List.map _ _) = _
    rw [List.map_map]
    rfl
  have hsold : sold (c.sales requests) = (c.resolution requests).survivors requests :=
    sold_survivingOrders _ _
  -- an item that is sold asks for a product of the batch, and there is stock of it
  have hitem : ∀ i ∈ sold (c.sales requests),
      ∃ d ∈ (c.resolution requests).demands, d.product = i.product ∧ 0 < d.quantity := by
    intro i hi
    rw [hsold] at hi
    obtain ⟨a, ha, rfl⟩ := List.mem_map.mp hi
    have hmem : a.item.product ∈ (merge requests).products := by
      refine ((merge_collects requests).mem_products _).mpr ?_
      exact List.mem_map_of_mem (List.mem_filter.mp ha).1
    rw [← Resolution.map_product_demands requests (c.rows (merge requests).products)] at hmem
    obtain ⟨d, hd, hproduct⟩ := List.mem_map.mp hmem
    refine ⟨d, hd, hproduct, ?_⟩
    rw [Resolution.quantity_eq_pieces hd]
    exact pieces_pos hi hproduct.symm
  refine ⟨?_, ?_, ?_, ?_, ?_⟩
  · rw [hproducts]
    exact (merge_collects requests).ascending.products_nodup
  · intro d hd q hq
    obtain ⟨e, he, rfl⟩ := List.mem_map.mp hd
    have hle := quantity_le_stock he
    rw [show c.stock? e.product = some q from hq] at hle
    refine UInt32.le_iff_toNat_le.mpr ?_
    rw [Resolution.toNat_decrement he]
    exact hle
  · intro d hd
    obtain ⟨e, he, rfl⟩ := List.mem_map.mp hd
    rw [Resolution.toNat_decrement he, hsold]
    exact Resolution.quantity_eq_pieces he
  · intro i hi
    obtain ⟨d, hd, hproduct, -⟩ := hitem i hi
    rw [hproducts, ← Resolution.map_product_demands requests, ← hproduct]
    exact List.mem_map_of_mem hd
  · intro i hi
    obtain ⟨d, hd, hproduct, hpos⟩ := hitem i hi
    have hle := quantity_le_stock hd
    rw [hproduct] at hle
    cases hstock : c.stock? i.product with
    | none =>
        rw [hstock] at hle
        exact absurd hpos (Nat.not_lt_of_le hle)
    | some q => rfl

/-- Only items that are asked for are sold. -/
theorem sold_sales_sublist (c : Contents) (requests : List Request) :
    (sold (c.sales requests)).Sublist (requests.flatMap (·.items)) := by
  show (sold (survivingOrders _ _)).Sublist _
  rw [sold_survivingOrders, ← Arrival.map_item_ofRequests 0]
  exact List.filter_sublist.map _

/-- **The sales fit.** The orders sold to requests that share no identifier and do not exist yet
are new and different, and so are their items. -/
theorem fits_sales (hsep : Separate requests) (hnew : ∀ r ∈ requests, c.clash r = none) :
    Fits c (c.sales requests) := by
  have hsub := c.sold_sales_sublist requests
  refine ⟨hsep.orders_nodup.sublist (survivingOrders_ids_sublist _ _), ?_, ?_, ?_,
    hsep.itemIds_nodup.sublist (hsub.map _), ?_⟩
  · intro o ho
    obtain ⟨index, request, hrequest, rfl, -⟩ := mem_survivingOrders ho
    exact (clash_eq_none (hnew request (List.mem_of_getElem? hrequest))).1
  · intro o ho
    obtain ⟨index, request, -, rfl, hne⟩ := mem_survivingOrders ho
    exact hne
  · intro o ho i hi
    obtain ⟨index, request, -, rfl, -⟩ := mem_survivingOrders ho
    exact request.order_eq i ((Resolution.survivingItems_sublist _ _ _).subset hi)
  · intro i hi j hj heq
    obtain ⟨request, hrequest, hir⟩ := List.mem_flatMap.mp (hsub.subset hi)
    have hfalse := (clash_eq_none (hnew request hrequest)).2 i hir
    have htrue : c.hasItem i.id = true := hasItem_iff.mpr ⟨j, hj, heq⟩
    rw [htrue] at hfalse
    cases hfalse

theorem admitted_sublist (c : Contents) (requests : List Request) :
    (c.admitted requests).Sublist requests := List.filter_sublist

theorem clash_of_mem_admitted {r : Request} (h : r ∈ c.admitted requests) : c.clash r = none :=
  Option.isNone_iff_eq_none.mp (List.mem_filter.mp h).2

/-- The sales of those that are admitted fit. -/
theorem fits_sales_admitted (hsep : Separate requests) :
    Fits c (c.sales (c.admitted requests)) :=
  fits_sales (hsep.sublist (c.admitted_sublist requests)) fun _ => clash_of_mem_admitted

end Contents

end Checkout
