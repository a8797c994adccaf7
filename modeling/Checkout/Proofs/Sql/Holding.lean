import Checkout.Proofs.Batch.Sales
import Checkout.Proofs.Sql.Join

/-!
# Tables that hold the contents of a store

`Tables.Holds` relates tables to the contents of a store in memory. Tables that hold the contents
show the orders that are in them (`HoldsOrders.shows`), and after the changes that a sale makes to
them they hold the contents after the sale (`HoldsStock.sale`, `HoldsOrders.sale`).
-/

namespace Checkout.Sql

/-- The table of products has a row for each stock row, and no other. -/
structure Tables.HoldsStock (t : Tables) (c : Contents) : Prop where
  products : ∀ row, row ∈ t.products ↔ ∃ p, c.stock? p = some row.quantity ∧ row.id = toString p
  products_nodup : (t.ids .products).Nodup

/-- The other tables have a row for each header, and one for each item in the sequence in which the
items were added. Nothing is lost in them. -/
structure Tables.HoldsOrders (t : Tables) (c : Contents) : Prop where
  orders : ∀ row, row ∈ t.orders ↔ ∃ id h, c.header? id = some h ∧ row = .of h
  orders_nodup : (t.ids .orders).Nodup
  header_kept : ∀ id h, c.header? id = some h → h.IsKept
  items : List.Forall₂ ItemRow.Stores t.items c.items
  ascending : t.items.Pairwise (·.seq < ·.seq)

/-- The tables hold the contents of a store, and nothing else. -/
structure Tables.Holds (t : Tables) (c : Contents) : Prop extends
  t.HoldsStock c, t.HoldsOrders c

variable {t : Tables} {c c' : Contents} {orders : List Order} {ds : List Decrement}

/-! ## Looking at the tables -/

namespace Tables.HoldsOrders

theorem mem_ids_orders (h : t.HoldsOrders c) (hsound : c.Sound) {id : OrderId} :
    toString id ∈ t.ids .orders ↔ (c.header? id).isSome := by
  show toString id ∈ t.orders.map (·.id) ↔ _
  rw [List.mem_map]
  constructor
  · rintro ⟨row, hrow, heq⟩
    obtain ⟨id', hd, hhd, rfl⟩ := (h.orders row).mp hrow
    obtain rfl : hd.id = id := Identifier.toString_injective heq
    rw [hsound.header_id id' hd hhd, hhd]
    rfl
  · intro hsome
    obtain ⟨hd, hhd⟩ := Option.isSome_iff_exists.mp hsome
    exact ⟨_, (h.orders _).mpr ⟨id, hd, hhd, rfl⟩, congrArg toString (hsound.header_id id hd hhd)⟩

theorem ids_orderItems (h : t.HoldsOrders c) :
    t.ids .orderItems = c.items.map (toString ·.id) := by
  show t.items.map (·.id) = _
  rw [← List.forall₂_eq_eq_eq, List.forall₂_map_left_iff, List.forall₂_map_right_iff]
  exact h.items.imp fun _ _ hrow => hrow.id

theorem mem_ids_orderItems (h : t.HoldsOrders c) {id : ItemId} :
    toString id ∈ t.ids .orderItems ↔ c.hasItem id = true := by
  rw [h.ids_orderItems, Contents.hasItem_iff, List.mem_map]
  simp only [Identifier.toString_injective.eq_iff]

/-- Orders that are in the contents are shown by the tables. -/
theorem shows (h : t.HoldsOrders c) (hnd : (orders.map (·.id)).Nodup)
    (horder : ∀ o ∈ orders, c.order? o.id = some o) (hne : ∀ o ∈ orders, o.items ≠ []) :
    t.Shows orders := by
  have hparts : ∀ o ∈ orders, c.header? o.id = some o.toHeader ∧
      c.items.filter (·.order = o.id) = o.items := by
    intro o ho
    obtain ⟨hd, hhd, heq⟩ := Option.map_eq_some_iff.mp (horder o ho)
    exact ⟨hhd.trans (congrArg (fun o => some o.toHeader) heq), congrArg Order.items heq⟩
  refine ⟨h.orders_nodup, h.ascending, hnd, ?_, ?_, ?_, hne, ?_⟩
  · intro o ho
    exact (h.orders _).mpr ⟨o.id, _, (hparts o ho).1, rfl⟩
  · intro o ho
    exact h.header_kept o.id _ (hparts o ho).1
  · intro o ho
    rw [← (hparts o ho).2]
    exact forall₂_itemsOf h.items o.id
  · intro o ho i hi
    rw [← (hparts o ho).2] at hi
    exact of_decide_eq_true (List.mem_filter.mp hi).2

end Tables.HoldsOrders

/-! ## Sales -/

@[simp] theorem ProductRow.id_reduced (ds : List Decrement) (row : ProductRow) :
    (row.reduced ds).id = row.id := by
  unfold reduced
  split <;> rfl

namespace Tables

/-- What a sale leaves of a product is what is left of its row. -/
theorem stock?_reduced (hcover : c.Covers ds (Contents.sold orders)) (hsale : c.Sale orders c')
    (p : ProductId) :
    c'.stock? p = (c.stock? p).map fun q => (ProductRow.reduced ds ⟨toString p, q⟩).quantity := by
  have hstock := hsale.stock p
  cases hq : c.stock? p with
  | none =>
      rw [hq] at hstock
      exact Option.map_eq_none_iff.mp hstock
  | some q =>
      rw [hq] at hstock
      obtain ⟨q', hq', hsum⟩ := Option.map_eq_some_iff.mp hstock
      dsimp only at hsum
      rw [hq', Option.map_some]
      congr 1
      apply UInt32.toNat.inj
      unfold ProductRow.reduced
      split
      next d hfind =>
        have hd := List.mem_of_find?_eq_some hfind
        have hproduct : d.product = p :=
          Identifier.toString_injective (by simpa using List.find?_some hfind)
        have hle := hcover.quantity_le d hd q (hproduct ▸ hq)
        have hpieces := hcover.quantity_eq d hd
        rw [hproduct] at hpieces
        show q'.toNat = (q - d.quantity).toNat
        rw [UInt32.toNat_sub_of_le _ _ hle]
        omega
      next hfind =>
        have hzero : pieces p (Contents.sold orders) = 0 := by
          refine pieces_eq_zero fun i hi heq => ?_
          obtain ⟨d, hd, hproduct⟩ := List.mem_map.mp (hcover.product_mem i hi)
          refine List.find?_eq_none.mp hfind d hd (decide_eq_true ?_)
          rw [hproduct, heq]
        show q'.toNat = q.toNat
        omega

/-- **Reducing the rows holds the stock after a sale.** -/
theorem HoldsStock.sale (h : t.HoldsStock c) (hcover : c.Covers ds (Contents.sold orders))
    (hsale : c.Sale orders c') :
    HoldsStock { t with products := t.products.map (.reduced ds) } c' := by
  refine ⟨fun row => ?_, ?_⟩
  · rw [List.mem_map]
    constructor
    · rintro ⟨row, hrow, rfl⟩
      obtain ⟨p, hq, hid⟩ := (h.products row).mp hrow
      refine ⟨p, ?_, (ProductRow.id_reduced ds row).trans hid⟩
      rw [stock?_reduced hcover hsale, hq, ← hid]
      rfl
    · rintro ⟨p, hq', hid⟩
      rw [stock?_reduced hcover hsale] at hq'
      obtain ⟨q, hq, heq⟩ := Option.map_eq_some_iff.mp hq'
      refine ⟨⟨toString p, q⟩, (h.products _).mpr ⟨p, hq, rfl⟩, ?_⟩
      rcases row with ⟨id, quantity⟩
      have hidr := ProductRow.id_reduced ds ⟨toString p, q⟩
      generalize ProductRow.reduced ds ⟨toString p, q⟩ = row at heq hidr
      rcases row with ⟨id', quantity'⟩
      simp_all
  · have hids : (t.products.map (ProductRow.reduced ds)).map (·.id) = t.products.map (·.id) := by
      rw [List.map_map]
      exact List.map_congr_left fun row _ => ProductRow.id_reduced ds row
    show ((t.products.map (ProductRow.reduced ds)).map (·.id)).Nodup
    rw [hids]
    exact h.products_nodup

namespace HoldsOrders

/-- The identifiers of new orders are new to the table. -/
theorem ids_orders_nodup (h : t.HoldsOrders c) (hsound : c.Sound) (hfit : c.Fits orders) :
    (t.ids .orders ++ orders.map (toString ·.id)).Nodup := by
  have hids : (orders.map (toString ·.id)).Nodup := by
    have hmap := hfit.ids_nodup.map Identifier.toString_injective
    rwa [List.map_map] at hmap
  refine List.nodup_append.mpr ⟨h.orders_nodup, hids, ?_⟩
  rintro _ hold _ hnew rfl
  obtain ⟨o, ho, rfl⟩ := List.mem_map.mp hnew
  have hsome := (h.mem_ids_orders hsound).mp hold
  rw [hfit.id_new o ho] at hsome
  cases hsome

/-- The identifiers of new items are new to the table. -/
theorem ids_orderItems_nodup (h : t.HoldsOrders c) (hsound : c.Sound) (hfit : c.Fits orders) :
    (t.ids .orderItems ++ (Contents.sold orders).map (toString ·.id)).Nodup := by
  have hnodup : ((c.items ++ Contents.sold orders).map (·.id)).Nodup := by
    rw [List.map_append]
    refine List.nodup_append.mpr ⟨hsound.itemIds_nodup, hfit.itemIds_nodup, ?_⟩
    rintro _ hold _ hnew rfl
    obtain ⟨i, hi, heq⟩ := List.mem_map.mp hnew
    obtain ⟨j, hj, hid⟩ := List.mem_map.mp hold
    exact hfit.itemId_new i hi j hj (hid.trans heq.symm)
  have hmap := hnodup.map Identifier.toString_injective
  rw [List.map_map] at hmap
  rw [h.ids_orderItems, ← List.map_append]
  exact hmap

/-- **Inserting the rows of new orders holds the orders after a sale.** -/
theorem sale {new : List ItemRow} (h : t.HoldsOrders c) (hsound : c.Sound)
    (hfit : c.Fits orders) (hkept : ∀ o ∈ orders, o.toHeader.IsKept) (hsale : c.Sale orders c')
    (hnew : List.Forall₂ ItemRow.Stores new (Contents.sold orders))
    (hascending : (t.items ++ new).Pairwise (·.seq < ·.seq)) :
    HoldsOrders { t with
      orders := t.orders ++ orders.map fun o => .of o.toHeader
      items := t.items ++ new } c' := by
  -- a header is either that of a new order or an old one
  have hcases : ∀ id hd, c'.header? id = some hd ↔
      (∃ o ∈ orders, o.id = id ∧ o.toHeader = hd) ∨ c.header? id = some hd := by
    intro id hd
    rw [hsale.header?]
    constructor
    · intro heq
      rw [Option.or_eq_some_iff, Option.map_eq_some_iff] at heq
      rcases heq with ⟨o, ho, rfl⟩ | ⟨-, hold⟩
      · exact .inl ⟨o, List.mem_of_find?_eq_some ho, by simpa using List.find?_some ho, rfl⟩
      · exact .inr hold
    · rintro (⟨o, ho, rfl, rfl⟩ | hold)
      · rw [Order.find?_of_mem hfit.ids_nodup ho]
        rfl
      · have hnot : id ∉ orders.map (·.id) := by
          intro hid
          obtain ⟨o, ho, rfl⟩ := List.mem_map.mp hid
          rw [hfit.id_new o ho] at hold
          cases hold
        rw [Order.find?_of_not_mem hnot]
        exact hold
  refine ⟨fun row => ?_, ?_, ?_, ?_, hascending⟩
  · dsimp only
    rw [List.mem_append, h.orders, List.mem_map]
    constructor
    · rintro (⟨id, hd, hhd, rfl⟩ | ⟨o, ho, rfl⟩)
      · exact ⟨id, hd, (hcases id hd).mpr (.inr hhd), rfl⟩
      · exact ⟨o.id, _, (hcases _ _).mpr (.inl ⟨o, ho, rfl, rfl⟩), rfl⟩
    · rintro ⟨id, hd, hhd, rfl⟩
      rcases (hcases id hd).mp hhd with ⟨o, ho, -, rfl⟩ | hold
      · exact .inr ⟨o, ho, rfl⟩
      · exact .inl ⟨id, hd, hold, rfl⟩
  · show (List.map _ (_ ++ _)).Nodup
    rw [List.map_append, List.map_map]
    exact h.ids_orders_nodup hsound hfit
  · intro id hd hhd
    rcases (hcases id hd).mp hhd with ⟨o, ho, -, rfl⟩ | hold
    · exact hkept o ho
    · exact h.header_kept id hd hold
  · rw [hsale.items]
    exact List.rel_append h.items hnew

end HoldsOrders

/-- Where nothing is sold the tables stay as they are. -/
theorem Holds.of_nil (h : t.Holds c) (hsound : c.Sound) (hsale : c.Sale [] c') : t.Holds c' := by
  have hcover : c.Covers [] (Contents.sold []) := by
    refine ⟨List.nodup_nil, ?_, ?_, ?_, ?_⟩
    all_goals exact fun _ hmem => absurd hmem List.not_mem_nil
  have hstock := h.toHoldsStock.sale hcover hsale
  have horders := h.toHoldsOrders.sale hsound (.nil c) (fun _ ho => absurd ho List.not_mem_nil) hsale
    .nil (by rw [List.append_nil]; exact h.ascending)
  rw [show t.products.map (.reduced []) = t.products from List.map_id' _] at hstock
  rw [List.map_nil, List.append_nil, List.append_nil] at horders
  exact ⟨hstock, horders⟩

end Tables

end Checkout.Sql
