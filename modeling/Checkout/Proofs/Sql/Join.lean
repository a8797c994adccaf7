import Checkout.Proofs.Order.Total
import Checkout.Proofs.Sql.Regrouping
import Checkout.Proofs.Sql.Rows

/-!
# Reading orders from a join

The rows of a join, sorted by the number of their items within each order, are regrouped into the
orders that the tables show (`ordersOfRows_joined`). In which sequence the orders come does not
matter.
-/

namespace Checkout

namespace Sql

/-- The orders are there, each row of a header and the rows of its items as they are inserted. -/
structure Tables.Shows (t : Tables) (orders : List Order) : Prop where
  orders_nodup : (t.ids .orders).Nodup
  ascending : t.items.Pairwise (·.seq < ·.seq)
  ids_nodup : (orders.map (·.id)).Nodup
  header : ∀ o ∈ orders, .of o.toHeader ∈ t.orders
  header_kept : ∀ o ∈ orders, o.toHeader.IsKept
  items : ∀ o ∈ orders, List.Forall₂ ItemRow.Stores (t.itemsOf (toString o.id)) o.items
  items_ne_nil : ∀ o ∈ orders, o.items ≠ []
  item_order : ∀ o ∈ orders, ∀ i ∈ o.items, i.order = o.id

/-- The orders have been found, each of them once, and no others. -/
structure Found (found orders : List Order) : Prop where
  ids_nodup : (found.map (·.id)).Nodup
  same : ∀ o ∈ orders, ∃ o' ∈ found, o'.same o = true
  id_mem : ∀ o' ∈ found, o'.id ∈ orders.map (·.id)

variable {t : Tables} {orders : List Order} {o : Order} {row : JoinedRow} {l : List JoinedRow}

theorem order_of_mem_joinedWith {r : OrderRow} (h : row ∈ t.joinedWith r) : row.order = r := by
  unfold Tables.joinedWith at h
  split at h
  · rw [List.mem_singleton.mp h]
  · obtain ⟨i, -, rfl⟩ := List.mem_map.mp h
    rfl

theorem joinedWith_of_nil {r : OrderRow} (h : t.itemsOf r.id = []) :
    t.joinedWith r = [⟨r, none⟩] := if_pos (List.isEmpty_iff.mpr h)

theorem joinedWith_of_ne_nil {r : OrderRow} (h : t.itemsOf r.id ≠ []) :
    t.joinedWith r = (t.itemsOf r.id).map fun i => ⟨r, some i⟩ :=
  if_neg fun hempty => h (List.isEmpty_iff.mp hempty)

theorem exists_of_forall₂ {α β : Type} {P : α → β → Prop} {as : List α} {bs : List β}
    (h : List.Forall₂ P as bs) {a : α} (ha : a ∈ as) : ∃ b ∈ bs, P a b := by
  induction h with
  | nil => cases ha
  | cons hP _ ih =>
      rcases List.mem_cons.mp ha with rfl | ha
      · exact ⟨_, List.mem_cons_self, hP⟩
      · obtain ⟨b, hb, hab⟩ := ih ha
        exact ⟨b, List.mem_cons_of_mem _ hb, hab⟩

namespace Tables.Shows

/-- An order that is shown is joined with its items. -/
theorem joinedWith_of (h : t.Shows orders) (ho : o ∈ orders) :
    t.joinedWith (.of o.toHeader) =
      (t.itemsOf (toString o.id)).map fun i => ⟨.of o.toHeader, some i⟩ := by
  have hne : t.itemsOf (toString o.id) ≠ [] := by
    intro hnil
    have hitems := h.items o ho
    rw [hnil, List.forall₂_nil_left_iff] at hitems
    exact h.items_ne_nil o ho hitems
  exact joinedWith_of_ne_nil hne

/-- A row with the identifier of an order is the row of its header. -/
theorem row_eq (h : t.Shows orders) (ho : o ∈ orders) {r : OrderRow} (hr : r ∈ t.orders)
    (hid : r.id = toString o.id) : r = .of o.toHeader :=
  List.inj_on_of_nodup_map h.orders_nodup hr (h.header o ho) hid

/-- Every row of the join is of one of the orders, and has one of its items. -/
theorem of_mem_joined (h : t.Shows orders)
    (hrow : row ∈ t.joined (orders.map (toString ·.id))) :
    ∃ o ∈ orders, row.order = .of o.toHeader ∧
      ∃ stored, row.item = some stored ∧ stored ∈ t.itemsOf (toString o.id) ∧
        ∃ i ∈ o.items, stored.Stores i := by
  obtain ⟨r, hr, hrow⟩ := List.mem_flatMap.mp hrow
  obtain ⟨hr, hid⟩ := List.mem_filter.mp hr
  obtain ⟨o, ho, hid⟩ := List.mem_map.mp (of_decide_eq_true hid)
  obtain rfl := h.row_eq ho hr hid.symm
  rw [h.joinedWith_of ho] at hrow
  obtain ⟨stored, hstored, rfl⟩ := List.mem_map.mp hrow
  exact ⟨o, ho, rfl, stored, rfl, hstored, exists_of_forall₂ (h.items o ho) hstored⟩

/-- The rows of an order are its header with each of its items. -/
theorem filter_joined (h : t.Shows orders) (ho : o ∈ orders) :
    (t.joined (orders.map (toString ·.id))).filter (·.order.id = toString o.id) =
      t.joinedWith (.of o.toHeader) := by
  unfold joined
  rw [List.filter_flatMap]
  have hrows : ∀ r ∈ t.orders.filter (·.id ∈ orders.map (toString ·.id)),
      (t.joinedWith r).filter (·.order.id = toString o.id) =
        if r = .of o.toHeader then t.joinedWith r else [] := by
    intro r hr
    have hmem := (List.mem_filter.mp hr).1
    split
    next heq =>
      refine List.filter_eq_self.mpr fun row hrow => ?_
      rw [order_of_mem_joinedWith hrow, heq]
      exact decide_eq_true rfl
    next hne =>
      refine List.filter_eq_nil_iff.mpr fun row hrow hid => hne ?_
      rw [order_of_mem_joinedWith hrow] at hid
      exact h.row_eq ho hmem (of_decide_eq_true hid)
  rw [List.flatMap_congr hrows]
  -- of all these rows there is just the one
  have hnodup : (t.orders.filter (·.id ∈ orders.map (toString ·.id))).Nodup :=
    (List.Nodup.of_map _ h.orders_nodup).filter _
  have hmem : OrderRow.of o.toHeader ∈ t.orders.filter (·.id ∈ orders.map (toString ·.id)) := by
    refine List.mem_filter.mpr ⟨h.header o ho, decide_eq_true ?_⟩
    exact List.mem_map.mpr ⟨o, ho, rfl⟩
  generalize t.orders.filter (·.id ∈ orders.map (toString ·.id)) = rows at hnodup hmem
  obtain ⟨pre, post, rfl, hpre⟩ := List.eq_append_cons_of_mem hmem
  have hpost : OrderRow.of o.toHeader ∉ post :=
    (List.nodup_cons.mp (List.nodup_append.mp hnodup).2.1).1
  have hnil : ∀ rest : List OrderRow, OrderRow.of o.toHeader ∉ rest →
      (rest.flatMap fun r => if r = .of o.toHeader then t.joinedWith r else []) = [] := by
    intro rest hrest
    refine List.flatMap_eq_nil_iff.mpr fun r hr => if_neg ?_
    rintro rfl
    exact hrest hr
  rw [List.flatMap_append, List.flatMap_cons, hnil pre hpre, hnil post hpost, if_pos rfl,
    List.append_nil, List.nil_append]

/-- However the rows are sorted, those of an order are in the sequence of its items. -/
theorem filter_sorted (h : t.Shows orders)
    (hperm : l.Perm (t.joined (orders.map (toString ·.id)))) (hsorted : l.Pairwise JoinedRow.Precedes)
    (ho : o ∈ orders) :
    l.filter (·.order.id = toString o.id) =
      (t.itemsOf (toString o.id)).map fun i => ⟨.of o.toHeader, some i⟩ := by
  have hown := hperm.filter (·.order.id = toString o.id)
  rw [h.filter_joined ho, h.joinedWith_of ho] at hown
  have hascending : (t.itemsOf (toString o.id)).Pairwise (·.seq < ·.seq) := h.ascending.filter _
  have hleft : (l.filter (·.order.id = toString o.id)).Pairwise JoinedRow.NotAfter := by
    refine (hsorted.filter _).imp_of_mem ?_
    intro a b ha hb hprecedes
    have hida := of_decide_eq_true (List.mem_filter.mp ha).2
    have hidb := of_decide_eq_true (List.mem_filter.mp hb).2
    rcases hprecedes with hlt | ⟨-, hle⟩
    · rw [hida, hidb] at hlt
      exact absurd hlt (String.lt_irrefl _)
    · exact hle
  have hright : ((t.itemsOf (toString o.id)).map fun i =>
      (⟨.of o.toHeader, some i⟩ : JoinedRow)).Pairwise JoinedRow.NotAfter := by
    refine List.pairwise_map.mpr (hascending.imp ?_)
    rintro i j hlt _ ⟨⟩ _ ⟨⟩
    exact Nat.le_of_lt hlt
  refine hown.eq_of_pairwise ?_ hleft hright
  · intro a b ha hb hab hba
    obtain ⟨i, hi, rfl⟩ := List.mem_map.mp (hown.subset ha)
    obtain ⟨j, hj, rfl⟩ := List.mem_map.mp hb
    have hseq : i.seq = j.seq := Nat.le_antisymm (hab i rfl j rfl) (hba j rfl i rfl)
    have hinj : ((t.itemsOf (toString o.id)).map (·.seq)).Nodup :=
      List.pairwise_map.mpr (hascending.imp Nat.ne_of_lt)
    rw [List.inj_on_of_nodup_map hinj hi hj hseq]

end Tables.Shows

/-! ## The orders of a join -/

/-- The order whose identifier has the text. -/
def named? (orders : List Order) (text : String) : Option Order :=
  orders.find? (toString ·.id = text)

theorem named?_of_mem (hnd : (orders.map (·.id)).Nodup) (ho : o ∈ orders) :
    named? orders (toString o.id) = some o := by
  have hfind := Order.find?_of_mem hnd ho
  unfold named?
  simp only [Identifier.toString_injective.eq_iff]
  exact hfind

/-- How the rows of a join are read if they show the orders. -/
def reading (orders : List Order) : Reading JoinedRow where
  key row := row.order.id
  header key := ((named? orders key).map (·.toHeader)).getD ⟨default, default, default, default⟩
  item row := ((named? orders row.order.id).bind fun o => (readItem? o.id row.cells).toOption).join

namespace Tables.Shows

theorem header_reading (h : t.Shows orders) (ho : o ∈ orders) :
    (reading orders).header (toString o.id) = o.toHeader := by
  show ((named? orders (toString o.id)).map _).getD _ = _
  rw [named?_of_mem h.ids_nodup ho]
  rfl

/-- The row of an item is read as the item, up to the writing of its price. -/
theorem item_reading (h : t.Shows orders) (ho : o ∈ orders) {stored : ItemRow} {i : Item}
    (hrow : row.order = .of o.toHeader) (hitem : row.item = some stored) (hi : i ∈ o.items)
    (hstored : stored.Stores i) :
    readItem? o.id row.cells = .ok ((reading orders).item row) ∧
      ∃ j, (reading orders).item row = some j ∧ j.same i = true := by
  have horder : i.order = o.id := h.item_order o ho i hi
  obtain ⟨j, hread, hsame⟩ := readItem?_cells (by rw [hrow, horder]; rfl) hitem hstored
  rw [horder] at hread
  have hj : (reading orders).item row = some j := by
    show ((named? orders row.order.id).bind _).join = _
    rw [hrow, show (OrderRow.of o.toHeader).id = toString o.id from rfl,
      named?_of_mem h.ids_nodup ho]
    show (readItem? o.id row.cells).toOption.join = _
    rw [hread]
    rfl
  exact ⟨hj ▸ hread, j, hj, hsame⟩

theorem decodes (h : t.Shows orders) (hrow : row ∈ t.joined (orders.map (toString ·.id)))
    (before : List JoinedRow) : (reading orders).Decodes JoinedRow.cells before row := by
  obtain ⟨o, ho, heq, stored, hitem, -, i, hi, hstored⟩ := h.of_mem_joined hrow
  have hkey : (reading orders).key row = toString o.id := congrArg OrderRow.id heq
  refine ⟨rfl, fun _ => ?_, ?_⟩
  · rw [hkey, h.header_reading ho]
    exact readHeader_cells heq (h.header_kept o ho)
  · rw [hkey, h.header_reading ho]
    exact (h.item_reading ho heq hitem hi hstored).1

/-- The items of an order are read in their sequence. -/
theorem items_reading (h : t.Shows orders)
    (hperm : l.Perm (t.joined (orders.map (toString ·.id)))) (hsorted : l.Pairwise JoinedRow.Precedes)
    (ho : o ∈ orders) :
    List.Forall₂ (fun i j => i.same j = true) ((reading orders).items l (toString o.id))
      o.items := by
  show List.Forall₂ _ ((l.filter (·.order.id = toString o.id)).filterMap (reading orders).item) _
  rw [h.filter_sorted hperm hsorted ho, List.filterMap_map]
  have hread : ∀ {rows items}, List.Forall₂ ItemRow.Stores rows items →
      (∀ i ∈ items, i ∈ o.items) → List.Forall₂ (fun i j => i.same j = true)
        (rows.filterMap ((reading orders).item ∘ fun r => ⟨.of o.toHeader, some r⟩)) items := by
    intro rows items hstores hsub
    induction hstores with
    | nil => exact .nil
    | @cons stored i rows items hstored _ ih =>
        have hrow : (⟨.of o.toHeader, some stored⟩ : JoinedRow).item = some stored := rfl
        obtain ⟨-, j, hj, hsame⟩ :=
          h.item_reading ho rfl hrow (hsub i List.mem_cons_self) hstored
        rw [List.filterMap_cons, Function.comp_apply, hj]
        exact .cons hsame (ih fun i hi => hsub i (List.mem_cons_of_mem _ hi))
  exact hread (h.items o ho) fun _ hi => hi

/-- **The orders that are shown are found.** -/
theorem ordersOfRows_joined (h : t.Shows orders)
    (hperm : l.Perm (t.joined (orders.map (toString ·.id))))
    (hsorted : l.Pairwise JoinedRow.Precedes) :
    ∃ found, ordersOfRows (l.map JoinedRow.cells) = .ok found ∧ Found found orders := by
  have hkeys : ∀ key, key ∈ (reading orders).keys l ↔ ∃ o ∈ orders, toString o.id = key := by
    intro key
    rw [Reading.mem_keys]
    constructor
    · intro hkey
      obtain ⟨row, hrow, rfl⟩ := List.mem_map.mp hkey
      obtain ⟨o, ho, heq, -⟩ := h.of_mem_joined (hperm.subset hrow)
      exact ⟨o, ho, (congrArg OrderRow.id heq).symm⟩
    · rintro ⟨o, ho, rfl⟩
      have hne : l.filter (·.order.id = toString o.id) ≠ [] := by
        intro hnil
        have hitems := h.items_reading hperm hsorted ho
        rw [show (reading orders).items l (toString o.id) =
            (l.filter (·.order.id = toString o.id)).filterMap _ from rfl, hnil,
          List.filterMap_nil, List.forall₂_nil_left_iff] at hitems
        exact h.items_ne_nil o ho hitems
      obtain ⟨row, hrow⟩ := List.exists_mem_of_ne_nil _ hne
      obtain ⟨hrow, hid⟩ := List.mem_filter.mp hrow
      exact List.mem_map.mpr ⟨row, hrow, of_decide_eq_true hid⟩
  refine ⟨(reading orders).orders l, ?_, ?_, ?_, ?_⟩
  · refine (reading orders).ordersOfRows_map fun before row after heq => ?_
    have hrow : row ∈ l := heq ▸ List.mem_append_right _ List.mem_cons_self
    exact h.decodes (hperm.subset hrow) before
  · -- the text of a group's identifier is its key, and the keys are different
    have hids : ((reading orders).orders l).map (toString ·.id) = (reading orders).keys l := by
      unfold Reading.orders
      rw [List.map_map]
      refine (List.map_congr_left fun key hkey => ?_).trans (List.map_id' _)
      obtain ⟨o, ho, rfl⟩ := (hkeys key).mp hkey
      show toString ((reading orders).header (toString o.id)).id = _
      rw [h.header_reading ho]
    have hnodup := (reading orders).nodup_keys l
    rw [← hids] at hnodup
    rw [show (fun o : Order => toString o.id) = toString ∘ (·.id) from rfl, ← List.map_map] at hnodup
    exact hnodup.of_map _
  · intro o ho
    refine ⟨(reading orders).order l (toString o.id),
      List.mem_map.mpr ⟨_, (hkeys _).mpr ⟨o, ho, rfl⟩, rfl⟩, Order.same_iff.mpr ⟨?_, ?_⟩⟩
    · exact h.header_reading ho
    · exact h.items_reading hperm hsorted ho
  · intro o' ho'
    obtain ⟨key, hkey, rfl⟩ := List.mem_map.mp ho'
    obtain ⟨o, ho, rfl⟩ := (hkeys key).mp hkey
    show ((reading orders).header (toString o.id)).id ∈ _
    rw [h.header_reading ho]
    exact List.mem_map_of_mem ho

end Tables.Shows

end Sql

end Checkout
