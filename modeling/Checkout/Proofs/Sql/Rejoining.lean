import Checkout.Proofs.Decimal.Admission
import Checkout.Proofs.Sql.Grouping

/-!
# Regrouping what was joined

If each order is joined with its items and the rows are regrouped, the orders come back as they were
(`exists_regroups_flatten`), also those without items. With what is true of any rows, this is
`ordersOfRows_stable`.
-/

namespace Checkout

namespace Sql

variable {rows : List JoinedCells} {r : JoinedCells} {id : OrderId}

/-! ## Rows of different orders -/

section

variable {rows' : List JoinedCells}

theorem orderIds_append (h : (orderIds rows).Disjoint (orderIds rows')) :
    orderIds (rows ++ rows') = orderIds rows ++ orderIds rows' := by
  unfold orderIds at h ⊢
  rw [List.filterMap_append, List.eraseDups_append]
  congr 2
  refine List.filter_eq_self.mpr fun id hid => ?_
  have hnew : id ∉ rows.filterMap (·.order?) := fun hmem =>
    h (List.mem_eraseDups.mpr hmem) (List.mem_eraseDups.mpr hid)
  simpa using hnew

theorem firstRow?_append :
    firstRow? (rows ++ rows') id = (firstRow? rows id).or (firstRow? rows' id) :=
  List.find?_append

theorem firstRow?_eq_none (h : ∀ r ∈ rows, r.order? ≠ some id) : firstRow? rows id = none :=
  List.find?_eq_none.mpr fun r hr hid => h r hr (of_decide_eq_true hid)

theorem itemRows_append : itemRows (rows ++ rows') id = itemRows rows id ++ itemRows rows' id := by
  unfold itemRows
  rw [List.filter_append, List.filter_append]

theorem itemRows_eq_nil (h : ∀ r ∈ rows, r.order? ≠ some id) : itemRows rows id = [] := by
  unfold itemRows
  rw [List.filter_eq_nil_iff.mpr fun r hr hid => h r hr (of_decide_eq_true hid), List.filter_nil]

namespace Regroups

variable {found found' : List Order}

theorem nil : Regroups [] [] := by
  constructor <;> simp [orderIds]

theorem order?_ne (h : Regroups rows found) (hid : id ∉ found.map (·.id)) :
    ∀ r ∈ rows, r.order? ≠ some id :=
  fun _ hr hrow => hid (h.id_mem hr hrow)

/-- Rows of other orders may follow. -/
theorem append (h : Regroups rows found) (h' : Regroups rows' found')
    (hdisjoint : (found.map (·.id)).Disjoint (found'.map (·.id))) :
    Regroups (rows ++ rows') (found ++ found') := by
  have hleft : ∀ o ∈ found, ∀ r ∈ rows', r.order? ≠ some o.id := fun o ho =>
    h'.order?_ne (hdisjoint (List.mem_map_of_mem ho))
  have hright : ∀ o ∈ found', ∀ r ∈ rows, r.order? ≠ some o.id := fun o ho =>
    h.order?_ne (List.disjoint_symm hdisjoint (List.mem_map_of_mem ho))
  refine
    { order := List.forall_mem_append.mpr ⟨h.order, h'.order⟩
      ids := ?ids
      header := List.forall_mem_append.mpr ⟨fun o ho => ?_, fun o ho => ?_⟩
      items := List.forall_mem_append.mpr ⟨fun o ho => ?_, fun o ho => ?_⟩
      valid := List.forall_mem_append.mpr ⟨h.valid, h'.valid⟩ }
  case ids =>
    rw [List.map_append, h.ids, h'.ids, orderIds_append]
    rwa [← h.ids, ← h'.ids]
  · obtain ⟨r, hr, hheader⟩ := h.header o ho
    exact ⟨r, by rw [firstRow?_append, hr, Option.some_or], hheader⟩
  · rw [firstRow?_append, firstRow?_eq_none (hright o ho), Option.none_or]
    exact h'.header o ho
  · rw [itemRows_append, itemRows_eq_nil (hleft o ho), List.append_nil]
    exact h.items o ho
  · rw [itemRows_append, itemRows_eq_nil (hright o ho), List.nil_append]
    exact h'.items o ho

end Regroups

end

/-! ## Joined orders -/

theorem orderIds_of_forall (hne : rows ≠ []) (h : ∀ r ∈ rows, r.order? = some id) :
    orderIds rows = [id] := by
  cases rows with
  | nil => exact absurd rfl hne
  | cons r rows =>
      unfold orderIds
      rw [List.filterMap_cons, h r List.mem_cons_self]
      show (id :: _).eraseDups = _
      rw [List.eraseDups_cons, List.filter_eq_nil_iff.mpr]
      · rfl
      · intro id' hid'
        obtain ⟨r', hr', hid'⟩ := List.mem_filterMap.mp hid'
        cases hid'.symm.trans (h r' (List.mem_cons_of_mem r hr'))
        simp

/-- The rows are an order joined with its items: one row for each, or one without item if there is
none. Prices may be written with more or fewer zeros. -/
structure IsJoinOf (rows : List JoinedCells) (o : Order) : Prop where
  header : ∀ r ∈ rows, r.HoldsHeader o.toHeader
  items : o.items ≠ [] →
    List.Forall₂ (fun r i => ∃ j, r.HoldsItem j ∧ j.same i = true) rows o.items
  alone : o.items = [] → ∃ r, rows = [r] ∧ r.item.isNull = true

theorem exists_between {α β γ : Type} {P : α → γ → Prop} {Q : γ → β → Prop} {as : List α}
    {bs : List β} (h : List.Forall₂ (fun a b => ∃ c, P a c ∧ Q c b) as bs) :
    ∃ cs, List.Forall₂ P as cs ∧ List.Forall₂ Q cs bs := by
  induction h with
  | nil => exact ⟨[], .nil, .nil⟩
  | cons hc _ ih =>
      obtain ⟨c, hP, hQ⟩ := hc
      obtain ⟨cs, hPs, hQs⟩ := ih
      exact ⟨c :: cs, .cons hP hPs, .cons hQ hQs⟩

namespace IsJoinOf

variable {o : Order}

theorem order_eq (h : IsJoinOf rows o) (hr : r ∈ rows) : r.order? = some o.id := (h.header r hr).id

theorem ne_nil (h : IsJoinOf rows o) : rows ≠ [] := by
  rintro rfl
  cases hitems : o.items with
  | nil =>
      obtain ⟨r, hr, -⟩ := h.alone hitems
      cases hr
  | cons i is =>
      have hall := h.items (by simp [hitems])
      rw [hitems] at hall
      cases hall

/-- The items as they are written in the rows. -/
theorem exists_items (h : IsJoinOf rows o) :
    ∃ items, List.Forall₂ JoinedCells.HoldsItem (rows.filter fun r => !r.item.isNull) items ∧
      List.Forall₂ (fun i j => i.same j = true) items o.items := by
  by_cases hitems : o.items = []
  · obtain ⟨r, rfl, hnull⟩ := h.alone hitems
    rw [hitems, List.filter_cons_of_neg (by simp [hnull])]
    exact ⟨[], .nil, .nil⟩
  · obtain ⟨items, hholds, hsame⟩ := exists_between (h.items hitems)
    refine ⟨items, ?_, hsame⟩
    rwa [List.filter_eq_self.mpr]
    intro r hr
    obtain ⟨i, -, hi⟩ := exists_of_forall₂ hholds hr
    rw [hi.isNull_eq_false]
    rfl

/-- The rows are regrouped into the order, up to the writing of its prices. -/
theorem exists_regroups (h : IsJoinOf rows o) (hvalid : o.HasValidItems) :
    ∃ o', Regroups rows [o'] ∧ o'.same o = true := by
  obtain ⟨items, hholds, hsame⟩ := h.exists_items
  have hrow : ∀ r ∈ rows, r.order? = some o.id := fun r => h.order_eq
  have hown : rows.filter (·.order? = some o.id) = rows :=
    List.filter_eq_self.mpr fun r hr => decide_eq_true (hrow r hr)
  refine ⟨{ o.toHeader with items }, ?_, Order.same_iff.mpr ⟨rfl, hsame⟩⟩
  refine
    { order := fun r hr => ⟨_, hrow r hr⟩
      ids := (orderIds_of_forall h.ne_nil hrow).symm
      header := List.forall_mem_singleton.mpr ?_
      items := List.forall_mem_singleton.mpr ?_
      valid := List.forall_mem_singleton.mpr ?_ }
  · obtain ⟨r, hr⟩ := List.exists_mem_of_ne_nil rows h.ne_nil
    obtain ⟨first, hfirst⟩ := exists_firstRow? hr (hrow r hr)
    exact ⟨first, hfirst, h.header first (List.mem_of_find?_eq_some hfirst)⟩
  · show List.Forall₂ _ ((rows.filter (·.order? = some o.id)).filter _) _
    rwa [hown]
  · intro i hi
    obtain ⟨j, hj, hij⟩ := exists_of_forall₂ hsame hi
    obtain ⟨horder, hprice⟩ := hvalid j hj
    unfold Item.same at hij
    simp only [Bool.and_eq_true, decide_eq_true_eq] at hij
    obtain ⟨⟨⟨⟨-, horder'⟩, -⟩, hprice'⟩, -⟩ := hij
    exact ⟨horder'.trans horder, Money.new_of_sameValue hprice' hprice⟩

/-- The rows are legible, wherever they stand. -/
theorem isLegible (h : IsJoinOf rows o) (hvalid : o.HasValidItems) (hr : r ∈ rows)
    (before : List JoinedCells) : r.IsLegible before := by
  obtain ⟨o', hregroups, -⟩ := h.exists_regroups hvalid
  obtain ⟨start, hlegible⟩ := hregroups.legible.of_mem hr
  exact ⟨hlegible.order, fun _ => ⟨_, h.header r hr⟩, hlegible.item⟩

end IsJoinOf

theorem ids_eq_of_same {found orders : List Order}
    (h : List.Forall₂ (fun a b => a.same b = true) found orders) :
    found.map (·.id) = orders.map (·.id) := by
  induction h with
  | nil => rfl
  | cons hsame _ ih => exact List.cons_eq_cons.mpr ⟨Order.id_eq_of_same hsame, ih⟩

/-- **Orders that were joined come apart again**, up to the writing of their prices. -/
theorem exists_regroups_flatten {parts : List (List JoinedCells)} {orders : List Order}
    (h : List.Forall₂ IsJoinOf parts orders) (hnodup : (orders.map (·.id)).Nodup)
    (hvalid : ∀ o ∈ orders, o.HasValidItems) :
    ∃ found, Regroups parts.flatten found ∧
      List.Forall₂ (fun a b => a.same b = true) found orders := by
  induction h with
  | nil => exact ⟨[], .nil, .nil⟩
  | @cons rows o parts orders hjoin _ ih =>
      rw [List.map_cons, List.nodup_cons] at hnodup
      obtain ⟨o', ho', hsame⟩ := hjoin.exists_regroups (hvalid o List.mem_cons_self)
      obtain ⟨found, hfound, hall⟩ :=
        ih hnodup.2 fun o ho => hvalid o (List.mem_cons_of_mem _ ho)
      refine ⟨o' :: found, ho'.append hfound ?_, .cons hsame hall⟩
      rw [ids_eq_of_same hall, List.map_singleton, List.singleton_disjoint,
        Order.id_eq_of_same hsame]
      exact hnodup.1

/-! ## Rows of a server -/

theorem isCanonical_cells {row : JoinedRow} (h : row.order.id = toString id) :
    row.cells.IsCanonical := by
  intro id' hid
  have htext : row.cells.id.text? = some (toString id) := congrArg some h
  cases hid.symm.trans (JoinedCells.order?_eq_of_text htext)
  exact htext

/-- The rows that a server joins are such rows. -/
theorem isJoinOf_joinedWith {t : Tables} {o : Order} (hkept : o.toHeader.IsKept)
    (hstores : List.Forall₂ ItemRow.Stores (t.itemsOf (toString o.id)) o.items) :
    IsJoinOf ((t.joinedWith (.of o.toHeader)).map JoinedRow.cells) o := by
  have hheader : ∀ row ∈ t.joinedWith (.of o.toHeader), row.cells.HoldsHeader o.toHeader :=
    fun row hrow => holdsHeader_cells (order_of_mem_joinedWith hrow) hkept
  refine ⟨List.forall_mem_map.mpr hheader, fun hne => ?_, fun hnil => ?_⟩
  · have hitems : t.itemsOf (OrderRow.of o.toHeader).id ≠ [] := by
      intro hnil
      rw [show t.itemsOf (toString o.id) = [] from hnil, List.forall₂_nil_left_iff] at hstores
      exact hne hstores
    rw [joinedWith_of_ne_nil hitems, List.map_map, List.forall₂_map_left_iff]
    have hown : ∀ stored ∈ t.itemsOf (toString o.id), stored.order = toString o.id :=
      fun stored hmem => of_decide_eq_true (List.mem_filter.mp hmem).2
    refine ((List.forall₂_and_left _ _).mpr ⟨hown, hstores⟩).imp ?_
    rintro stored i ⟨hown, hstored⟩
    have horder : (⟨.of o.toHeader, some stored⟩ : JoinedRow).order.id = toString i.order :=
      hown.symm.trans hstored.order
    obtain ⟨j, hholds, -, hsame⟩ := exists_holdsItem_cells horder rfl hstored
    exact ⟨j, hholds, hsame⟩
  · rw [hnil, List.forall₂_nil_right_iff] at hstores
    refine ⟨JoinedRow.cells ⟨.of o.toHeader, none⟩, ?_, rfl⟩
    rw [joinedWith_of_nil (r := .of o.toHeader) hstores, List.map_singleton]

/-! ## Regrouping -/

/-- **Rows are regrouped stably**, in whatever sequence they come. If all that is looked at in them is
legible, what is found are their orders, each in its place and with its own items. Otherwise nothing
is found, and the failure is one to read. If the rows are those of orders that were joined with their
items, the orders are found as they were. -/
theorem ordersOfRows_stable (rows : List JoinedCells) (hcanonical : ∀ r ∈ rows, r.IsCanonical) :
    (Legible rows → ∃ found, ordersOfRows rows = .ok found ∧ Regroups rows found) ∧
      (¬ Legible rows → ∃ text, (ordersOfRows rows).mapError DatabaseError.toStoreError =
        .error (.fetchFailed text)) ∧
      ∀ parts orders, rows = parts.flatten → List.Forall₂ IsJoinOf parts orders →
        (orders.map (·.id)).Nodup → (∀ o ∈ orders, o.HasValidItems) →
        ∃ found, ordersOfRows rows = .ok found ∧
          List.Forall₂ (fun a b => a.same b = true) found orders := by
  refine ⟨fun h => ?_, fun h => ?_, fun parts orders heq hjoin hnodup hvalid => ?_⟩
  · have hregroups := h.regroups hcanonical
    exact ⟨_, (ordersOfRows_eq_ok_iff hcanonical).mpr hregroups, hregroups⟩
  · cases hread : ordersOfRows rows with
    | ok found => exact absurd ((ordersOfRows_eq_ok_iff hcanonical).mp hread).legible h
    | error e =>
        obtain ⟨text, rfl⟩ := FailsToDecode.ordersOfRows rows e hread
        exact ⟨text, rfl⟩
  · obtain ⟨found, hfound, hsame⟩ := exists_regroups_flatten hjoin hnodup hvalid
    exact ⟨found, (ordersOfRows_eq_ok_iff hcanonical).mpr (heq ▸ hfound), hsame⟩

end Sql

/-! An order of two items and one without items. Their rows are read as they were joined, with the
row of the second order between those of the first, and with a product missing. -/

namespace Sample

/-- Another piece of product 1. -/
def another : Item := { single with id := default }

theorem yearRange_2024 : yearRange 2024 := by decide

def bought : Order where
  id := single.order
  user := default
  createdAt := newYear 2024 yearRange_2024
  updatedAt := newYear 2024 yearRange_2024
  items := [single, another]

def emptied : Order := { bought with id := default, items := [] }

/-- The row of an item without price. -/
def gift (seq : Nat) (i : Item) : Sql.ItemRow :=
  ⟨seq, toString i.id, toString i.order, toString i.product, 0, i.quantity⟩

def shelves : Sql.Tables where
  products := []
  orders := [.of bought.toHeader, .of emptied.toHeader]
  items := [gift 1 single, gift 2 another]

/-- The row of an order with an item. -/
def rowOf (o : Order) (item : Option Sql.ItemRow) : Sql.JoinedCells :=
  Sql.JoinedRow.cells ⟨.of o.toHeader, item⟩

theorem order?_rowOf (o : Order) (item : Option Sql.ItemRow) : (rowOf o item).order? = some o.id :=
  Sql.JoinedCells.order?_eq_of_text rfl

theorem isCanonical_rowOf (o : Order) (item : Option Sql.ItemRow) : (rowOf o item).IsCanonical := by
  unfold rowOf
  exact Sql.isCanonical_cells rfl

def boughtRows : List Sql.JoinedCells := shelves.items.map fun item => rowOf bought (some item)

def mixed : List Sql.JoinedCells := boughtRows.intersperse (rowOf emptied none)

def torn : List Sql.JoinedCells := boughtRows.map ({ · with product := .absent .char })

theorem gift_stores {i : Item} (seq : Nat) (h : i.price = .zero) : (gift seq i).Stores i :=
  ⟨rfl, rfl, rfl, by rw [h]; rfl, tenTo_pos 12, rfl⟩

theorem newYear_isKept : (newYear 2024 yearRange_2024).IsKept :=
  ⟨⟨by decide, by decide⟩, rfl, by decide⟩

theorem isJoinOf_boughtRows : Sql.IsJoinOf boughtRows bought := by
  have hitems : shelves.itemsOf (toString bought.id) = shelves.items :=
    List.filter_eq_self.mpr (by simp [shelves, gift, single, another, bought])
  have hjoin : Sql.IsJoinOf ((shelves.joinedWith (.of bought.toHeader)).map Sql.JoinedRow.cells)
      bought := by
    refine Sql.isJoinOf_joinedWith ⟨newYear_isKept, newYear_isKept⟩ ?_
    rw [hitems]
    exact .cons (gift_stores 1 rfl) (.cons (gift_stores 2 rfl) .nil)
  unfold Sql.Tables.joinedWith at hjoin
  rwa [show shelves.itemsOf (Sql.OrderRow.of bought.toHeader).id = _ from hitems] at hjoin

theorem isJoinOf_emptied : Sql.IsJoinOf [rowOf emptied none] emptied :=
  Sql.isJoinOf_joinedWith (t := ⟨[], [], []⟩) ⟨newYear_isKept, newYear_isKept⟩ .nil

theorem hasValidItems {o : Order} (ho : o ∈ [bought, emptied]) : o.HasValidItems := by
  unfold Order.HasValidItems
  revert o
  decide

end Sample

namespace Sql

theorem ordersOfRows_stable_sample :
    (∃ found, ordersOfRows Sample.mixed = .ok found ∧
        found.map (·.id) = [Sample.bought.id, Sample.emptied.id] ∧ Regroups Sample.mixed found) ∧
      (∃ text, (ordersOfRows Sample.torn).mapError DatabaseError.toStoreError =
        .error (.fetchFailed text)) ∧
      ∃ found, ordersOfRows [Sample.boughtRows, [Sample.rowOf Sample.emptied none]].flatten =
          .ok found ∧
        List.Forall₂ (fun a b => a.same b = true) found [Sample.bought, Sample.emptied] := by
  have hbought : ∀ r ∈ Sample.boughtRows, r.IsCanonical :=
    List.forall_mem_map.mpr fun _ _ => Sample.isCanonical_rowOf _ _
  refine ⟨?_, ?_, ?_⟩
  · have hcanonical : ∀ r ∈ Sample.mixed, r.IsCanonical := by
      simp [Sample.mixed, Sample.boughtRows, Sample.shelves, Sample.isCanonical_rowOf]
    have hmixed : ∀ r ∈ Sample.mixed,
        r ∈ Sample.boughtRows ∨ r ∈ [Sample.rowOf Sample.emptied none] := by
      simp [Sample.mixed, Sample.boughtRows, Sample.shelves]
    obtain ⟨hfound, -, -⟩ := ordersOfRows_stable Sample.mixed hcanonical
    obtain ⟨found, hread, hregroups⟩ := hfound fun before r after heq => by
      have hr : r ∈ Sample.mixed := heq ▸ List.mem_append_right _ List.mem_cons_self
      rcases hmixed r hr with hr | hr
      · exact Sample.isJoinOf_boughtRows.isLegible (Sample.hasValidItems (by simp)) hr before
      · exact Sample.isJoinOf_emptied.isLegible (Sample.hasValidItems (by simp)) hr before
    refine ⟨found, hread, hregroups.ids.trans ?_, hregroups⟩
    unfold orderIds
    simp only [Sample.mixed, Sample.boughtRows, Sample.shelves, List.map, List.intersperse,
      List.filterMap, Sample.order?_rowOf]
    decide
  · have hcanonical : ∀ r ∈ Sample.torn, r.IsCanonical := List.forall_mem_map.mpr hbought
    obtain ⟨-, hfailed, -⟩ := ordersOfRows_stable Sample.torn hcanonical
    refine hfailed fun hlegible => ?_
    obtain ⟨i, hi, -⟩ := (hlegible [] _ _ rfl).item rfl
    cases hi.product
  · have hcanonical : ∀ r ∈ [Sample.boughtRows, [Sample.rowOf Sample.emptied none]].flatten,
        r.IsCanonical := by
      simp [Sample.boughtRows, Sample.shelves, Sample.isCanonical_rowOf]
    obtain ⟨-, -, hjoined⟩ := ordersOfRows_stable _ hcanonical
    exact hjoined _ _ rfl (.cons Sample.isJoinOf_boughtRows (.cons Sample.isJoinOf_emptied .nil))
      (by decide) fun o => Sample.hasValidItems

end Sql

end Checkout
