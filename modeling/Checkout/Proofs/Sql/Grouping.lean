import Checkout.Proofs.Sql.Join
import Checkout.Proofs.Sql.Legibility

/-!
# Regrouping any rows

Rows need not come from a server that sorts them: those of one order may stand between those of
others, and cells may hold what cannot be read. What the rows should be regrouped into is said
without going through them one by one (`Regroups`). There is at most one such list of orders
(`Regroups.unique`), and it is just what is read from the rows (`ordersOfRows_eq_ok_iff`).
-/

namespace Checkout.Sql

/-! ## Groups -/

/-- All rows are legible, each behind those before it. -/
def Legible (rows : List JoinedCells) : Prop :=
  ∀ before r after, rows = before ++ r :: after → r.IsLegible before

/-- The orders that the rows name, in the sequence in which they first do. -/
def orderIds (rows : List JoinedCells) : List OrderId := (rows.filterMap (·.order?)).eraseDups

/-- The first row of an order. -/
def firstRow? (rows : List JoinedCells) (id : OrderId) : Option JoinedCells :=
  rows.find? (·.order? = some id)

/-- The rows of an order that have an item. -/
def itemRows (rows : List JoinedCells) (id : OrderId) : List JoinedCells :=
  (rows.filter (·.order? = some id)).filter fun r => !r.item.isNull

/-- What has been found are the orders of the rows, in the sequence in which they are first named.
Each has the header that the first of its rows holds, and the items that its rows hold, in the
sequence of these. No row is left out. -/
structure Regroups (rows : List JoinedCells) (found : List Order) : Prop where
  order : ∀ r ∈ rows, ∃ id, r.order? = some id
  ids : found.map (·.id) = orderIds rows
  header : ∀ o ∈ found, ∃ r, firstRow? rows o.id = some r ∧ r.HoldsHeader o.toHeader
  items : ∀ o ∈ found, List.Forall₂ JoinedCells.HoldsItem (itemRows rows o.id) o.items
  valid : ∀ o ∈ found, o.HasValidItems

variable {rows before after : List JoinedCells} {r : JoinedCells} {id : OrderId}

theorem mem_orderIds : id ∈ orderIds rows ↔ ∃ r ∈ rows, r.order? = some id := by
  unfold orderIds
  rw [List.mem_eraseDups, List.mem_filterMap]

theorem firstRow?_eq_some_iff : firstRow? rows id = some r ↔
    r.order? = some id ∧
      ∃ before after, rows = before ++ r :: after ∧ some id ∉ before.map (·.order?) := by
  unfold firstRow?
  rw [List.find?_eq_some_iff_append, decide_eq_true_iff]
  simp only [Bool.not_eq_true', decide_eq_false_iff_not, List.mem_map, not_exists, not_and]

theorem mem_itemRows :
    r ∈ itemRows rows id ↔ r ∈ rows ∧ r.order? = some id ∧ r.item.isNull = false := by
  unfold itemRows
  rw [List.mem_filter, List.mem_filter, decide_eq_true_iff, Bool.not_eq_true', and_assoc]

theorem exists_firstRow? (hr : r ∈ rows) (hid : r.order? = some id) :
    ∃ first, firstRow? rows id = some first := by
  rw [← Option.isSome_iff_exists]
  exact List.find?_isSome.mpr ⟨r, hr, decide_eq_true hid⟩

theorem legible_append_singleton :
    Legible (rows ++ [r]) ↔ Legible rows ∧ r.IsLegible rows := by
  constructor
  · intro h
    refine ⟨fun before b after heq => h before b (after ++ [r]) (by simp [heq]), h rows r [] rfl⟩
  · rintro ⟨hrows, hr⟩ before b after heq
    rcases List.eq_nil_or_concat after with rfl | ⟨after, c, rfl⟩
    · obtain ⟨rfl, hb⟩ := List.append_inj' heq rfl
      cases hb
      exact hr
    · rw [List.concat_eq_append, ← List.cons_append, ← List.append_assoc] at heq
      obtain ⟨rfl, -⟩ := List.append_inj' heq rfl
      exact hrows before b after rfl

theorem Legible.of_mem (h : Legible rows) (hr : r ∈ rows) : ∃ before, r.IsLegible before := by
  obtain ⟨before, after, heq⟩ := List.append_of_mem hr
  exact ⟨before, h before r after heq⟩

theorem Legible.order (h : Legible rows) (hr : r ∈ rows) : ∃ id, r.order? = some id := by
  obtain ⟨before, hlegible⟩ := h.of_mem hr
  exact hlegible.order

/-! ### The reading of legible rows -/

/-- How rows are read if they are legible. -/
def readingOf (rows : List JoinedCells) : Reading JoinedCells where
  key r := (r.order?.map toString).getD ""
  header key :=
    ((rows.find? (·.order? = Identifier.ofString? key)).bind fun r =>
      (readHeader key r).toOption).getD ⟨default, default, default, default⟩
  item r := (r.order?.bind fun id => (readItem? id r).toOption).join

theorem key_readingOf (h : r.order? = some id) : (readingOf rows).key r = toString id := by
  show (r.order?.map toString).getD "" = _
  rw [h]
  rfl

theorem item_readingOf {item : Option Item} (hid : r.order? = some id)
    (hread : readItem? id r = .ok item) : (readingOf rows).item r = item := by
  show (r.order?.bind fun id => (readItem? id r).toOption).join = _
  rw [hid, Option.bind_some, hread]
  rfl

theorem JoinedCells.IsLegible.exists_readItem? (h : r.IsLegible before) (hid : r.order? = some id) :
    ∃ item, readItem? id r = .ok item := by
  cases hnull : r.item.isNull with
  | true => exact ⟨_, readItem?_of_isNull id hnull⟩
  | false =>
      obtain ⟨i, hi, hprice⟩ := h.item hnull
      exact ⟨_, (readItem?_eq_ok_iff hid hnull).mpr ⟨i, rfl, hi, hprice⟩⟩

namespace Legible

/-- The first row of an order holds its header, as it is read. -/
theorem header (h : Legible rows) (hcanonical : ∀ r ∈ rows, r.IsCanonical)
    (hfirst : firstRow? rows id = some r) :
    r.HoldsHeader ((readingOf rows).header (toString id)) := by
  obtain ⟨hid, before, after, heq, hnew⟩ := firstRow?_eq_some_iff.mp hfirst
  obtain ⟨header, hheader⟩ := (h before r after heq).header (hid ▸ hnew)
  have hr : r ∈ rows := heq ▸ List.mem_append_right _ List.mem_cons_self
  have hread : readHeader (toString id) r = .ok header :=
    (readHeader_eq_ok_iff (hcanonical r hr id hid)).mpr hheader
  have hkept : (readingOf rows).header (toString id) = header := by
    show (Option.bind (rows.find? _) _).getD _ = _
    rw [Identifier.ofString?_toString, show rows.find? _ = some r from hfirst, Option.bind_some,
      hread]
    rfl
  rwa [hkept]

theorem header_id (h : Legible rows) (hcanonical : ∀ r ∈ rows, r.IsCanonical) (hr : r ∈ rows)
    (hid : r.order? = some id) : ((readingOf rows).header (toString id)).id = id := by
  obtain ⟨first, hfirst⟩ := exists_firstRow? hr hid
  have hheader := h.header hcanonical hfirst
  exact Option.some.inj (hheader.id.symm.trans (firstRow?_eq_some_iff.mp hfirst).1)

/-- **Legible rows can be decoded**, one after the other. -/
theorem decodes (h : Legible rows) (hcanonical : ∀ r ∈ rows, r.IsCanonical)
    (heq : rows = before ++ r :: after) : (readingOf rows).Decodes (fun r => r) before r := by
  have hr : r ∈ rows := heq ▸ List.mem_append_right _ List.mem_cons_self
  obtain ⟨id, hid⟩ := (h before r after heq).order
  have hkey : (readingOf rows).key r = toString id := key_readingOf hid
  have htext : r.id.text? = some (toString id) := hcanonical r hr id hid
  refine ⟨hkey ▸ htext, fun hnew => ?_, ?_⟩
  · have hfirst : firstRow? rows id = some r := by
      refine firstRow?_eq_some_iff.mpr ⟨hid, before, after, heq, fun hmem => hnew ?_⟩
      obtain ⟨b, hb, hbid⟩ := List.mem_map.mp hmem
      exact List.mem_map.mpr ⟨b, hb, (key_readingOf hbid).trans hkey.symm⟩
    rw [hkey]
    exact (readHeader_eq_ok_iff htext).mpr (h.header hcanonical hfirst)
  · obtain ⟨item, hitem⟩ := (h before r after heq).exists_readItem? hid
    rw [hkey, h.header_id hcanonical hr hid, hitem, item_readingOf hid hitem]

theorem keys_eq (h : Legible rows) :
    (readingOf rows).keys rows = (orderIds rows).map toString := by
  unfold Reading.keys orderIds
  rw [← eraseDups_map Identifier.toString_injective, List.map_filterMap, ← List.filterMap_eq_map]
  congr 1
  refine List.filterMap_congr fun r hr => ?_
  obtain ⟨id, hid⟩ := h.order hr
  rw [hid]
  exact congrArg some (key_readingOf hid)

end Legible

/-! ### What legible rows are regrouped into -/

/-- What is kept of a list goes with what it is read as. -/
theorem forall₂_filterMap {α β : Type} {P : α → β → Prop} {p : α → Bool} {f : α → Option β}
    {l : List α} (h : ∀ a ∈ l, if p a then ∃ b, f a = some b ∧ P a b else f a = none) :
    List.Forall₂ P (l.filter p) (l.filterMap f) := by
  induction l with
  | nil => exact .nil
  | cons a l ih =>
      have hl := ih fun b hb => h b (List.mem_cons_of_mem a hb)
      have ha := h a List.mem_cons_self
      split at ha
      next hp =>
        obtain ⟨b, hb, hP⟩ := ha
        rw [List.filter_cons_of_pos hp, List.filterMap_cons, hb]
        exact .cons hP hl
      next hp =>
        rw [List.filter_cons_of_neg hp, List.filterMap_cons, ha]
        exact hl

namespace Legible

variable (h : Legible rows)

include h

/-- The items that are read are those of the rows. -/
theorem forall₂_items (id : OrderId) :
    List.Forall₂ (fun r i => r.HoldsItem i ∧ Money.new i.price.amount = .ok i.price)
      (itemRows rows id) ((readingOf rows).items rows (toString id)) := by
  have hrows : rows.filter ((readingOf rows).key · = toString id) =
      rows.filter (·.order? = some id) := by
    refine List.filter_congr fun r hr => ?_
    obtain ⟨id', hid⟩ := h.order hr
    simp only [key_readingOf hid, hid, Option.some.injEq, Identifier.toString_injective.eq_iff]
  unfold itemRows Reading.items
  rw [hrows]
  refine forall₂_filterMap fun r hr => ?_
  obtain ⟨hr, hid⟩ := List.mem_filter.mp hr
  have hid := of_decide_eq_true hid
  obtain ⟨before, hlegible⟩ := h.of_mem hr
  obtain ⟨item, hread⟩ := hlegible.exists_readItem? hid
  rw [item_readingOf hid hread]
  split
  next hitem => exact (readItem?_eq_ok_iff hid (by simpa using hitem)).mp hread
  next hitem =>
    rw [readItem?_of_isNull id (by simpa using hitem)] at hread
    cases hread
    rfl

theorem orders_eq : (readingOf rows).orders rows =
    (orderIds rows).map fun id => (readingOf rows).order rows (toString id) := by
  unfold Reading.orders
  rw [h.keys_eq, List.map_map]
  rfl

/-- **Legible rows are regrouped.** -/
theorem regroups (hcanonical : ∀ r ∈ rows, r.IsCanonical) :
    Regroups rows ((readingOf rows).orders rows) := by
  have hid : ∀ id ∈ orderIds rows, ((readingOf rows).order rows (toString id)).id = id := by
    intro id hmem
    obtain ⟨r, hr, hid⟩ := mem_orderIds.mp hmem
    exact h.header_id hcanonical hr hid
  rw [h.orders_eq]
  refine
    { order := fun r => h.order
      ids := ?_
      header := List.forall_mem_map.mpr ?_
      items := List.forall_mem_map.mpr ?_
      valid := List.forall_mem_map.mpr ?_ }
  · rw [List.map_map]
    exact (List.map_congr_left hid).trans (List.map_id' _)
  · intro id hmem
    rw [hid id hmem]
    obtain ⟨r, hr, hrow⟩ := mem_orderIds.mp hmem
    obtain ⟨first, hfirst⟩ := exists_firstRow? hr hrow
    exact ⟨first, hfirst, h.header hcanonical hfirst⟩
  · intro id hmem
    rw [hid id hmem]
    exact (h.forall₂_items id).imp fun r i hi => hi.1
  · intro id hmem i hi
    rw [hid id hmem]
    obtain ⟨r, hr, hholds, hprice⟩ := exists_of_forall₂ (h.forall₂_items id).flip hi
    obtain ⟨-, hrow, -⟩ := mem_itemRows.mp hr
    exact ⟨Option.some.inj (hholds.order.symm.trans hrow), hprice⟩

/-- **Legible rows are read**, and nothing else is. -/
theorem ordersOfRows_eq (hcanonical : ∀ r ∈ rows, r.IsCanonical) :
    ordersOfRows rows = .ok ((readingOf rows).orders rows) := by
  have hread : ordersOfRows (rows.map fun r => r) = _ :=
    (readingOf rows).ordersOfRows_map fun before r after heq => h.decodes hcanonical heq
  rwa [List.map_id'] at hread

end Legible

/-! ### What is not legible -/

theorem exists_holdsItem {item : Option Item} (hid : r.order? = some id)
    (hread : readItem? id r = .ok item) (hnull : r.item.isNull = false) :
    ∃ i, r.HoldsItem i ∧ Money.new i.price.amount = .ok i.price := by
  obtain ⟨i, -, hi, hprice⟩ := (readItem?_eq_ok_iff hid hnull).mp hread
  exact ⟨i, hi, hprice⟩

/-- A row that is read is legible. -/
theorem isLegible_of_addRow {groups : List Group} (h : Legible rows)
    (hcanonical : ∀ r ∈ rows, r.IsCanonical)
    (hread : Group.addRow ((readingOf rows).groups rows) r = .ok groups) : r.IsLegible rows := by
  cases htext : r.id.text? with
  | none =>
      unfold Group.addRow at hread
      rw [htext] at hread
      cases hread
  | some key =>
      have hfind : ((readingOf rows).groups rows).find? (·.key = key) = _ :=
        (readingOf rows).find?_groups key
      split at hfind
      next hmem =>
        rw [Group.addRow_of_some htext hfind] at hread
        obtain ⟨item, hitem, -⟩ := ok_of_bind hread
        -- the order has been read before, by the same text
        obtain ⟨b, hb, rfl⟩ := List.mem_map.mp hmem
        obtain ⟨id, hid⟩ := h.order hb
        have horder : r.order? = some id :=
          JoinedCells.order?_eq_of_text (htext.trans (congrArg some (key_readingOf hid)))
        have hheader : ((readingOf rows).header ((readingOf rows).key b)).id = id := by
          rw [key_readingOf hid]
          exact h.header_id hcanonical hb hid
        rw [show ((readingOf rows).order rows _).id = id from hheader] at hitem
        refine ⟨⟨id, horder⟩, fun hnew => ?_, exists_holdsItem horder hitem⟩
        exact absurd (List.mem_map.mpr ⟨b, hb, hid.trans horder.symm⟩) hnew
      next =>
        rw [Group.addRow_of_none htext hfind] at hread
        obtain ⟨header, hheader, hread⟩ := ok_of_bind hread
        obtain ⟨item, hitem, -⟩ := ok_of_bind hread
        have hholds := (readHeader_eq_ok_iff htext).mp hheader
        exact ⟨⟨_, hholds.id⟩, fun _ => ⟨header, hholds⟩, exists_holdsItem hholds.id hitem⟩

/-- **Rows are legible if they are read**, one after the other. -/
theorem legible_of_foldlM {groups : List Group} (hcanonical : ∀ r ∈ rows, r.IsCanonical)
    (h : rows.foldlM Group.addRow [] = .ok groups) : Legible rows := by
  induction rows using List.reverseRecOn generalizing groups with
  | nil =>
      intro before r after heq
      simp at heq
  | append_singleton rows r ih =>
      rw [List.foldlM_append] at h
      obtain ⟨read, hread, h⟩ := ok_of_bind h
      obtain ⟨next, hnext, h⟩ := ok_of_bind h
      have hrows := fun r hr => hcanonical r (List.mem_append_left _ hr)
      have hlegible := ih hrows hread
      refine legible_append_singleton.mpr ⟨hlegible, ?_⟩
      have hgroups : (rows.map fun r => r).foldlM Group.addRow [] = _ :=
        (readingOf rows).foldlM_addRow fun before r after heq => hlegible.decodes hrows heq
      rw [List.map_id', hread] at hgroups
      cases hgroups
      exact isLegible_of_addRow hlegible hrows hnext

/-! ### What is found -/

namespace Regroups

variable {found found' : List Order} {o o' : Order}

theorem id_mem (h : Regroups rows found) (hr : r ∈ rows) (hid : r.order? = some id) :
    id ∈ found.map (·.id) := by
  rw [h.ids, mem_orderIds]
  exact ⟨r, hr, hid⟩

/-- Rows that are regrouped are legible. -/
theorem legible (h : Regroups rows found) : Legible rows := by
  intro before r after heq
  have hr : r ∈ rows := heq ▸ List.mem_append_right _ List.mem_cons_self
  obtain ⟨id, hid⟩ := h.order r hr
  obtain ⟨o, ho, rfl⟩ := List.mem_map.mp (h.id_mem hr hid)
  refine ⟨⟨_, hid⟩, fun hnew => ?_, fun hnull => ?_⟩
  · obtain ⟨first, hfirst, hheader⟩ := h.header o ho
    have hself := firstRow?_eq_some_iff.mpr ⟨hid, before, after, heq, hid ▸ hnew⟩
    cases hfirst.symm.trans hself
    exact ⟨_, hheader⟩
  · obtain ⟨i, hi, hholds⟩ := exists_of_forall₂ (h.items o ho) (mem_itemRows.mpr ⟨hr, hid, hnull⟩)
    exact ⟨i, hholds, (h.valid o ho i hi).2⟩

theorem eq_of_id_eq (h : Regroups rows found) (h' : Regroups rows found') (ho : o ∈ found)
    (ho' : o' ∈ found') (hid : o.id = o'.id) : o = o' := by
  obtain ⟨first, hfirst, hheader⟩ := h.header o ho
  obtain ⟨first', hfirst', hheader'⟩ := h'.header o' ho'
  have hitems := h.items o ho
  rw [hid] at hfirst hitems
  cases hfirst.symm.trans hfirst'
  have hheaders := hheader.unique hheader'
  have hunique : Relator.RightUnique JoinedCells.HoldsItem :=
    fun _ _ _ => JoinedCells.HoldsItem.unique
  have hall := List.right_unique_forall₂' hunique hitems (h'.items o' ho')
  cases o
  cases o'
  cases hheaders
  cases hall
  rfl

/-- **Rows can be regrouped in one way only.** -/
theorem unique (h : Regroups rows found) (h' : Regroups rows found') : found = found' := by
  have hids : found.map (·.id) = found'.map (·.id) := h.ids.trans h'.ids.symm
  refine List.ext_getElem (by simpa using congrArg List.length hids) fun n hn hn' => ?_
  refine h.eq_of_id_eq h' (List.getElem_mem hn) (List.getElem_mem hn') ?_
  have hget := List.getElem_of_eq hids (by simpa using hn)
  simpa using hget

end Regroups

/-- **Just what the rows are regrouped into is read from them.** -/
theorem ordersOfRows_eq_ok_iff (hcanonical : ∀ r ∈ rows, r.IsCanonical) {found : List Order} :
    ordersOfRows rows = .ok found ↔ Regroups rows found := by
  constructor
  · intro hread
    obtain ⟨groups, hgroups, -⟩ := ok_of_bind hread
    have hlegible := legible_of_foldlM hcanonical hgroups
    cases (hlegible.ordersOfRows_eq hcanonical).symm.trans hread
    exact hlegible.regroups hcanonical
  · intro h
    rw [h.legible.ordersOfRows_eq hcanonical,
      (h.legible.regroups hcanonical).unique h]

end Checkout.Sql
