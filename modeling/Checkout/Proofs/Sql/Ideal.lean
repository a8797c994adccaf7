import Checkout.Proofs.Sql.Holding
import Mathlib.Data.List.Sort
import Mathlib.Data.Prod.Lex
import Mathlib.Data.String.Basic

/-!
# An ideal server

There are relational servers. The ideal one answers with rows in the sequence that its tables have,
numbers new items without gaps and refuses nothing (`ideal_relational`). Tables can hold all contents
of a store in memory in which nothing would be lost (`Tables.of_holds`).
-/

namespace Checkout

/-- The price in cents. What it has beyond them is left out. -/
def Item.cents (i : Item) : Nat := i.price.amount.mantissa * tenTo 2 / tenTo i.price.amount.scale

theorem Decimal.Hundredths.eq_div {a : Decimal} {cents : Nat} (h : a.Hundredths cents) :
    cents = a.mantissa * tenTo 2 / tenTo a.scale := by
  have hsigned : a.signed = a.mantissa := by
    have hnonneg := h.nonneg
    unfold signed at hnonneg ⊢
    split <;> split at hnonneg <;> omega
  have hvalue : a.mantissa * tenTo 2 = cents * tenTo a.scale := by
    have hcents := h
    unfold Hundredths at hcents
    rw [hsigned] at hcents
    exact_mod_cast hcents
  rw [hvalue, Nat.mul_div_cancel _ (tenTo_pos _)]

namespace Sql

/-! ## Rows -/

/-- The row for an item, under a number. -/
def ItemRow.of (seq : Nat) (i : Item) : ItemRow :=
  ⟨seq, toString i.id, toString i.order, toString i.product, i.cents, i.quantity⟩

namespace ItemRow

/-- The rows for items, numbered from the given number on. -/
def numbered : Nat → List Item → List ItemRow
  | _, [] => []
  | seq, i :: is => .of seq i :: numbered (seq + 1) is

theorem stores_of (seq : Nat) {i : Item} (h : i.IsKept) : (of seq i).Stores i := by
  obtain ⟨cents, hcents, hlt⟩ := h
  obtain rfl : cents = i.cents := hcents.eq_div
  exact ⟨rfl, rfl, rfl, hcents, hlt, rfl⟩

theorem stores_numbered (seq : Nat) {items : List Item} (h : ∀ i ∈ items, i.IsKept) :
    List.Forall₂ Stores (numbered seq items) items := by
  induction items generalizing seq with
  | nil => exact .nil
  | cons i is ih =>
      exact .cons (stores_of seq (h i List.mem_cons_self))
        (ih (seq + 1) fun j hj => h j (List.mem_cons_of_mem _ hj))

theorem le_seq_of_mem_numbered {seq : Nat} {items : List Item} {row : ItemRow}
    (h : row ∈ numbered seq items) : seq ≤ row.seq := by
  induction items generalizing seq with
  | nil => cases h
  | cons i is ih =>
      rcases List.mem_cons.mp h with rfl | h
      · exact Nat.le_refl seq
      · exact Nat.le_of_succ_le (ih h)

theorem numbered_ascending (seq : Nat) (items : List Item) :
    (numbered seq items).Pairwise (·.seq < ·.seq) := by
  induction items generalizing seq with
  | nil => exact .nil
  | cons i is ih => exact .cons (fun row hrow => le_seq_of_mem_numbered hrow) (ih (seq + 1))

end ItemRow

/-- What joined rows are sorted by. -/
def JoinedRow.key (row : JoinedRow) : String ×ₗ Nat :=
  toLex (row.order.id, row.item.elim 0 (·.seq))

theorem JoinedRow.precedes_of_key_le {a b : JoinedRow} (h : a.key ≤ b.key) : a.Precedes b := by
  refine (Prod.Lex.toLex_le_toLex.mp h).imp_right fun ⟨hid, hseq⟩ => ⟨hid, ?_⟩
  intro i hi j hj
  rw [show a.item = some i from hi, show b.item = some j from hj] at hseq
  exact hseq

namespace Tables

/-- No item has a higher number. -/
def lastSeq (t : Tables) : Nat := t.items.foldr (fun i seq => max i.seq seq) 0

theorem seq_le_lastSeq {t : Tables} {row : ItemRow} (h : row ∈ t.items) : row.seq ≤ t.lastSeq := by
  unfold lastSeq
  generalize t.items = rows at h
  induction rows with
  | nil => cases h
  | cons r rs ih =>
      rw [List.foldr_cons]
      rcases List.mem_cons.mp h with rfl | h
      · exact Nat.le_max_left _ _
      · exact (ih h).trans (Nat.le_max_right _ _)

/-! ## Tables for given contents -/

/-- The tables for the contents of a store. -/
def of (c : Contents) : Tables where
  products := c.stock.toList.map fun (p, q) => ⟨toString p, q⟩
  orders := c.headers.toList.map fun (_, h) => .of h
  items := ItemRow.numbered 1 c.items

/-- **The tables for contents hold them** if all of it is kept. -/
theorem of_holds {c : Contents} (hsound : c.Sound)
    (hheaders : ∀ id h, c.header? id = some h → h.IsKept)
    (hitems : ∀ i ∈ c.items, i.IsKept) : (of c).Holds c := by
  refine ⟨⟨fun row => ?_, ?_⟩, ⟨fun row => ?_, ?_, hheaders, ItemRow.stores_numbered 1 hitems,
    ItemRow.numbered_ascending 1 _⟩⟩
  · show row ∈ c.stock.toList.map _ ↔ _
    rw [List.mem_map]
    constructor
    · rintro ⟨⟨p, q⟩, hmem, rfl⟩
      exact ⟨p, Std.ExtTreeMap.mem_toList_iff_getElem?_eq_some.mp hmem, rfl⟩
    · rintro ⟨p, hq, hid⟩
      refine ⟨(p, row.quantity), Std.ExtTreeMap.mem_toList_iff_getElem?_eq_some.mpr hq, ?_⟩
      exact congrArg (ProductRow.mk · row.quantity) hid.symm
  · have hids : (of c).ids .products = c.stock.keys.map toString := by
      rw [← Std.ExtTreeMap.map_fst_toList_eq_keys, List.map_map]
      exact List.map_map
    rw [hids]
    exact Std.ExtTreeMap.nodup_keys.map Identifier.toString_injective
  · show row ∈ c.headers.toList.map _ ↔ _
    rw [List.mem_map]
    constructor
    · rintro ⟨⟨id, h⟩, hmem, rfl⟩
      exact ⟨id, h, Std.ExtTreeMap.mem_toList_iff_getElem?_eq_some.mp hmem, rfl⟩
    · rintro ⟨id, h, hh, rfl⟩
      exact ⟨(id, h), Std.ExtTreeMap.mem_toList_iff_getElem?_eq_some.mpr hh, rfl⟩
  · have hids : (of c).ids .orders = c.headers.keys.map toString := by
      rw [← Std.ExtTreeMap.map_fst_toList_eq_keys, List.map_map]
      refine List.map_map.trans (List.map_congr_left fun ⟨id, h⟩ hmem => ?_)
      exact congrArg toString
        (hsound.header_id id h (Std.ExtTreeMap.mem_toList_iff_getElem?_eq_some.mp hmem))
    rw [hids]
    exact Std.ExtTreeMap.nodup_keys.map Identifier.toString_injective

end Tables

/-! ## Answers -/

/-- What an ideal server answers to a statement, and what it is then. -/
def Server.respond (v : Server) : (s : Statement) → List s.Row × Server
  | .start => ([], ⟨v.tables, some v.tables⟩)
  | .commit => ([], ⟨v.tables, none⟩)
  | .rollback => ([], ⟨v.committed, none⟩)
  | .selectIds table ids => (((v.tables.ids table).filter (· ∈ ids)).map .ofId, v)
  | .selectStock products =>
    ((v.tables.products.filter (·.id ∈ products.map toString)).map ProductRow.cells, v)
  | .decrementStock ds =>
    ([], v.change { v.tables with products := v.tables.products.map (.reduced ds) })
  | .insertOrders orders =>
    ([], v.change
      { v.tables with orders := v.tables.orders ++ orders.map fun o => .of o.toHeader })
  | .insertItems items =>
    ([], v.change
      { v.tables with
        items := v.tables.items ++ ItemRow.numbered (v.tables.lastSeq + 1) items })
  | .selectOrders orders =>
    (((v.tables.joined (orders.map toString)).mergeSort
      fun a b => decide (a.key ≤ b.key)).map JoinedRow.cells, v)
  | .create _ => ([], ⟨v.tables, none⟩)

/-- The ideal server as a database. -/
def ideal : Database Server := fun s v => (.ok (v.respond s).1, (v.respond s).2)

/-- **The ideal server is relational.** -/
theorem ideal_relational : Relational ideal id := by
  intro s v _ hadmissible
  refine ⟨(v.respond s).1, rfl, ?_⟩
  show v.Step s (v.respond s).1 (v.respond s).2
  cases s with
  | selectIds table ids => exact ⟨rfl, _, .refl _, rfl⟩
  | selectStock products => exact ⟨rfl, _, .refl _, rfl⟩
  | insertItems items =>
      obtain ⟨-, -, -, hkept⟩ := hadmissible
      refine ⟨_, ItemRow.stores_numbered _ hkept, ItemRow.numbered_ascending _ _, ?_, rfl⟩
      intro i hi j hj
      have hlast := Tables.seq_le_lastSeq hi
      have hnew := ItemRow.le_seq_of_mem_numbered hj
      omega
  | selectOrders orders =>
      refine ⟨rfl, _, List.mergeSort_perm _ _, ?_, rfl⟩
      exact (List.pairwise_mergeSort' (Order.Preimage JoinedRow.key (· ≤ ·)) _).imp
        JoinedRow.precedes_of_key_le
  | _ => rfl

end Sql

end Checkout
