import Checkout.Proofs.Decimal.Text
import Checkout.Proofs.Sql.Legibility
import Checkout.Proofs.Sql.Server
import Checkout.Proofs.Time.Column

/-!
# Reading rows back

The rows in which headers and items are held without loss are read as these: a header as it was
(`readHeader_cells`), and an item with a price of the same value (`readItem?_cells`).
-/

namespace Checkout

theorem Decimal.Hundredths.sameValue {a b : Decimal} {cents : Nat} (ha : a.Hundredths cents)
    (hb : b.Hundredths cents) : a.sameValue b = true := by
  rw [sameValue_iff]
  apply Int.eq_of_mul_eq_mul_right (tenTo_cast_pos 2).ne'
  calc a.signed * tenTo b.scale * tenTo 2 = cents * tenTo a.scale * tenTo b.scale := by
        rw [mul_right_comm, ha]
    _ = b.signed * tenTo a.scale * tenTo 2 := by
        rw [mul_right_comm (b.signed), hb, mul_right_comm]

/-- The years of column times have four digits. -/
theorem Timestamp.FitsColumn.year {t : Timestamp} (h : t.FitsColumn) :
    0 ≤ t.date.year ∧ t.date.year ≤ 9999 := by
  obtain ⟨hmin, hmax⟩ := h
  have hmonth := t.date.month_le
  have hday := t.date.day_le_31
  have hhour := t.hour_lt
  have hminute := t.minute_lt
  have hsecond := t.second_le
  unfold reading at hmin hmax
  omega

theorem Timestamp.IsKept.ofColumnText? {t : Timestamp} (h : t.IsKept) :
    ofColumnText? t.toColumnText = some t :=
  ofColumnText?_toColumnText h.fits.year h.micro

namespace Sql

/-! ## Prices -/

theorem ofString?_centsText {cents : Nat} (h : cents < tenTo 12) :
    ∃ a, Decimal.ofString? (centsText cents) = some a ∧ a.Hundredths cents := by
  have hlt : cents % 100 < 10 ^ 2 := Nat.mod_lt _ (by decide)
  have hvalue : cents / 100 * 10 ^ 2 + cents % 100 = cents := Nat.div_add_mod' cents 100
  have hbound : cents / 100 * 10 ^ 2 + cents % 100 < Decimal.mantissaBound := by
    rw [hvalue]
    exact Nat.lt_trans h (by decide)
  refine ⟨_, Decimal.ofString?_point hlt hbound (by decide), ?_⟩
  show ((cents / 100 * 10 ^ 2 + cents % 100 : Nat) : Int) * tenTo 2 = cents * tenTo 2
  rw [hvalue]

/-- A price in cents is read as an amount of money. -/
theorem new_ofCents {cents : Nat} (h : cents < tenTo 12) :
    ∃ a m, (Cell.ofCents cents).decimal? = some a ∧ Money.new a = .ok m ∧
      m.amount.Hundredths cents := by
  obtain ⟨a, hread, hcents⟩ := ofString?_centsText h
  obtain ⟨m, hm⟩ := Money.exists_new_iff.mpr ⟨cents, hcents, h⟩
  refine ⟨a, m, hread, hm, ?_⟩
  rw [Money.amount_of_new hm]
  exact hcents

/-! ## Rows -/

theorem nat32?_ofQuantity (n : UInt32) : (Cell.ofQuantity n).nat32? = some n := by
  show (if n.toNat < UInt32.size then some (UInt32.ofNat n.toNat) else none) = some n
  rw [if_pos n.toNat_lt_size, UInt32.ofNat_toNat]

theorem readStock_cells {row : ProductRow} {p : ProductId} (h : row.id = toString p) :
    readStock row.cells = .ok ⟨p, row.quantity⟩ := by
  have hid : row.cells.id.text? = some (toString p) := congrArg some h
  unfold readStock
  simp only [bind_eq_ok_iff, decoded_eq_ok_iff, pure_eq_ok_iff]
  exact ⟨_, hid, p, Identifier.ofString?_toString p, _, nat32?_ofQuantity _, rfl⟩

section

variable {row : JoinedRow} {h : Header} {stored : ItemRow} {i : Item}

theorem holdsHeader_cells (hrow : row.order = .of h) (hkept : h.IsKept) :
    row.cells.HoldsHeader h := by
  have hid : row.cells.id.text? = some (toString h.id) := congrArg (some <| OrderRow.id ·) hrow
  have huser : row.cells.user.text? = some (toString h.user) :=
    congrArg (some <| OrderRow.user ·) hrow
  refine ⟨JoinedCells.order?_eq_of_text hid, ?_, ?_, ?_⟩
  · exact id?_eq_some_iff.mpr ⟨_, huser, Identifier.ofString?_toString h.user⟩
  · rw [← hkept.createdAt.ofColumnText?]
    simp [JoinedRow.cells, hrow, OrderRow.of, Cell.ofTime, Cell.timestamp?]
  · rw [← hkept.updatedAt.ofColumnText?]
    simp [JoinedRow.cells, hrow, OrderRow.of, Cell.ofTime, Cell.timestamp?]

/-- **A header that is kept is read as it was.** -/
theorem readHeader_cells (hrow : row.order = .of h) (hkept : h.IsKept) :
    readHeader (toString h.id) row.cells = .ok h := by
  have hid : row.cells.id.text? = some (toString h.id) := congrArg (some <| OrderRow.id ·) hrow
  exact (readHeader_eq_ok_iff hid).mpr (holdsHeader_cells hrow hkept)

/-- The row of an item holds it, up to the writing of its price. -/
theorem exists_holdsItem_cells (horder : row.order.id = toString i.order)
    (hrow : row.item = some stored) (hstored : stored.Stores i) :
    ∃ j, row.cells.HoldsItem j ∧ Money.new j.price.amount = .ok j.price ∧ j.same i = true := by
  obtain ⟨a, m, hread, hnew, hcents⟩ := new_ofCents hstored.cents_lt
  obtain rfl := Money.amount_of_new hnew
  refine ⟨⟨i.id, i.order, i.product, m, i.quantity, i.quantity_pos⟩, ?_, hnew, ?_⟩
  · have hid : row.cells.item.text? = some (toString i.id) := by
      rw [← hstored.id]
      simp [JoinedRow.cells, hrow, Cell.ofId, Cell.text?]
    have hproduct : row.cells.product.text? = some (toString i.product) := by
      rw [← hstored.product]
      simp [JoinedRow.cells, hrow, Cell.ofId, Cell.text?]
    refine ⟨?_, JoinedCells.order?_eq_of_text (congrArg some horder), ?_, ?_, ?_⟩
    · exact id?_eq_some_iff.mpr ⟨_, hid, Identifier.ofString?_toString i.id⟩
    · exact id?_eq_some_iff.mpr ⟨_, hproduct, Identifier.ofString?_toString i.product⟩
    · rw [← hread]
      simp [JoinedRow.cells, hrow]
    · show row.cells.quantity.nat32? = some i.quantity
      rw [← hstored.quantity, ← nat32?_ofQuantity]
      simp [JoinedRow.cells, hrow]
  · unfold Item.same Money.sameValue
    simp [hcents.sameValue hstored.price]

/-- **An item is read as it was**, up to the writing of its price. -/
theorem readItem?_cells (horder : row.order.id = toString i.order) (hrow : row.item = some stored)
    (hstored : stored.Stores i) :
    ∃ j, readItem? i.order row.cells = .ok (some j) ∧ j.same i = true := by
  obtain ⟨j, hholds, hnew, hsame⟩ := exists_holdsItem_cells horder hrow hstored
  have hid : row.cells.order? = some i.order :=
    JoinedCells.order?_eq_of_text (congrArg some horder)
  exact ⟨j, (readItem?_eq_ok_iff hid hholds.isNull_eq_false).mpr ⟨j, rfl, hholds, hnew⟩, hsame⟩

end

/-- The items of an order are in the rows that name it. -/
theorem forall₂_itemsOf {t : Tables} {items : List Item}
    (h : List.Forall₂ ItemRow.Stores t.items items) (id : OrderId) :
    List.Forall₂ ItemRow.Stores (t.itemsOf (toString id)) (items.filter (·.order = id)) := by
  refine List.rel_filter (R := ItemRow.Stores) ?_ h
  intro row i hstored
  dsimp only
  rw [decide_eq_true_iff, decide_eq_true_iff, hstored.order]
  exact Identifier.toString_injective.eq_iff

end Sql

end Checkout
