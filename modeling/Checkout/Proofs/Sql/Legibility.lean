import Checkout.Proofs.Decimal.Money
import Checkout.Proofs.Json.Size
import Checkout.Proofs.Order.Request
import Checkout.Proofs.Text.Identifier
import Checkout.Sql.Store

/-!
# What can be read in a row

A row holds a header, and maybe an item, if all cells for it can be read. Just what it holds is read
from it (`readHeader_eq_ok_iff`, `readItem?_eq_ok_iff`), and if rows cannot be read it is always for
something that could not be decoded (`FailsToDecode.ordersOfRows`).
-/

namespace Checkout

/-- The items are of the order, at prices that are accepted. -/
def Order.HasValidItems (o : Order) : Prop :=
  ∀ i ∈ o.items, i.order = o.id ∧ Money.new i.price.amount = .ok i.price

namespace Sql

/-- Reads an identifier. -/
def Cell.id? {kind : Kind} (c : Cell) : Option (Identifier kind) := c.text?.bind Identifier.ofString?

/-! ## What rows hold -/

namespace JoinedCells

/-- The order that the row is of. -/
def order? (r : JoinedCells) : Option OrderId := r.id.id?

/-- The order is named by the text of its identifier, and in no other spelling. -/
def IsCanonical (r : JoinedCells) : Prop :=
  ∀ id : OrderId, r.order? = some id → r.id.text? = some (toString id)

/-- The cells for the header can be read, and this is what they say. -/
structure HoldsHeader (r : JoinedCells) (h : Header) : Prop where
  id : r.order? = some h.id
  user : r.user.id? = some h.user
  createdAt : r.createdAt.timestamp? = some h.createdAt
  updatedAt : r.updatedAt.timestamp? = some h.updatedAt

/-- The cells for the item can be read, and this is what they say. -/
structure HoldsItem (r : JoinedCells) (i : Item) : Prop where
  id : r.item.id? = some i.id
  order : r.order? = some i.order
  product : r.product.id? = some i.product
  price : r.price.decimal? = some i.price.amount
  quantity : r.quantity.nat32? = some i.quantity

/-- Every cell that is looked at can be read: the header is looked at if no row before is of the same
order, and the other cells of an item if that of its identifier is not null. -/
structure IsLegible (before : List JoinedCells) (r : JoinedCells) : Prop where
  order : ∃ id, r.order? = some id
  header : r.order? ∉ before.map order? → ∃ h, r.HoldsHeader h
  item : r.item.isNull = false → ∃ i, r.HoldsItem i ∧ Money.new i.price.amount = .ok i.price

variable {r : JoinedCells} {h h' : Header} {i j : Item}

theorem order?_eq_of_text {id : OrderId} (h : r.id.text? = some (toString id)) :
    r.order? = some id := by
  unfold order? Cell.id?
  rw [h, Option.bind_some, Identifier.ofString?_toString]

theorem HoldsHeader.unique (hh : r.HoldsHeader h) (hh' : r.HoldsHeader h') : h = h' := by
  cases h
  cases h'
  cases hh.id.symm.trans hh'.id
  cases hh.user.symm.trans hh'.user
  cases hh.createdAt.symm.trans hh'.createdAt
  cases hh.updatedAt.symm.trans hh'.updatedAt
  rfl

theorem HoldsItem.unique (hi : r.HoldsItem i) (hj : r.HoldsItem j) : i = j := by
  obtain ⟨_, _, _, ⟨_, _⟩, _, _⟩ := i
  obtain ⟨_, _, _, ⟨_, _⟩, _, _⟩ := j
  cases hi.id.symm.trans hj.id
  cases hi.order.symm.trans hj.order
  cases hi.product.symm.trans hj.product
  cases hi.price.symm.trans hj.price
  cases hi.quantity.symm.trans hj.quantity
  rfl

theorem HoldsItem.isNull_eq_false (hi : r.HoldsItem i) : r.item.isNull = false := by
  obtain ⟨text, htext, -⟩ := Option.bind_eq_some_iff.mp hi.id
  unfold Cell.text? at htext
  unfold Cell.isNull
  split at htext <;> simp_all

end JoinedCells

/-! ## Reading cells -/

section

variable {α β : Type} {context key : String} {r : JoinedCells}

theorem decoded_eq_ok_iff {a : Option α} {x : α} : decoded context a = .ok x ↔ a = some x := by
  cases a <;> simp [decoded]

theorem mapError_eq_ok_iff {ε ε' : Type} {f : ε → ε'} {a : Except ε α} {x : α} :
    a.mapError f = .ok x ↔ a = .ok x := by
  cases a <;> simp [Except.mapError]

theorem built_eq_ok_iff {a : Except Refusal α} {x : α} : built context a = .ok x ↔ a = .ok x := by
  cases a <;> simp [built]

theorem pure_eq_ok_iff {ε : Type} {a x : α} : (pure a : Except ε α) = .ok x ↔ a = x :=
  ⟨Except.ok.inj, congrArg _⟩

theorem id?_eq_some_iff {kind : Kind} {c : Cell} {id : Identifier kind} :
    c.id? = some id ↔ ∃ text, c.text? = some text ∧ Identifier.ofString? text = some id :=
  Option.bind_eq_some_iff

/-- **A header is read** if all of its cells can be, and only then. -/
theorem readHeader_eq_ok_iff (hkey : r.id.text? = some key) {h : Header} :
    readHeader key r = .ok h ↔ r.HoldsHeader h := by
  unfold readHeader
  simp only [bind_eq_ok_iff, decoded_eq_ok_iff, pure_eq_ok_iff]
  constructor
  · rintro ⟨order, hid, text, htext, user, huser, createdAt, hcreated, updatedAt, hupdated, rfl⟩
    exact ⟨id?_eq_some_iff.mpr ⟨key, hkey, hid⟩, id?_eq_some_iff.mpr ⟨text, htext, huser⟩, hcreated,
      hupdated⟩
  · intro hholds
    obtain ⟨text, htext, hid⟩ := id?_eq_some_iff.mp hholds.id
    cases hkey.symm.trans htext
    obtain ⟨text, htext, huser⟩ := id?_eq_some_iff.mp hholds.user
    exact ⟨h.id, hid, text, htext, h.user, huser, _, hholds.createdAt, _, hholds.updatedAt, rfl⟩

theorem readItem?_of_isNull (order : OrderId) (h : r.item.isNull = true) :
    readItem? order r = .ok none := if_pos h

/-- **An item is read** if all of its cells can be and its price is accepted, and only then. -/
theorem readItem?_eq_ok_iff {order : OrderId} {item : Option Item} (hid : r.order? = some order)
    (h : r.item.isNull = false) :
    readItem? order r = .ok item ↔
      ∃ i, item = some i ∧ r.HoldsItem i ∧ Money.new i.price.amount = .ok i.price := by
  unfold readItem?
  rw [if_neg (Bool.not_eq_true _ ▸ h)]
  simp only [bind_eq_ok_iff, decoded_eq_ok_iff, built_eq_ok_iff, mapError_eq_ok_iff, pure_eq_ok_iff]
  constructor
  · rintro ⟨idText, hidText, productText, hproductText, amount, hamount, quantity, hquantity, id,
      hitem, product, hproduct, price, hprice, i, hi, rfl⟩
    obtain ⟨rfl, rfl, rfl, rfl, rfl⟩ := Item.eq_of_new hi
    obtain rfl := Money.amount_of_new hprice
    exact ⟨i, rfl, ⟨id?_eq_some_iff.mpr ⟨idText, hidText, hitem⟩, hid,
      id?_eq_some_iff.mpr ⟨productText, hproductText, hproduct⟩, hamount, hquantity⟩, hprice⟩
  · rintro ⟨i, rfl, hholds, hprice⟩
    cases hid.symm.trans hholds.order
    obtain ⟨idText, hidText, hitem⟩ := id?_eq_some_iff.mp hholds.id
    obtain ⟨productText, hproductText, hproduct⟩ := id?_eq_some_iff.mp hholds.product
    exact ⟨idText, hidText, productText, hproductText, _, hholds.price, _, hholds.quantity, i.id,
      hitem, i.product, hproduct, i.price, hprice, i, dif_pos i.quantity_pos, rfl⟩

end

/-! ## Failures -/

/-- If this fails, it is for something that could not be decoded. -/
def FailsToDecode {α : Type} (a : Decoding α) : Prop := ∀ e, a = .error e → ∃ text, e = .decode text

namespace FailsToDecode

variable {α β : Type} {context key : String} {r : JoinedCells}

theorem pure (a : α) : FailsToDecode (pure a) := by
  intro e h
  cases h

theorem decoded (a : Option α) : FailsToDecode (decoded context a) := by
  intro e h
  cases a with
  | none =>
      cases h
      exact ⟨_, rfl⟩
  | some a => cases h

theorem built (a : Except Refusal α) : FailsToDecode (built context a) := by
  intro e h
  cases a with
  | error refusal =>
      cases h
      exact ⟨_, rfl⟩
  | ok a => cases h

theorem bind {a : Decoding α} {f : α → Decoding β} (ha : FailsToDecode a)
    (hf : ∀ x, FailsToDecode (f x)) : FailsToDecode (a >>= f) := by
  intro e h
  cases a with
  | error e' =>
      cases h
      exact ha _ rfl
  | ok x => exact hf x e h

theorem foldlM {f : β → α → Decoding β} (hf : ∀ b a, FailsToDecode (f b a)) (b : β) (as : List α) :
    FailsToDecode (as.foldlM f b) := by
  induction as generalizing b with
  | nil => exact pure b
  | cons a as ih =>
      rw [List.foldlM_cons]
      exact bind (hf b a) ih

theorem readHeader (key : String) (r : JoinedCells) : FailsToDecode (readHeader key r) :=
  bind (decoded _) fun _ => bind (decoded _) fun _ => bind (decoded _) fun _ =>
    bind (decoded _) fun _ => bind (decoded _) fun _ => pure _

theorem readItem? (order : OrderId) (r : JoinedCells) : FailsToDecode (readItem? order r) := by
  unfold Sql.readItem?
  split
  · exact pure _
  · exact bind (decoded _) fun _ => bind (decoded _) fun _ => bind (decoded _) fun _ =>
      bind (decoded _) fun _ => bind (decoded _) fun _ => bind (decoded _) fun _ =>
        bind (built _) fun _ => bind (built _) fun _ => pure _

theorem addRow (groups : List Group) (r : JoinedCells) : FailsToDecode (Group.addRow groups r) := by
  refine bind (decoded _) fun key => ?_
  split
  · exact bind (readItem? _ r) fun _ => pure _
  · exact bind (readHeader _ r) fun _ => bind (readItem? _ r) fun _ => pure _

/-- **Rows are regrouped, or something could not be decoded.** -/
theorem ordersOfRows (rows : List JoinedCells) : FailsToDecode (ordersOfRows rows) :=
  bind (foldlM addRow [] rows) fun _ => pure _

end FailsToDecode

end Sql

end Checkout
