import Checkout.Proofs.Sql.Columns
import Checkout.Sql.Connection

/-!
# What a relational server does

A server keeps three tables and answers statements by their relational meaning. It need not say how:
rows that are asked for in no sequence may come in any, and the numbers of new items may have gaps.
`Server.Step` is what a statement may do to a server and answer. `Relational` are the databases at
whose other end there is such a server; they need not take statements with too many parameters, and
none that break a rule of the schema.
-/

namespace Checkout

/-- A column holds the time without loss. There are whole microseconds in a column, and no leap
seconds. -/
structure Timestamp.IsKept (t : Timestamp) : Prop where
  fits : t.FitsColumn
  micro : t.nano % 1000 = 0
  second_lt : t.second < 60

/-- The columns for headers hold the header without loss. -/
structure Header.IsKept (h : Header) : Prop where
  createdAt : h.createdAt.IsKept
  updatedAt : h.updatedAt.IsKept

/-- The columns for items hold the item without loss: its price is a whole number of cents, of twelve
digits at most. -/
def Item.IsKept (i : Item) : Prop := ∃ cents, i.price.amount.Hundredths cents ∧ cents < tenTo 12

/-- All that may be stored of the request is held without loss. -/
structure Request.IsKept (r : Request) : Prop where
  header : r.header.IsKept
  items : ∀ i ∈ r.items, i.IsKept

namespace Sql

/-! ## Tables -/

/-- A product. Its other columns are not looked at. -/
structure ProductRow where
  id : String
  quantity : UInt32
  deriving DecidableEq

/-- The header of an order, its times as the column is given them. -/
structure OrderRow where
  id : String
  user : String
  createdAt : String
  updatedAt : String
  deriving DecidableEq

/-- An item, its price in cents. -/
structure ItemRow where
  seq : Nat
  id : String
  order : String
  product : String
  cents : Nat
  quantity : UInt32
  deriving DecidableEq

/-- An order with one of its items, or without an item if it has none. -/
structure JoinedRow where
  order : OrderRow
  item : Option ItemRow
  deriving DecidableEq

/-- What the tables hold. -/
structure Tables where
  products : List ProductRow
  orders : List OrderRow
  items : List ItemRow
  deriving DecidableEq

/-- The row that is inserted for a header. -/
def OrderRow.of (h : Header) : OrderRow :=
  ⟨toString h.id, toString h.user, h.createdAt.toColumnText, h.updatedAt.toColumnText⟩

/-- The row is what is inserted for an item, under some number. -/
structure ItemRow.Stores (row : ItemRow) (i : Item) : Prop where
  id : row.id = toString i.id
  order : row.order = toString i.order
  product : row.product = toString i.product
  price : i.price.amount.Hundredths row.cents
  cents_lt : row.cents < tenTo 12
  quantity : row.quantity = i.quantity

namespace Tables

/-- The identifiers in a table. -/
def ids (t : Tables) : Table → List String
  | .products => t.products.map (·.id)
  | .orders => t.orders.map (·.id)
  | .orderItems => t.items.map (·.id)

/-- The items of an order. -/
def itemsOf (t : Tables) (order : String) : List ItemRow := t.items.filter (·.order = order)

/-- An order with each of its items, or alone. -/
def joinedWith (t : Tables) (o : OrderRow) : List JoinedRow :=
  if (t.itemsOf o.id).isEmpty then [⟨o, none⟩] else (t.itemsOf o.id).map fun i => ⟨o, some i⟩

/-- The listed orders, joined with their items. -/
def joined (t : Tables) (ids : List String) : List JoinedRow :=
  (t.orders.filter (·.id ∈ ids)).flatMap t.joinedWith

end Tables

namespace JoinedRow

/-- The number of the row's item is not above that of another one's. -/
def NotAfter (a b : JoinedRow) : Prop := ∀ i ∈ a.item, ∀ j ∈ b.item, i.seq ≤ j.seq

/-- The row may come before another one: the text of its order does, or both are of one order and the
numbers of the items do not descend. -/
def Precedes (a b : JoinedRow) : Prop :=
  a.order.id < b.order.id ∨ a.order.id = b.order.id ∧ a.NotAfter b

end JoinedRow

/-- What is left of a product: the quantity that is paired with its identifier is taken from it. -/
def ProductRow.reduced (ds : List Decrement) (row : ProductRow) : ProductRow :=
  match ds.find? fun d => toString d.product = row.id with
  | some d => { row with quantity := row.quantity - d.quantity }
  | none => row

/-! ## Cells -/

/-- The text of a price: the cents are the two digits behind the point. -/
def centsText (cents : Nat) : String :=
  String.ofList (Text.natural (cents / 100) ++ '.' :: Text.fixed 10 2 (cents % 100))

namespace Cell

def ofId (text : String) : Cell := ⟨.char, .text text⟩

def ofQuantity (n : UInt32) : Cell := ⟨.intUnsigned, .integer n.toNat⟩

def ofTime (text : String) : Cell := ⟨.timestamp, .text text⟩

def ofCents (cents : Nat) : Cell := ⟨.decimal, .text (centsText cents)⟩

/-- A cell of a row that was joined with none. -/
def absent (type : ColumnType) : Cell := ⟨type, .null⟩

end Cell

def ProductRow.cells (row : ProductRow) : StockCells := ⟨.ofId row.id, .ofQuantity row.quantity⟩

def JoinedRow.cells (row : JoinedRow) : JoinedCells where
  id := .ofId row.order.id
  user := .ofId row.order.user
  createdAt := .ofTime row.order.createdAt
  updatedAt := .ofTime row.order.updatedAt
  item := row.item.elim (.absent .char) (.ofId ·.id)
  product := row.item.elim (.absent .char) (.ofId ·.product)
  price := row.item.elim (.absent .decimal) (.ofCents ·.cents)
  quantity := row.item.elim (.absent .intUnsigned) (.ofQuantity ·.quantity)

/-! ## Statements -/

/-- A statement that can be read and breaks no rule of the schema: no list is empty, no quantity
becomes negative, rows are held without loss and do not repeat a key, and items are of orders that
exist. -/
def Statement.Admissible : Statement → Tables → Prop
  | .selectIds _ ids, _ => ids ≠ []
  | .selectStock products, _ => products ≠ []
  | .decrementStock ds, t =>
    ds ≠ [] ∧
      ∀ d ∈ ds, ∀ row ∈ t.products, row.id = toString d.product → d.quantity ≤ row.quantity
  | .insertOrders orders, t =>
    orders ≠ [] ∧ (t.ids .orders ++ orders.map (toString ·.id)).Nodup ∧
      ∀ o ∈ orders, o.toHeader.IsKept
  | .insertItems items, t =>
    items ≠ [] ∧ (t.ids .orderItems ++ items.map (toString ·.id)).Nodup ∧
      (∀ i ∈ items, toString i.order ∈ t.ids .orders) ∧
      ∀ i ∈ items, i.IsKept
  | .selectOrders orders, _ => orders ≠ []
  | _, _ => True

/-- A server: the tables as they were committed last, and as they are inside the open transaction, if
there is one. -/
structure Server where
  committed : Tables
  working : Option Tables
  deriving DecidableEq

namespace Server

/-- The tables that statements are about. -/
def tables (v : Server) : Tables := v.working.getD v.committed

/-- The server after a change to the tables, which is kept at once unless a transaction is open. -/
def change (v : Server) (t : Tables) : Server :=
  if v.working.isSome then { v with working := some t } else ⟨t, none⟩

/-- What a server may do with a statement, and with which rows it may answer. -/
def Step : (s : Statement) → Server → List s.Row → Server → Prop
  | .start, v, _, v' => v' = ⟨v.tables, some v.tables⟩
  | .commit, v, _, v' => v' = ⟨v.tables, none⟩
  | .rollback, v, _, v' => v' = ⟨v.committed, none⟩
  | .selectIds table ids, v, rows, v' =>
    v' = v ∧ ∃ l : List String, l.Perm ((v.tables.ids table).filter (· ∈ ids)) ∧
      rows = l.map .ofId
  | .selectStock products, v, rows, v' =>
    v' = v ∧ ∃ l : List ProductRow,
      l.Perm (v.tables.products.filter (·.id ∈ products.map toString)) ∧
      rows = l.map ProductRow.cells
  | .decrementStock ds, v, _, v' =>
    v' = v.change { v.tables with products := v.tables.products.map (.reduced ds) }
  | .insertOrders orders, v, _, v' =>
    v' = v.change
      { v.tables with orders := v.tables.orders ++ orders.map fun o => .of o.toHeader }
  | .insertItems items, v, _, v' =>
    ∃ new, List.Forall₂ ItemRow.Stores new items ∧ new.Pairwise (·.seq < ·.seq) ∧
      (∀ i ∈ v.tables.items, ∀ j ∈ new, i.seq < j.seq) ∧
      v' = v.change { v.tables with items := v.tables.items ++ new }
  | .selectOrders orders, v, rows, v' =>
    v' = v ∧ ∃ l : List JoinedRow, l.Perm (v.tables.joined (orders.map toString)) ∧
      l.Pairwise JoinedRow.Precedes ∧ rows = l.map JoinedRow.cells
  -- the tables exist, and such a statement commits
  | .create _, v, _, v' => v' = ⟨v.tables, none⟩

end Server

/-- How many parameters a statement may have. -/
def parameterLimit : Nat := 65535

/-- At the other end of the database there is a server, seen through `view`: it takes every
admissible statement that has not too many parameters, and does what the statement means. -/
def Relational {π : Type} (db : Database π) (view : π → Server) : Prop :=
  ∀ s p, s.parameters.length ≤ parameterLimit → s.Admissible (view p).tables →
    ∃ rows, ((db s).run p).1 = .ok rows ∧ (view p).Step s rows (view ((db s).run p).2)

end Sql

end Checkout
