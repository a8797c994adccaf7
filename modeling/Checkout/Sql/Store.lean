import Checkout.Sql.Connection

/-!
# A store in a database

Every action of the store is a statement, or several where lists are long; an empty list needs none.
What comes back is decoded row by row, and the first thing that cannot be decoded is the failure.
Orders come back as rows joined with their items: rows belong together if their order has the same
text, and the first of them says whose order it is and when it was made.
-/

namespace Checkout.Sql

/-- A value decoded, or what could not be decoded. -/
abbrev Decoding (α : Type) := Except DatabaseError α

/-- What was looked for, or a failure to decode it. -/
def decoded {α : Type} (context : String) (a : Option α) : Decoding α :=
  match a with
  | some a => .ok a
  | none => .error (.decode context)

/-- What was built, or a failure that tells why not. -/
def built {α : Type} (context : String) (a : Except Refusal α) : Decoding α :=
  match a with
  | .ok a => .ok a
  | .error refusal => .error (.decode s!"{context}: {refusal.message}")

/-! ### Rows -/

/-- Reads a stock row. -/
def readStock (r : StockCells) : Decoding StockRow := do
  let id ← decoded "商品IDの取得に失敗しました" r.id.text?
  let product ← decoded "商品IDの解析に失敗しました" (Identifier.ofString? id)
  let quantity ← decoded "在庫数の取得に失敗しました" r.quantity.nat32?
  return ⟨product, quantity⟩

/-- Reads the header of an order whose identifier is written as `id`. -/
def readHeader (id : String) (r : JoinedCells) : Decoding Header := do
  let order ← decoded "注文IDの解析に失敗しました" (Identifier.ofString? id)
  let user ← decoded "ユーザーIDの取得に失敗しました" r.user.text?
  let user ← decoded "ユーザーIDの解析に失敗しました" (Identifier.ofString? user)
  let createdAt ← decoded "作成日時の取得に失敗しました" r.createdAt.timestamp?
  let updatedAt ← decoded "更新日時の取得に失敗しました" r.updatedAt.timestamp?
  return ⟨order, user, createdAt, updatedAt⟩

/-- Reads the item of an order, if the row has one. -/
def readItem? (order : OrderId) (r : JoinedCells) : Decoding (Option Item) := do
  if r.item.isNull then return none
  let id ← decoded "明細IDの取得に失敗しました" r.item.text?
  let product ← decoded "商品IDの取得に失敗しました" r.product.text?
  let price ← decoded "価格の取得に失敗しました" r.price.decimal?
  let quantity ← decoded "数量の取得に失敗しました" r.quantity.nat32?
  let id ← decoded "明細IDの解析に失敗しました" (Identifier.ofString? id)
  let product ← decoded "商品IDの解析に失敗しました" (Identifier.ofString? product)
  let price ← built "金額の構築に失敗しました" ((Money.new price).mapError .invalidValue)
  let item ← built "注文明細の構築に失敗しました" (Item.new id order product price quantity)
  return some item

/-- An order read so far, with the text of its identifier. -/
structure Group where
  key : String
  order : Order
  deriving DecidableEq

namespace Group

/-- Adds an item to the group of a key. -/
def addItem (key : String) (item : Option Item) (groups : List Group) : List Group :=
  groups.map fun g =>
    if g.key = key then { g with order.items := g.order.items ++ item.toList } else g

/-- Reads a row into the groups: it opens a group if it is the first of its order. -/
def addRow (groups : List Group) (r : JoinedCells) : Decoding (List Group) := do
  let key ← decoded "注文IDの取得に失敗しました" r.id.text?
  match groups.find? (·.key = key) with
  | some g =>
    let item ← readItem? g.order.id r
    return addItem key item groups
  | none =>
    let header ← readHeader key r
    let item ← readItem? header.id r
    return groups ++ [⟨key, { header with items := item.toList }⟩]

end Group

/-- Reads the orders of joined rows, in the sequence in which they first appear. -/
def ordersOfRows (rows : List JoinedCells) : Decoding (List Order) := do
  let groups ← rows.foldlM Group.addRow []
  return groups.map (·.order)

/-! ### Actions -/

section

variable {π : Type}

/-- What was decoded, as the answer of a store. -/
def answer {α : Type} (a : Decoding α) : StoreAction (Connection π) α :=
  match a with
  | .ok a => pure a
  | .error e => throw e.toStoreError

/-- The texts of those identifiers that occur in a table. The rows of each statement are read before
the next one is sent. -/
def existingTexts (db : Database π) (table : Table) :
    List (List String) → StoreAction (Connection π) (List String)
  | [] => return []
  | ids :: rest => do
    let context := "既存IDの取得に失敗しました"
    let cells ← Connection.query db context (.selectIds table ids)
    let found ← answer (cells.mapM fun c => decoded context c.text?)
    return found ++ (← existingTexts db table rest)

/-- Those of the identifiers that occur in a table. -/
def existingIds {kind : Kind} (db : Database π) (table : Table) (context : String)
    (ids : List (Identifier kind)) : StoreAction (Connection π) (List (Identifier kind)) := do
  let texts ← existingTexts db table (chunks (ids.map toString))
  answer (texts.mapM fun t => decoded context (Identifier.ofString? t))

/-- Sends a statement for each part of a list. -/
def sendAll (db : Database π) (context : String) :
    List Statement → StoreAction (Connection π) Unit
  | [] => return
  | s :: ss => do
    let _ ← Connection.query db context s
    sendAll db context ss

/-- The store in a database. -/
def store (db : Database π) : Store (Connection π) where
  start := Connection.start db
  existingOrders := existingIds db .orders "注文IDの解析に失敗しました"
  existingItems := existingIds db .orderItems "明細IDの解析に失敗しました"
  fetchStock ids := do
    if ids.isEmpty then return []
    let rows ← Connection.query db "在庫の取得に失敗しました" (.selectStock ids)
    answer (rows.mapM readStock)
  decrementStock decrements :=
    sendAll db "在庫の更新に失敗しました"
      (if decrements.isEmpty then [] else [.decrementStock decrements])
  insertOrders orders :=
    sendAll db "注文の保存に失敗しました" ((chunks orders).map .insertOrders)
  insertItems items :=
    sendAll db "注文明細の保存に失敗しました" ((chunks items).map .insertItems)
  fetchOrders ids := do
    if ids.isEmpty then return []
    let rows ← Connection.query db "注文の取得に失敗しました" (.selectOrders ids)
    answer (ordersOfRows rows)
  commit := Connection.finish db "コミットに失敗しました" .commit
  rollback := Connection.finish db "ロールバックに失敗しました" .rollback

end

end Checkout.Sql
