import Checkout.Demand.Resolution
import Checkout.Sql.Cell

/-!
# Statements

What the shop asks of a database. A statement has a text with a place for each parameter, the
parameters in the sequence of their places, and a form of the rows that answer it.
-/

namespace Checkout.Sql

/-- A table of the shop. -/
inductive Table where
  | products
  | orders
  | orderItems
  deriving DecidableEq

namespace Table

/-- The name of the table. -/
def name : Table → String
  | products => "products"
  | orders => "orders"
  | orderItems => "order_items"

/-- The columns and other clauses that make up the table. -/
def clauses : Table → List String
  | products =>
    [ "id CHAR(36) NOT NULL PRIMARY KEY",
      "name VARCHAR(255) NOT NULL DEFAULT ''",
      "price DECIMAL(12, 2) NOT NULL DEFAULT 0.00",
      "quantity INT UNSIGNED NOT NULL DEFAULT 0",
      "created_at TIMESTAMP(6) NOT NULL DEFAULT CURRENT_TIMESTAMP(6)",
      "updated_at TIMESTAMP(6) NOT NULL DEFAULT CURRENT_TIMESTAMP(6) " ++
        "ON UPDATE CURRENT_TIMESTAMP(6)" ]
  | orders =>
    [ "id CHAR(36) NOT NULL PRIMARY KEY",
      "user_id CHAR(36) NOT NULL",
      "created_at TIMESTAMP(6) NOT NULL",
      "updated_at TIMESTAMP(6) NOT NULL",
      "INDEX idx_orders_user_id (user_id)" ]
  | orderItems =>
    [ "seq BIGINT UNSIGNED NOT NULL AUTO_INCREMENT PRIMARY KEY",
      "id CHAR(36) NOT NULL",
      "order_id CHAR(36) NOT NULL",
      "product_id CHAR(36) NOT NULL",
      "price DECIMAL(12, 2) NOT NULL",
      "quantity INT UNSIGNED NOT NULL",
      "UNIQUE KEY uq_order_items_id (id)",
      "INDEX idx_order_items_order_id (order_id)",
      "CONSTRAINT fk_order_items_order FOREIGN KEY (order_id) REFERENCES orders (id) " ++
        "ON DELETE CASCADE" ]

end Table

/-- What stands in a place of a statement. -/
inductive Parameter where
  | text (text : String)
  | number (n : UInt32)
  | decimal (amount : Decimal)
  | time (time : Timestamp)
  deriving DecidableEq

/-- A statement. -/
inductive Statement where
  | start
  | commit
  | rollback
  /-- Which of the identifiers occur in the table. -/
  | selectIds (table : Table) (ids : List String)
  | selectStock (products : List ProductId)
  | decrementStock (decrements : List Decrement)
  | insertOrders (orders : List Order)
  | insertItems (items : List Item)
  /-- The orders joined with their items. -/
  | selectOrders (orders : List OrderId)
  /-- Creates the table if it does not exist. -/
  | create (table : Table)
  deriving DecidableEq

/-! ### Rows -/

/-- A row of a stock query. -/
structure StockCells where
  id : Cell
  quantity : Cell
  deriving DecidableEq

/-- A row of an order joined with one of its items; without items there is one row whose item is
null. -/
structure JoinedCells where
  id : Cell
  user : Cell
  createdAt : Cell
  updatedAt : Cell
  item : Cell
  product : Cell
  price : Cell
  quantity : Cell
  deriving DecidableEq

namespace Statement

/-- The form of the rows that answer a statement. -/
@[reducible] def Row : Statement → Type
  | selectIds _ _ => Cell
  | selectStock _ => StockCells
  | selectOrders _ => JoinedCells
  | _ => Unit

/-- The columns of the rows that answer a statement, with the types that they usually have. -/
def columns : Statement → List (String × ColumnType)
  | selectIds _ _ => [("id", .varchar)]
  | selectStock _ => [("id", .varchar), ("quantity", .intUnsigned)]
  | selectOrders _ =>
    [ ("id", .varchar), ("user_id", .varchar), ("created_at", .timestamp),
      ("updated_at", .timestamp), ("item_id", .varchar), ("product_id", .varchar),
      ("price", .decimal), ("quantity", .intUnsigned) ]
  | _ => []

/-- The row of the given cells, if there is one for each column. -/
def row? (s : Statement) (cells : List Cell) : Option s.Row :=
  match s, cells with
  | selectIds _ _, [id] => some id
  | selectStock _, [id, quantity] => some ⟨id, quantity⟩
  | selectOrders _, [id, user, createdAt, updatedAt, item, product, price, quantity] =>
    some ⟨id, user, createdAt, updatedAt, item, product, price, quantity⟩
  | _, _ => none

/-! ### Texts -/

/-- Puts commas between texts. -/
def commas : List (List Char) → List Char
  | [] => []
  | t :: ts => t ++ ts.flatMap ([',', ' '] ++ ·)

/-- So many places, with commas between them, in parentheses. -/
def places (n : Nat) : List Char := '(' :: commas (List.replicate n ['?']) ++ [')']

/-- So many rows of so many places. -/
def rows (count width : Nat) : List Char := commas (List.replicate count (places width))

/-- How a table is created. -/
def createChars (t : Table) : List Char :=
  s!"CREATE TABLE IF NOT EXISTS {t.name} ( ".toList ++ commas (t.clauses.map String.toList) ++
    " ) ENGINE=InnoDB DEFAULT CHARSET=utf8mb4".toList

/-- The characters of a statement. -/
def chars : Statement → List Char
  | start => "BEGIN".toList
  | commit => "COMMIT".toList
  | rollback => "ROLLBACK".toList
  | selectIds table ids =>
    s!"SELECT id FROM {table.name} WHERE id IN ".toList ++ places ids.length
  | selectStock products =>
    "SELECT id, quantity FROM products WHERE id IN ".toList ++ places products.length
  | decrementStock ds =>
    "UPDATE products SET quantity = CASE id".toList ++
      ds.flatMap (fun _ => " WHEN ? THEN quantity - ?".toList) ++
      " ELSE quantity END WHERE id IN ".toList ++ places ds.length
  | insertOrders orders =>
    "INSERT INTO orders (id, user_id, created_at, updated_at) VALUES ".toList ++
      rows orders.length 4
  | insertItems items =>
    "INSERT INTO order_items (id, order_id, product_id, price, quantity) VALUES ".toList ++
      rows items.length 5
  | selectOrders orders =>
    "SELECT o.id, o.user_id, o.created_at, o.updated_at, ".toList ++
      "i.id AS item_id, i.product_id, i.price, i.quantity FROM orders o ".toList ++
      "LEFT JOIN order_items i ON i.order_id = o.id WHERE o.id IN ".toList ++
      places orders.length ++ " ORDER BY o.id, i.seq".toList
  | create table => createChars table

/-- The text of a statement. -/
def text (s : Statement) : String := String.ofList s.chars

/-! ### Parameters -/

/-- An identifier as a parameter. -/
def ofId {kind : Kind} (id : Identifier kind) : Parameter := .text (toString id)

/-- The columns of a row for the header of an order. -/
def orderParameters (o : Order) : List Parameter :=
  [ofId o.id, ofId o.user, .time o.createdAt, .time o.updatedAt]

/-- The columns of a row for an item. -/
def itemParameters (i : Item) : List Parameter :=
  [ofId i.id, ofId i.order, ofId i.product, .decimal i.price.amount, .number i.quantity]

/-- What stands in the places of a statement. -/
def parameters : Statement → List Parameter
  | selectIds _ ids => ids.map .text
  | selectStock products => products.map ofId
  | decrementStock ds =>
    ds.flatMap (fun d => [ofId d.product, .number d.quantity]) ++ ds.map (ofId ·.product)
  | insertOrders orders => orders.flatMap orderParameters
  | insertItems items => items.flatMap itemParameters
  | selectOrders orders => orders.map ofId
  | _ => []

end Statement

/-! ### Statements of limited size -/

/-- How many rows or identifiers a statement has at most, where long lists are cut up. -/
def rowsPerStatement : Nat := 1000

/-- Cuts a list up; only the last part may be shorter than the others. -/
def chunks {α : Type} (l : List α) : List (List α) :=
  match l with
  | [] => []
  | a :: as => (a :: as).take rowsPerStatement :: chunks ((a :: as).drop rowsPerStatement)
  termination_by l.length
  decreasing_by simp only [List.length_drop, List.length_cons, rowsPerStatement]; omega

end Checkout.Sql
