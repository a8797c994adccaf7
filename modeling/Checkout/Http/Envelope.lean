import Checkout.Error
import Checkout.Json.Record
import Checkout.Order.Request

/-!
# What a caller is answered

Answers travel in an envelope that repeats the status of the answer. A success carries the order with
its total, a failure a message and a code. Identifiers are plain strings here, so that an answer can
be read by somebody who does not know how they are made.
-/

namespace Checkout

open Json (ReadFault RecordField Draft)

/-! ### Status codes -/

/-- The status of an answer: a number of three digits, the first not zero. -/
structure Status where
  code : Nat
  code_range : 100 ≤ code ∧ code < 1000
  deriving DecidableEq

namespace Status

/-- The status of a number, if it has three digits. -/
def of? (n : Nat) : Option Status := if h : 100 ≤ n ∧ n < 1000 then some ⟨n, h⟩ else none

/-- All is well. -/
def ok : Status := ⟨200, by decide⟩

/-- Something new exists. -/
def created : Status := ⟨201, by decide⟩

/-- The request was wrong. -/
def badRequest : Status := ⟨400, by decide⟩

/-- Nobody knows who asks. -/
def unauthorized : Status := ⟨401, by decide⟩

/-- There is nothing here. -/
def notFound : Status := ⟨404, by decide⟩

/-- That cannot be done here. -/
def methodNotAllowed : Status := ⟨405, by decide⟩

/-- Something went wrong on this side. -/
def internalError : Status := ⟨500, by decide⟩

end Status

/-! ### Failures -/

/-- The envelope of a failure. -/
structure Failure where
  status : String
  statusCode : Nat
  message : String
  code : String
  deriving DecidableEq

namespace Failure

/-- A failure with the given status. -/
def new (status : Status) (message code : String) : Failure :=
  ⟨"error", status.code, message, code⟩

/-- A failure as JSON. -/
def toJson (f : Failure) : Json :=
  .object
    [ ("status", .string f.status),
      ("statusCode", .nat f.statusCode),
      ("message", .string f.message),
      ("code", .string f.code) ]

/-- The fields of a failure read so far. -/
structure Parts where
  status : Option String := none
  statusCode : Option Nat := none
  message : Option String := none
  code : Option String := none

/-- The fields of a failure. -/
def fields : List (RecordField Parts) :=
  [ .of "status" Draft.asString (·.status) fun p v => { p with status := some v },
    .of "statusCode" (Draft.asNat UInt16.size) (·.statusCode) fun p v =>
      { p with statusCode := some v },
    .of "message" Draft.asString (·.message) fun p v => { p with message := some v },
    .of "code" Draft.asString (·.code) fun p v => { p with code := some v } ]

/-- Reads a failure. -/
def ofDraft : Draft → Except ReadFault Failure :=
  Draft.asRecord fields {} fun p => do
    return ⟨← p.status, ← p.statusCode, ← p.message, ← p.code⟩

end Failure

/-! ### Successes -/

/-- The envelope of a success. -/
structure Success (α : Type) where
  status : String
  statusCode : Nat
  data : α
  deriving DecidableEq

namespace Success

variable {α : Type}

/-- A success with the given status. -/
def new (status : Status) (data : α) : Success α := ⟨"success", status.code, data⟩

/-- A success as JSON. -/
def toJson (dataToJson : α → Json) (s : Success α) : Json :=
  .object
    [ ("status", .string s.status),
      ("statusCode", .nat s.statusCode),
      ("data", dataToJson s.data) ]

/-- The fields of a success read so far. -/
structure Parts (α : Type) where
  status : Option String := none
  statusCode : Option Nat := none
  data : Option α := none

/-- The fields of a success. -/
def fields (readData : Draft → Except ReadFault α) : List (RecordField (Parts α)) :=
  [ .of "status" Draft.asString (·.status) fun p v => { p with status := some v },
    .of "statusCode" (Draft.asNat UInt16.size) (·.statusCode) fun p v =>
      { p with statusCode := some v },
    .of "data" readData (·.data) fun p v => { p with data := some v } ]

/-- Reads a success. -/
def ofDraft (readData : Draft → Except ReadFault α) : Draft → Except ReadFault (Success α) :=
  Draft.asRecord (fields readData) {} fun p => do
    return ⟨← p.status, ← p.statusCode, ← p.data⟩

end Success

/-! ### Orders as they are shown -/

/-- An item as it is shown. -/
structure ItemView where
  id : String
  order : String
  product : String
  price : Decimal
  quantity : Nat
  deriving DecidableEq

namespace ItemView

/-- Shows an item. -/
def ofItem (i : Item) : ItemView :=
  ⟨toString i.id, toString i.order, toString i.product, i.price.amount, i.quantity.toNat⟩

/-- An item as JSON. -/
def toJson (i : ItemView) : Json :=
  .object
    [ ("id", .string i.id),
      ("order_id", .string i.order),
      ("product_id", .string i.product),
      ("price", .string i.price.toString),
      ("quantity", .nat i.quantity) ]

/-- The fields of an item read so far. -/
structure Parts where
  id : Option String := none
  order : Option String := none
  product : Option String := none
  price : Option Decimal := none
  quantity : Option Nat := none

/-- The fields of an item. -/
def fields : List (RecordField Parts) :=
  [ .of "id" Draft.asString (·.id) fun p v => { p with id := some v },
    .of "order_id" Draft.asString (·.order) fun p v => { p with order := some v },
    .of "product_id" Draft.asString (·.product) fun p v => { p with product := some v },
    .of "price" Draft.asDecimal (·.price) fun p v => { p with price := some v },
    .of "quantity" (Draft.asNat UInt32.size) (·.quantity) fun p v => { p with quantity := some v } ]

/-- Reads an item. -/
def ofDraft : Draft → Except ReadFault ItemView :=
  Draft.asRecord fields {} fun p => do
    return ⟨← p.id, ← p.order, ← p.product, ← p.price, ← p.quantity⟩

end ItemView

/-- An order as it is shown, with its total. -/
structure OrderView where
  id : String
  user : String
  items : List ItemView
  total : Decimal
  createdAt : Timestamp
  updatedAt : Timestamp
  deriving DecidableEq

namespace OrderView

/-- Shows an order, if its total can be computed. -/
def ofOrder (o : Order) : Except MoneyFault OrderView := do
  let total ← o.total
  return ⟨toString o.id, toString o.user, o.items.map ItemView.ofItem, total.amount, o.createdAt,
    o.updatedAt⟩

/-- An order as JSON. -/
def toJson (o : OrderView) : Json :=
  .object
    [ ("id", .string o.id),
      ("user_id", .string o.user),
      ("order_items", .array (o.items.map ItemView.toJson)),
      ("total", .string o.total.toString),
      ("created_at", .string o.createdAt.toString),
      ("updated_at", .string o.updatedAt.toString) ]

/-- The fields of an order read so far. -/
structure Parts where
  id : Option String := none
  user : Option String := none
  items : Option (List ItemView) := none
  total : Option Decimal := none
  createdAt : Option Timestamp := none
  updatedAt : Option Timestamp := none

/-- The fields of an order. -/
def fields : List (RecordField Parts) :=
  [ .of "id" Draft.asString (·.id) fun p v => { p with id := some v },
    .of "user_id" Draft.asString (·.user) fun p v => { p with user := some v },
    .of "order_items" (Draft.asList ItemView.ofDraft) (·.items) fun p v =>
      { p with items := some v },
    .of "total" Draft.asDecimal (·.total) fun p v => { p with total := some v },
    .of "created_at" Draft.asTimestamp (·.createdAt) fun p v => { p with createdAt := some v },
    .of "updated_at" Draft.asTimestamp (·.updatedAt) fun p v => { p with updatedAt := some v } ]

/-- Reads an order. -/
def ofDraft : Draft → Except ReadFault OrderView :=
  Draft.asRecord fields {} fun p => do
    return ⟨← p.id, ← p.user, ← p.items, ← p.total, ← p.createdAt, ← p.updatedAt⟩

end OrderView

/-- What a successful checkout shows: the order. -/
structure Receipt where
  order : OrderView
  deriving DecidableEq

namespace Receipt

/-- A receipt as JSON. -/
def toJson (r : Receipt) : Json := .object [("order", r.order.toJson)]

/-- The fields of a receipt read so far. -/
structure Parts where
  order : Option OrderView := none

/-- The fields of a receipt. -/
def fields : List (RecordField Parts) :=
  [.of "order" OrderView.ofDraft (·.order) fun p v => { p with order := some v }]

/-- Reads a receipt. -/
def ofDraft : Draft → Except ReadFault Receipt :=
  Draft.asRecord fields {} fun p => do return ⟨← p.order⟩

end Receipt

end Checkout
