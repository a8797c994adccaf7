import Checkout.Json.Record
import Checkout.Order.Request

/-!
# The body of a checkout request

What a caller sends: identifiers and times may be left to the shop, the price and quantity of each
item may not. `Body.toRequest` turns a body into a request of an authenticated user. The faults of a
body are looked for in a fixed sequence: another user's name first, then the items one after the
other, the price of each before its quantity, then the request as a whole.
-/

namespace Checkout

/-- An item as a caller sends it. -/
structure ItemBody where
  id : Option Uuid
  product : Uuid
  price : Decimal
  quantity : UInt32
  deriving DecidableEq

/-- A checkout request as a caller sends it. -/
structure Body where
  id : Option Uuid
  user : Option Uuid
  items : List ItemBody
  createdAt : Option Timestamp
  updatedAt : Option Timestamp
  deriving DecidableEq

open Json (ReadFault RecordField Draft)

namespace ItemBody

/-- The fields of an item read so far. -/
structure Parts where
  id : Option (Option Uuid) := none
  product : Option Uuid := none
  price : Option Decimal := none
  quantity : Option Nat := none

/-- The fields of an item. -/
def fields : List (RecordField Parts) :=
  [ .of "id" (Draft.asOption Draft.asUuid) (·.id) fun p v => { p with id := some v },
    .of "product_id" Draft.asUuid (·.product) fun p v => { p with product := some v },
    .of "price" Draft.asDecimal (·.price) fun p v => { p with price := some v },
    .of "quantity" (Draft.asNat UInt32.size) (·.quantity) fun p v => { p with quantity := some v } ]

/-- The item, if nothing that it needs is missing. -/
def ofParts? (p : Parts) : Option ItemBody := do
  return ⟨p.id.join, ← p.product, ← p.price, UInt32.ofNat (← p.quantity)⟩

/-- Reads an item. -/
def ofDraft : Draft → Except ReadFault ItemBody := Draft.asRecord fields {} ofParts?

/-- An item as JSON; what is left to the shop is null. -/
def toJson (i : ItemBody) : Json :=
  .object
    [ ("id", (i.id.map fun u => Json.string u.toString).getD .null),
      ("product_id", .string i.product.toString),
      ("price", .string i.price.toString),
      ("quantity", .nat i.quantity.toNat) ]

end ItemBody

namespace Body

/-- The fields of a body read so far. -/
structure Parts where
  id : Option (Option Uuid) := none
  user : Option (Option Uuid) := none
  items : Option (List ItemBody) := none
  createdAt : Option (Option Timestamp) := none
  updatedAt : Option (Option Timestamp) := none

/-- The fields of a body. -/
def fields : List (RecordField Parts) :=
  [ .of "id" (Draft.asOption Draft.asUuid) (·.id) fun p v => { p with id := some v },
    .of "user_id" (Draft.asOption Draft.asUuid) (·.user) fun p v => { p with user := some v },
    .of "order_items" (Draft.asList ItemBody.ofDraft) (·.items) fun p v =>
      { p with items := some v },
    .of "created_at" (Draft.asOption Draft.asTimestamp) (·.createdAt) fun p v =>
      { p with createdAt := some v },
    .of "updated_at" (Draft.asOption Draft.asTimestamp) (·.updatedAt) fun p v =>
      { p with updatedAt := some v } ]

/-- The body; everything in it may be missing. -/
def ofParts (p : Parts) : Body :=
  ⟨p.id.join, p.user.join, p.items.getD [], p.createdAt.join, p.updatedAt.join⟩

/-- Reads a body. -/
def ofDraft : Draft → Except ReadFault Body := Draft.asRecord fields {} (some ∘ ofParts)

/-- Reads a body from the beginning of a text; what follows it does not matter. -/
def ofText (text : List Json.Symbol) : Except ReadFault Body := ofDraft (Draft.read text).1

/-- Reads a text that is a body and nothing else. -/
def ofWholeText (text : List Json.Symbol) : Except ReadFault Body := do
  let (draft, isWhole) := Draft.read text
  let body ← ofDraft draft
  if isWhole then return body else throw .malformed

/-- A body as JSON; what is left to the shop is null. -/
def toJson (b : Body) : Json :=
  .object
    [ ("id", (b.id.map fun u => Json.string u.toString).getD .null),
      ("user_id", (b.user.map fun u => Json.string u.toString).getD .null),
      ("order_items", .array (b.items.map ItemBody.toJson)),
      ("created_at", (b.createdAt.map fun t => Json.string t.toString).getD .null),
      ("updated_at", (b.updatedAt.map fun t => Json.string t.toString).getD .null) ]

/-! ### From a body to a request -/

/-- What the shop adds to a body: identifiers not used before, and the time. -/
structure Supply where
  order : OrderId
  /-- The identifier for the item of a number, in case the body has none. -/
  item : Nat → ItemId
  now : Timestamp

/-- The item of a body: its price is checked before its quantity. -/
def toItem (order : OrderId) (id : ItemId) (i : ItemBody) : Except Refusal Item :=
  match Money.new i.price with
  | .error fault => .error (.invalidValue fault)
  | .ok price => Item.new ((i.id.map (⟨·⟩)).getD id) order ⟨i.product⟩ price i.quantity

/-- The items of a body, numbered from `index` on. -/
def toItems (order : OrderId) (fresh : Nat → ItemId) (index : Nat) :
    List ItemBody → Except Refusal (List Item)
  | [] => .ok []
  | i :: is => do
    let item ← toItem order (fresh index) i
    let items ← toItems order fresh (index + 1) is
    return item :: items

/-- The header of the order asked for. An order that was not updated was last changed when it was
created. -/
def header (b : Body) (user : UserId) (supply : Supply) : Header where
  id := (b.id.map (⟨·⟩)).getD supply.order
  user := user
  createdAt := b.createdAt.getD supply.now
  updatedAt := b.updatedAt.getD (b.createdAt.getD supply.now)

/-- The request of an authenticated user. -/
def toRequest (b : Body) (user : UserId) (trace : Uuid) (supply : Supply) :
    Except Refusal Request := do
  if b.user.any (· ≠ user.uuid) then throw (.invalidRequest .otherUser)
  let header := b.header user supply
  let items ← toItems header.id supply.item 0 b.items
  Request.new header items trace

end Body

end Checkout
