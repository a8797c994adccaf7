import Checkout.Store.Basic
import Std.Data.ExtTreeMap.Lemmas

/-!
# A store in memory

The store holds its contents as a value. A transaction works on a copy, taken when it is opened, and
a commit puts that copy in the place of the contents; so of two overlapping transactions the one
that commits last wins. Operations can be told to fail.

A bulk operation goes through its list from first to last and stops at the first fault; what it did
before stays in the copy.
-/

namespace Checkout

/-- An operation that can be told to fail. -/
inductive Operation where
  | start
  | existingOrders
  | existingItems
  | fetchStock
  | decrementStock
  | insertOrders
  | insertItems
  | fetchOrders
  | commit
  deriving DecidableEq

namespace Operation

/-- All operations, in the sequence in which a batch uses them. -/
def all : List Operation :=
  [.start, .existingOrders, .existingItems, .fetchStock, .decrementStock, .insertOrders,
    .insertItems, .fetchOrders, .commit]

/-- The name under which an operation is told to fail. -/
def name : Operation → String
  | .start => "Begin"
  | .existingOrders => "FetchExistingOrderIds"
  | .existingItems => "FetchExistingItemIds"
  | .fetchStock => "FetchStock"
  | .decrementStock => "DecrementStock"
  | .insertOrders => "InsertOrders"
  | .insertItems => "InsertOrderItems"
  | .fetchOrders => "FetchOrders"
  | .commit => "Commit"

/-- The operation of a name. -/
def ofName? (s : String) : Option Operation := all.find? (·.name = s)

end Operation

/-- Why an operation of the store in memory fails. -/
inductive MemoryFault where
  | injected (operation : Operation)
  | negativeStock (product : ProductId)
  | repeatedOrder (order : OrderId)
  | missingOrder (order : OrderId)
  | repeatedItem (item : ItemId)
  deriving DecidableEq

namespace MemoryFault

/-- The fault in words. -/
def message : MemoryFault → String
  | .injected operation => s!"{operation.name} に失敗しました（注入された障害）"
  | .negativeStock product => s!"在庫がマイナスになります: {product}"
  | .repeatedOrder order => s!"注文IDが重複しています: {order}"
  | .missingOrder order => s!"注文が存在しません: {order}"
  | .repeatedItem item => s!"明細IDが重複しています: {item}"

end MemoryFault

/-! ### Contents -/

/-- What the store keeps: the stock of each product that has a stock row, the headers of the orders
by their identifiers, and all items. -/
structure Contents where
  stock : Std.ExtTreeMap ProductId UInt32
  headers : Std.ExtTreeMap OrderId Header
  /-- All items, the last one added first. -/
  newestFirst : List Item
  /-- The identifiers of all items. -/
  itemIds : IdentifierSet .item
  mem_itemIds : ∀ id, id ∈ itemIds ↔ id ∈ newestFirst.map Item.id
  deriving DecidableEq

namespace Contents

/-- Nothing. -/
def empty : Contents := ⟨∅, ∅, [], ∅, by simp⟩

/-- All items, in the sequence in which they were added. -/
def items (c : Contents) : List Item := c.newestFirst.reverse

/-- The stock of a product, if it has a row. -/
def stock? (c : Contents) (product : ProductId) : Option UInt32 := c.stock[product]?

/-- Sets the stock of a product. -/
def setStock (c : Contents) (product : ProductId) (quantity : UInt32) : Contents :=
  { c with stock := c.stock.insert product quantity }

/-- The header of an order, if it exists. -/
def header? (c : Contents) (order : OrderId) : Option Header := c.headers[order]?

/-- There is an item with the identifier. -/
def hasItem (c : Contents) (item : ItemId) : Bool := c.itemIds.contains item

theorem hasItem_iff {c : Contents} {item : ItemId} :
    c.hasItem item = true ↔ ∃ i ∈ c.items, i.id = item := by
  rw [hasItem, Std.ExtTreeSet.contains_iff_mem, c.mem_itemIds]
  simp [items]

/-- An order with its items, in the sequence in which they were added. -/
def order? (c : Contents) (order : OrderId) : Option Order :=
  (c.header? order).map fun h => { h with items := c.items.filter (·.order = order) }

/-- Reduces the stock of a product; one without stock row stays without. -/
def decrement (c : Contents) (d : Decrement) : Except MemoryFault Contents :=
  match c.stock? d.product with
  | none => .ok c
  | some quantity =>
    if d.quantity ≤ quantity then .ok (c.setStock d.product (quantity - d.quantity))
    else .error (.negativeStock d.product)

/-- Adds the header of an order. -/
def insertOrder (c : Contents) (o : Order) : Except MemoryFault Contents :=
  match c.header? o.id with
  | some _ => .error (.repeatedOrder o.id)
  | none => .ok { c with headers := c.headers.insert o.id o.toHeader }

/-- Adds an item. -/
def insertItem (c : Contents) (i : Item) : Except MemoryFault Contents :=
  match c.header? i.order with
  | none => .error (.missingOrder i.order)
  | some _ =>
    if c.hasItem i.id then .error (.repeatedItem i.id)
    else .ok
      { c with
        newestFirst := i :: c.newestFirst
        itemIds := c.itemIds.insert i.id
        mem_itemIds := fun id => by
          rw [Std.ExtTreeSet.mem_insert, c.mem_itemIds, Std.compare_eq_iff_eq, List.map_cons,
            List.mem_cons, eq_comm] }

end Contents

/-! ### The store and its transactions -/

/-- The store in memory: its committed contents, the operations that fail, and what is counted. -/
structure Memory where
  contents : Contents
  failing : List Operation
  /-- What every decrement was asked to do, also if it failed. -/
  decrementLog : List (List Decrement)
  begun : Nat
  committed : Nat
  deriving DecidableEq

namespace Memory

/-- A new store. -/
def empty : Memory := ⟨.empty, [], [], 0, 0⟩

instance : Inhabited Memory := ⟨empty⟩

/-- Sets the committed stock of a product. -/
def setStock (m : Memory) (product : ProductId) (quantity : UInt32) : Memory :=
  { m with contents := m.contents.setStock product quantity }

/-- Sets the committed stock of several products, one after the other. -/
def setStocks (m : Memory) (rows : List StockRow) : Memory :=
  rows.foldl (fun m r => m.setStock r.product r.quantity) m

/-- Lets an operation fail until failures are cleared. -/
def failOn (m : Memory) (operation : Operation) : Memory :=
  { m with failing := operation :: m.failing }

/-- Lets no operation fail any more. -/
def clearFailures (m : Memory) : Memory := { m with failing := [] }

/-- The store while a transaction is open: `working` is the transaction's copy of the contents.
Between transactions the copy means nothing. -/
structure Session where
  memory : Memory
  working : Contents
  deriving DecidableEq

namespace Session

/-- Fails with the fault's words. -/
def fail {α : Type} (fault : MemoryFault) : StoreAction Session α :=
  throw (.operationFailed fault.message)

/-- Fails if the operation has been told to. -/
def check (operation : Operation) : StoreAction Session Unit := do
  if operation ∈ (← get).memory.failing then fail (.injected operation)

/-- Applies a change to the working copy for each element; the first fault ends it. -/
def applyAll {α : Type} (change : Contents → α → Except MemoryFault Contents) :
    List α → StoreAction Session Unit
  | [] => pure ()
  | a :: as => do
    match change (← get).working a with
    | .error fault => fail fault
    | .ok c =>
      modify fun s => { s with working := c }
      applyAll change as

end Session

open Session

/-- The store in memory, as a store. -/
def store : Store Session where
  start := do
    check .start
    modify fun s =>
      ⟨{ s.memory with begun := s.memory.begun + 1 }, s.memory.contents⟩
  existingOrders ids := do
    check .existingOrders
    let c := (← get).working
    return ids.filter fun id => (c.header? id).isSome
  existingItems ids := do
    check .existingItems
    let c := (← get).working
    return ids.filter c.hasItem
  fetchStock ids := do
    check .fetchStock
    let c := (← get).working
    return ids.filterMap fun id => (c.stock? id).map (⟨id, ·⟩)
  decrementStock decrements := do
    check .decrementStock
    modify fun s =>
      { s with memory.decrementLog := s.memory.decrementLog ++ [decrements] }
    applyAll Contents.decrement decrements
  insertOrders orders := do
    check .insertOrders
    applyAll Contents.insertOrder orders
  insertItems items := do
    check .insertItems
    applyAll Contents.insertItem items
  fetchOrders ids := do
    check .fetchOrders
    let c := (← get).working
    return ids.filterMap c.order?
  commit := do
    check .commit
    modify fun s =>
      { s with memory.contents := s.working, memory.committed := s.memory.committed + 1 }
  rollback := pure ()

end Memory

end Checkout
