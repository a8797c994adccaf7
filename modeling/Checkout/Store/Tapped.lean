import Checkout.Store.Basic

/-!
# A store under observation

`Store.tapped` passes every action on to another store and notes it first. Chosen actions fail
instead of being passed on, and the answers to two of the questions can be tampered with.
-/

namespace Checkout

/-- An action of a store, with what it is given. -/
inductive Call where
  | start
  | existingOrders (ids : List OrderId)
  | existingItems (ids : List ItemId)
  | fetchStock (ids : List ProductId)
  | decrementStock (decrements : List Decrement)
  | insertOrders (orders : List Order)
  | insertItems (items : List Item)
  | fetchOrders (ids : List OrderId)
  | commit
  | rollback
  deriving DecidableEq

namespace Call

/-- The name of the action. -/
def name : Call → String
  | .start => "begin"
  | .existingOrders _ => "existing_order_ids"
  | .existingItems _ => "existing_order_item_ids"
  | .fetchStock _ => "fetch_stock"
  | .decrementStock _ => "decrement_stock"
  | .insertOrders _ => "insert_orders"
  | .insertItems _ => "insert_order_items"
  | .fetchOrders _ => "fetch_orders"
  | .commit => "commit"
  | .rollback => "rollback"

end Call

/-- How a tapped store interferes. -/
structure Interference where
  /-- Actions by name that fail, and how; of several entries for one action the last counts. -/
  errors : List (String × StoreError)
  /-- What is said to be in stock, whatever the store answers. -/
  stockRows : Option (List StockRow)
  /-- Orders that are left out when orders are fetched. -/
  hiddenOrders : List OrderId

namespace Interference

/-- No interference. -/
def none : Interference := ⟨[], .none, []⟩

/-- How the action is made to fail, if it is. -/
def error? (i : Interference) (name : String) : Option StoreError :=
  (i.errors.reverse.find? (·.1 = name)).map (·.2)

end Interference

/-- What a tapped store remembers: all that the store behind it does, and the calls so far. -/
structure Tap (σ : Type) where
  inner : σ
  calls : List Call
  interference : Interference

namespace Store

variable {σ : Type}

/-- Notes the call; then fails if that is wanted, else passes the action on. -/
def tap {α : Type} (call : Call) (action : StoreAction σ α) : StoreAction (Tap σ) α := do
  modify fun t => { t with calls := t.calls ++ [call] }
  match (← get).interference.error? call.name with
  | some e => throw e
  | none =>
    let (answer, inner) := action.run (← get).inner
    modify fun t => { t with inner }
    answer

/-- The store under observation. -/
def tapped (store : Store σ) : Store (Tap σ) where
  start := tap .start store.start
  existingOrders ids := tap (.existingOrders ids) (store.existingOrders ids)
  existingItems ids := tap (.existingItems ids) (store.existingItems ids)
  fetchStock ids := do
    let rows ← tap (.fetchStock ids) (store.fetchStock ids)
    return (← get).interference.stockRows.getD rows
  decrementStock ds := tap (.decrementStock ds) (store.decrementStock ds)
  insertOrders orders := tap (.insertOrders orders) (store.insertOrders orders)
  insertItems items := tap (.insertItems items) (store.insertItems items)
  fetchOrders ids := do
    let orders ← tap (.fetchOrders ids) (store.fetchOrders ids)
    let hidden := (← get).interference.hiddenOrders
    return orders.filter (·.id ∉ hidden)
  commit := tap .commit store.commit
  rollback := tap .rollback store.rollback

end Store

end Checkout
