import Checkout.Demand.Resolution
import Checkout.Error

/-!
# Stores

A store keeps stock and orders and is changed in transactions. `Store σ` lists what a batch asks of
one: `σ` is all that the store remembers, the open transaction included. Every action may fail, and
also a failed action may have changed what the store remembers.
-/

namespace Checkout

/-- Something done to a store that remembers a `σ`. -/
abbrev StoreAction (σ α : Type) := ExceptT StoreError (StateM σ) α

/-- Carries out an action and tells how it went; this never fails. -/
def StoreAction.attempt {σ α : Type} (action : StoreAction σ α) :
    StoreAction σ (Except StoreError α) :=
  ExceptT.lift action.run

/-- What can be done with a store. All actions between `start` and either `commit` or `rollback`
belong to one transaction. -/
structure Store (σ : Type) where
  /-- Opens a transaction. -/
  start : StoreAction σ Unit
  /-- Those of the orders that exist. -/
  existingOrders : List OrderId → StoreAction σ (List OrderId)
  /-- Those of the items that exist. -/
  existingItems : List ItemId → StoreAction σ (List ItemId)
  /-- The stock of the products; a product without stock row is left out. -/
  fetchStock : List ProductId → StoreAction σ (List StockRow)
  /-- Reduces the stock of the products. -/
  decrementStock : List Decrement → StoreAction σ Unit
  /-- Adds the headers of the orders, without their items. -/
  insertOrders : List Order → StoreAction σ Unit
  /-- Adds items of orders that exist. -/
  insertItems : List Item → StoreAction σ Unit
  /-- The orders with their items. -/
  fetchOrders : List OrderId → StoreAction σ (List Order)
  /-- Ends the transaction and keeps what it did. -/
  commit : StoreAction σ Unit
  /-- Ends the transaction and forgets what it did. -/
  rollback : StoreAction σ Unit

end Checkout
