import Checkout.Demand.Basic

/-!
# Resolving demand against stock

Where more is asked for than there is, items are given up until the rest fits. For each product the
item that came last goes first, whatever request it belongs to; without stock all of them go. What
is left of the demand is what the stock is reduced by.
-/

namespace Checkout

/-- So many pieces of a product are in stock. -/
structure StockRow where
  product : ProductId
  quantity : UInt32
  deriving DecidableEq

/-- The stock of a product is to be reduced by so many pieces. -/
structure Decrement where
  product : ProductId
  quantity : UInt32
  deriving DecidableEq

namespace Demand

/-- Pops contributions until the demand fits; gives the positions popped, first to last. -/
def shrinkFrom (product : ProductId) (available quantity : Nat) :
    List Contribution → List Position × Demand
  | [] => ([], ⟨product, quantity, []⟩)
  | c :: cs =>
    if available < quantity then
      let (gone, d) := shrinkFrom product available (quantity - c.quantity.toNat) cs
      (c.position :: gone, d)
    else ([], ⟨product, quantity, c :: cs⟩)

/-- Fits the demand into the available stock; gives the positions that are given up as well. -/
def shrink (available : Nat) (d : Demand) : List Position × Demand :=
  if available = 0 then d.clear else shrinkFrom d.product available d.quantity d.newestFirst

end Demand

/-- A batch whose demand fits into the stock. -/
structure Resolution where
  demands : List Demand
  itemCounts : List Nat
  /-- The items given up. -/
  evicted : Std.ExtTreeSet Position
  deriving DecidableEq

/-- How many pieces are available: what the last row for the product says, none without a row. -/
def available (stock : List StockRow) (product : ProductId) : UInt32 :=
  ((stock.reverse.find? (·.product = product)).map (·.quantity)).getD 0

namespace Ledger

/-- Gives up items until every demand fits into the stock. -/
def resolve (l : Ledger) (stock : List StockRow) : Resolution :=
  let shrunk := l.demands.map fun d => d.shrink (available stock d.product).toNat
  { demands := shrunk.map (·.2)
    itemCounts := l.itemCounts
    evicted := .ofList (shrunk.flatMap (·.1)) }

end Ledger

namespace Resolution

/-- What is left of the demand for a product. -/
def finalQuantity (r : Resolution) (product : ProductId) : Nat :=
  ((r.demands.find? (·.product = product)).map (·.quantity)).getD 0

/-- How the stock changes: one entry for every product of the batch, also where nothing is left. -/
def decrements (r : Resolution) : List Decrement :=
  r.demands.map fun d => ⟨d.product, UInt32.ofNat (min d.quantity (UInt32.size - 1))⟩

/-- The position belongs to the batch. -/
def inRange (r : Resolution) (p : Position) : Bool :=
  (r.itemCounts[p.request]?).any (p.item < ·)

/-- The item is given up. A position outside the batch counts as given up. -/
def isEvicted (r : Resolution) (p : Position) : Bool := !r.inRange p || r.evicted.contains p

/-- How many items are given up. -/
def evictedItems (r : Resolution) : Nat := r.evicted.size

/-- The places of the items that a request gives up; `index` is its number. -/
def evictedPlaces (r : Resolution) (index : Nat) (request : Request) : List Nat :=
  (List.range request.items.length).filter fun item => r.isEvicted ⟨index, item⟩

/-- The items that are left of a request, in their own sequence; `index` is its number. -/
def survivingItems (r : Resolution) (index : Nat) (request : Request) : List Item :=
  (request.items.zipIdx.filter fun (_, item) => !r.isEvicted ⟨index, item⟩).map (·.1)

end Resolution

end Checkout
