import Checkout.Order.Request

/-!
# Demand

A batch of requests asks for so many pieces of each product. `Ledger.merge` collects this demand
product by product, remembering which item contributed what and in which sequence. A demand is a
stack: a contribution is pushed when its item arrives, and the last one that came is the first to be
popped.
-/

namespace Checkout

/-- Where an item stands in a batch: the number of its request, and its number in that request. -/
structure Position where
  request : Nat
  item : Nat
  deriving DecidableEq

namespace Position

/-- Positions are ordered by the request, and within a request by the item. -/
instance : Ord Position := ⟨compareLex (compareOn request) (compareOn item)⟩

instance : Std.TransOrd Position :=
  inferInstanceAs (Std.TransCmp (compareLex (compareOn request) (compareOn item)))

instance : Std.LawfulEqOrd Position where
  eq_of_compare {a b} h := by
    obtain ⟨hr, hi⟩ := compareLex_eq_eq.1 h
    cases a; cases b
    exact (Position.mk.injEq ..).mpr ⟨Nat.compare_eq_eq.1 hr, Nat.compare_eq_eq.1 hi⟩

end Position

/-- What one item adds to the demand for its product. -/
structure Contribution where
  position : Position
  quantity : UInt32
  deriving DecidableEq

/-- The demand for a product. -/
structure Demand where
  product : ProductId
  quantity : Nat
  /-- The contributions, the last one first. -/
  newestFirst : List Contribution
  deriving DecidableEq

namespace Demand

/-- No demand yet. -/
def none (product : ProductId) : Demand := ⟨product, 0, []⟩

/-- The positions of the items that contribute, in the sequence of their arrival. -/
def contributors (d : Demand) : List Position := (d.newestFirst.map (·.position)).reverse

/-- One more item asks for the product. -/
def push (d : Demand) (c : Contribution) : Demand :=
  { d with quantity := d.quantity + c.quantity.toNat, newestFirst := c :: d.newestFirst }

/-- Takes back the last contribution. -/
def pop? (d : Demand) : Option (Contribution × Demand) :=
  match d.newestFirst with
  | [] => .none
  | c :: cs => some (c, { d with quantity := d.quantity - c.quantity.toNat, newestFirst := cs })

/-- Takes back all contributions. -/
def clear (d : Demand) : List Position × Demand :=
  (d.contributors, { d with quantity := 0, newestFirst := [] })

end Demand

/-- The demand of a batch, product by product in ascending order, and how many items each of its
requests has. -/
structure Ledger where
  demands : List Demand
  itemCounts : List Nat
  deriving DecidableEq

namespace Ledger

/-- Adds a contribution to the demand for a product, keeping the products in ascending order. -/
def record (product : ProductId) (c : Contribution) : List Demand → List Demand
  | [] => [(Demand.none product).push c]
  | d :: ds =>
    if product = d.product then d.push c :: ds
    else if product.before d.product then (Demand.none product).push c :: d :: ds
    else d :: record product c ds

/-- Adds the items of one request, numbered from `item` on. -/
def recordItems (request : Nat) (item : Nat) (demands : List Demand) : List Item → List Demand
  | [] => demands
  | i :: is =>
    recordItems request (item + 1) (record i.product ⟨⟨request, item⟩, i.quantity⟩ demands) is

/-- Adds the items of the requests, numbered from `request` on. -/
def recordRequests (request : Nat) (demands : List Demand) : List Request → List Demand
  | [] => demands
  | r :: rs => recordRequests (request + 1) (recordItems request 0 demands r.items) rs

/-- Collects the demand of a batch. -/
def merge (requests : List Request) : Ledger where
  demands := recordRequests 0 [] requests
  itemCounts := requests.map (·.items.length)

/-- The products that the batch asks for, in ascending order. -/
def products (l : Ledger) : List ProductId := l.demands.map (·.product)

/-- The demand for a product, if there is any. -/
def demand? (l : Ledger) (product : ProductId) : Option Demand :=
  l.demands.find? (·.product = product)

end Ledger

end Checkout
