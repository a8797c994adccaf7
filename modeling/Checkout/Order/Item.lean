import Checkout.Order.Refusal

/-!
# Order items

An item of an order: so many pieces of a product at a price for each. There is at least one piece.
-/

namespace Checkout

/-- An item of an order. -/
structure Item where
  id : ItemId
  order : OrderId
  product : ProductId
  price : Money
  quantity : UInt32
  quantity_pos : 0 < quantity
  deriving DecidableEq

namespace Item

/-- The item, unless its quantity is zero. -/
def new (id : ItemId) (order : OrderId) (product : ProductId) (price : Money) (quantity : UInt32) :
    Except Refusal Item :=
  if h : 0 < quantity then .ok ⟨id, order, product, price, quantity, h⟩
  else .error .invalidQuantity

/-- The price of all pieces. -/
def subtotal (i : Item) : Except MoneyFault Money := i.price.multiply i.quantity

/-- The subtotals added up in sequence. -/
def total (items : List Item) : Except MoneyFault Money :=
  items.foldlM (fun sum i => i.subtotal.bind sum.add) Money.zero

/-- The items agree; prices are compared by value. -/
def same (a b : Item) : Bool :=
  a.id = b.id && a.order = b.order && a.product = b.product && a.price.sameValue b.price &&
    a.quantity = b.quantity

end Item

end Checkout
