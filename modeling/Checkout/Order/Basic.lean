import Checkout.Order.Item
import Checkout.Time.Text

/-!
# Orders

An order is a header and the items sold with it. Orders are taken as they are; what they must
satisfy is checked on the request they are made from.
-/

namespace Checkout

/-- An order without its items. -/
structure Header where
  id : OrderId
  user : UserId
  createdAt : Timestamp
  updatedAt : Timestamp
  deriving DecidableEq

/-- An order. -/
structure Order extends Header where
  items : List Item
  deriving DecidableEq

namespace Order

/-- The price of the whole order. -/
def total (o : Order) : Except MoneyFault Money := Item.total o.items

/-- The orders agree item by item; prices are compared by value. -/
def same (a b : Order) : Bool :=
  a.toHeader = b.toHeader && a.items.length = b.items.length &&
    (a.items.zip b.items).all fun (i, j) => i.same j

end Order

end Checkout
