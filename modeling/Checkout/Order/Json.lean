import Checkout.Json.Value
import Checkout.Order.Request

/-!
# Items, orders and requests as JSON

Identifiers, prices and times are strings, quantities are numbers.
-/

namespace Checkout

/-- An item as JSON. -/
def Item.toJson (i : Item) : Json :=
  .object
    [ ("id", .string (toString i.id)),
      ("order_id", .string (toString i.order)),
      ("product_id", .string (toString i.product)),
      ("price", .string (toString i.price)),
      ("quantity", .nat i.quantity.toNat) ]

/-- An order as JSON. -/
def Order.toJson (o : Order) : Json :=
  .object
    [ ("id", .string (toString o.id)),
      ("user_id", .string (toString o.user)),
      ("items", .array (o.items.map Item.toJson)),
      ("created_at", .string (toString o.createdAt)),
      ("updated_at", .string (toString o.updatedAt)) ]

end Checkout
