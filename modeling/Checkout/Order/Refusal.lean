import Checkout.Identifier
import Checkout.Money

/-!
# Refusals

Why an item, a request or an amount does not satisfy the rules of the shop. A refusal names its
cause; `message` puts it into words.
-/

namespace Checkout

/-- What is wrong with a request as a whole. -/
inductive RequestFault where
  | noItems
  | foreignItem (item : ItemId) (order : OrderId)
  | repeatedItem (item : ItemId)
  | otherUser
  /-- A fault that somebody else has put into words. -/
  | described (text : String)
  deriving DecidableEq

namespace RequestFault

/-- The fault in words. -/
def message : RequestFault → String
  | .noItems => "注文明細が空です"
  | .foreignItem item order => s!"明細 {item} は注文 {order} に属していません"
  | .repeatedItem item => s!"明細ID {item} が重複しています"
  | .otherUser => "user_id が認証済みユーザーと一致しません"
  | .described text => text

end RequestFault

/-- A rule of the shop is not kept. -/
inductive Refusal where
  | invalidQuantity
  | invalidRequest (fault : RequestFault)
  | invalidValue (fault : MoneyFault)
  deriving DecidableEq

namespace Refusal

/-- The refusal in words. -/
def message : Refusal → String
  | .invalidQuantity => "Invalid quantity"
  | .invalidRequest fault => s!"Order validation failed: {fault.message}"
  | .invalidValue fault => s!"Invalid value: {fault.message}"

end Refusal

end Checkout
