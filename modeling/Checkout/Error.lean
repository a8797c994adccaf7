import Checkout.Order.Refusal

/-!
# How a checkout fails

`StoreError` is what a store reports, `CheckoutError` what the caller of a checkout is told. Some
failures lie with the caller, who can do better; the others do not.
-/

namespace Checkout

/-- A store could not do what it was asked for. -/
inductive StoreError where
  | connectionFailed (text : String)
  | operationFailed (text : String)
  | fetchFailed (text : String)
  deriving DecidableEq

namespace StoreError

/-- The failure in words. -/
def message : StoreError → String
  | .connectionFailed text => s!"Connection failed: {text}"
  | .operationFailed text => s!"Operation failed: {text}"
  | .fetchFailed text => s!"Fetch failed: {text}"

end StoreError

/-- A checkout did not lead to an order. -/
inductive CheckoutError where
  /-- The request breaks a rule; it was never queued. -/
  | validation (refusal : Refusal)
  /-- There was no room in the queue before the deadline. -/
  | admissionTimeout
  /-- The request was queued, but no result came before the deadline. It may still be processed. -/
  | processingTimeout
  /-- None of the items is in stock. -/
  | outOfStock
  /-- The order exists already, or an earlier request of the batch asks for it. -/
  | duplicateOrder (order : String)
  /-- An item exists already, or belongs to an earlier request of the batch. -/
  | duplicateItem (item : String)
  /-- No requests are taken any more. -/
  | shuttingDown
  /-- The result was given up before it was written. -/
  | resultLost
  /-- The store failed, and the whole batch with it. -/
  | store (error : StoreError)
  deriving DecidableEq

namespace CheckoutError

/-- The failure in words. -/
def message : CheckoutError → String
  | .validation refusal => s!"Validation failed: {refusal.message}"
  | .admissionTimeout => "Checkout admission timed out"
  | .processingTimeout => "Checkout processing timed out"
  | .outOfStock => "Products are out of stock"
  | .duplicateOrder order => s!"Duplicate order: {order}"
  | .duplicateItem item => s!"Duplicate order item: {item}"
  | .shuttingDown => "Checkout service is shutting down"
  | .resultLost => "Result channel closed before delivery"
  | .store error => s!"Store error: {error.message}"

/-- A short code for programs to tell the failures apart. -/
def code : CheckoutError → String
  | .validation _ => "VALIDATION_ERROR"
  | .admissionTimeout => "ADMISSION_TIMEOUT"
  | .processingTimeout => "PROCESSING_TIMEOUT"
  | .outOfStock => "OUT_OF_STOCK"
  | .duplicateOrder _ => "DUPLICATE_ORDER"
  | .duplicateItem _ => "DUPLICATE_ORDER_ITEM"
  | .shuttingDown => "SHUTTING_DOWN"
  | .resultLost => "RESULT_CHANNEL_CLOSED"
  | .store _ => "REPOSITORY_ERROR"

/-- The failure lies with the caller. -/
def isClientError : CheckoutError → Bool
  | .validation _ | .outOfStock | .duplicateOrder _ | .duplicateItem _ => true
  | .admissionTimeout | .processingTimeout | .shuttingDown | .resultLost | .store _ => false

end CheckoutError

end Checkout
