import Checkout.Error

/-!
# How the database fails

What goes wrong with the database, by the stage at which it does. To the rest of the shop it is one
of the failures of a store.
-/

namespace Checkout.Sql

/-- A failure of the database. -/
inductive DatabaseError where
  | connection (text : String)
  | query (text : String)
  | decode (text : String)
  | migration (text : String)
  deriving DecidableEq

namespace DatabaseError

/-- The failure in words. -/
def message : DatabaseError → String
  | .connection text => s!"Database connection error: {text}"
  | .query text => s!"Database query error: {text}"
  | .decode text => s!"Database decode error: {text}"
  | .migration text => s!"Migration error: {text}"

/-- The failure as one of a store. -/
def toStoreError : DatabaseError → StoreError
  | .connection text => .connectionFailed text
  | .query text | .migration text => .operationFailed text
  | .decode text => .fetchFailed text

end DatabaseError

end Checkout.Sql
