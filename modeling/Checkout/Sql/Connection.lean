import Checkout.Sql.Error
import Checkout.Sql.Statement
import Checkout.Store.Basic

/-!
# A connection to a database

The database at the other end of a connection may be anything that answers statements: it either
answers with rows or refuses. A transaction that is given up without having been ended is rolled
back, whatever comes of that.
-/

namespace Checkout.Sql

/-- Why a statement was refused. -/
structure ServerError where
  code : Nat
  state : String
  message : String
  deriving DecidableEq

namespace ServerError

/-- The refusal in words. -/
def describe (e : ServerError) : String :=
  s!"error returned from database: {e.code} ({e.state}): {e.message}"

end ServerError

/-- A database that remembers a `π`. -/
def Database (π : Type) := (s : Statement) → StateM π (Except ServerError (List s.Row))

/-- A connection to a database that remembers a `π`. -/
structure Connection (π : Type) where
  remembered : π
  /-- A transaction is open. -/
  isOpen : Bool
  /-- No connection can be had any more. -/
  isClosed : Bool

/-- Why nothing can be asked of a closed connection. -/
def closedText : String := "attempted to acquire a connection on a closed pool"

namespace Connection

variable {π : Type}

/-- A connection without transaction. -/
def new (remembered : π) : Connection π := ⟨remembered, false, false⟩

/-- Sends a statement. -/
def send (db : Database π) (s : Statement) :
    StateM (Connection π) (Except ServerError (List s.Row)) := fun c =>
  let (answer, remembered) := (db s).run c.remembered
  (answer, { c with remembered })

/-- Sends a statement; a refusal is a failure in the given context. -/
def query (db : Database π) (context : String) (s : Statement) :
    StoreAction (Connection π) (List s.Row) := do
  match ← (send db s : StateM (Connection π) _) with
  | .ok rows => return rows
  | .error e => throw (DatabaseError.query s!"{context}: {e.describe}").toStoreError

/-- There is no open transaction any more. -/
def leave : StateM (Connection π) Unit := modify fun c => { c with isOpen := false }

/-- Gives up the open transaction, if there is one. -/
def release (db : Database π) : StateM (Connection π) Unit := do
  if (← get).isOpen then
    let _ ← send db .rollback
    leave

/-- Gives up the open transaction, and closes the connection for good. -/
def close (db : Database π) : StateM (Connection π) Unit := do
  release db
  modify fun c => { c with isClosed := true }

/-- Opens a transaction. -/
def start (db : Database π) : StoreAction (Connection π) Unit := do
  let fail (text : String) : StoreAction (Connection π) Unit :=
    throw (DatabaseError.connection s!"トランザクション開始に失敗しました: {text}").toStoreError
  if (← get).isClosed then fail closedText
  else
    match ← (send db .start : StateM (Connection π) _) with
    | .ok _ => modify fun c => { c with isOpen := true }
    | .error e => fail e.describe

/-- Ends the transaction by a statement. If that is refused, the transaction is given up. -/
def finish (db : Database π) (context : String) (s : Statement) :
    StoreAction (Connection π) Unit := do
  match ← (send db s : StateM (Connection π) _) with
  | .ok _ => (leave : StateM (Connection π) Unit)
  | .error e =>
    (release db : StateM (Connection π) Unit)
    throw (DatabaseError.query s!"{context}: {e.describe}").toStoreError

end Connection

end Checkout.Sql
