import Checkout.Sql.Connection

/-!
# Creating the tables

The tables are created in a sequence in which each refers to earlier ones only. A table that exists
is left as it is, so this can be done any number of times.
-/

namespace Checkout.Sql

/-- A step of the migration. -/
structure Migration where
  name : String
  table : Table
  deriving DecidableEq

namespace Migration

/-- All steps. -/
def all : List Migration :=
  [ ⟨"001_create_products_table", .products⟩,
    ⟨"002_create_orders_table", .orders⟩,
    ⟨"003_create_order_items_table", .orderItems⟩ ]

variable {π : Type}

/-- Takes a step. -/
def apply (db : Database π) (m : Migration) : ExceptT DatabaseError (StateM (Connection π)) Unit := do
  let fail (text : String) : ExceptT DatabaseError (StateM (Connection π)) Unit :=
    throw (.migration s!"{m.name} failed: {text}")
  if (← get).isClosed then fail closedText
  else
    match ← (Connection.send db (.create m.table) : StateM (Connection π) _) with
    | .ok _ => return
    | .error e => fail e.describe

/-- Takes the steps one after the other, until one fails. -/
def applyAll (db : Database π) :
    List Migration → ExceptT DatabaseError (StateM (Connection π)) Unit
  | [] => return
  | m :: ms => do
    apply db m
    applyAll db ms

/-- Takes all steps. -/
def run (db : Database π) : ExceptT DatabaseError (StateM (Connection π)) Unit := applyAll db all

end Migration

end Checkout.Sql
