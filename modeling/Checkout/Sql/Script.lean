import Checkout.Sql.Connection

/-!
# A database that follows a script

The database does not look at what it is told: it notes every statement and answers it with the next
reply of its script. When the script is at its end, everything succeeds and nothing is found.
-/

namespace Checkout.Sql

/-- What a statement is answered with. -/
inductive Reply where
  | refuse (error : ServerError)
  /-- Rows of cells; the columns named here have other types than usual. -/
  | rows (types : List (String × ColumnType)) (rows : List (List Content))
  deriving DecidableEq

/-- The replies still to come, and the statements so far. -/
structure Script where
  replies : List Reply
  sent : List Statement

namespace Script

/-- The cells of a row. -/
def cells (types : List (String × ColumnType)) (columns : List (String × ColumnType))
    (contents : List Content) : List Cell :=
  (columns.zip contents).map fun ((name, usual), content) =>
    ⟨((types.find? (·.1 = name)).map (·.2)).getD usual, content⟩

/-- What a reply says to a statement. -/
def answer (s : Statement) : Reply → Except ServerError (List s.Row)
  | .refuse e => .error e
  | .rows types rows => .ok (rows.filterMap fun r => s.row? (cells types s.columns r))

/-- The database that follows a script. -/
def database : Database Script := fun s script =>
  (answer s (script.replies.head?.getD (.rows [] [])),
    ⟨script.replies.tail, script.sent ++ [s]⟩)

end Script

end Checkout.Sql
