import Checkout.Decimal.Text
import Checkout.Time.Text

/-!
# Cells

A cell of a row is read as a value of the shop only if the type of its column promises such values.
Null is no value.
-/

namespace Checkout.Sql

/-- The type of a column. -/
inductive ColumnType where
  | varchar
  | char
  | varbinary
  | decimal
  | int
  | intUnsigned
  | bigint
  | bigintUnsigned
  | double
  | timestamp
  | datetime
  deriving DecidableEq

namespace ColumnType

/-- All types. -/
def all : List ColumnType :=
  [ .varchar, .char, .varbinary, .decimal, .int, .intUnsigned, .bigint, .bigintUnsigned, .double,
    .timestamp, .datetime ]

/-- The name of a type. -/
def name : ColumnType → String
  | varchar => "VARCHAR"
  | char => "CHAR"
  | varbinary => "VARBINARY"
  | decimal => "DECIMAL"
  | int => "INT"
  | intUnsigned => "INT UNSIGNED"
  | bigint => "BIGINT"
  | bigintUnsigned => "BIGINT UNSIGNED"
  | double => "DOUBLE"
  | timestamp => "TIMESTAMP"
  | datetime => "DATETIME"

/-- The type of a name. -/
def ofName? (s : String) : Option ColumnType := all.find? (·.name = s)

end ColumnType

/-- What a cell holds. Points in time are texts. -/
inductive Content where
  | null
  | text (text : String)
  | integer (n : Int)
  /-- Something else. -/
  | other
  deriving DecidableEq

/-- A cell of a row. -/
structure Cell where
  type : ColumnType
  content : Content
  deriving DecidableEq

namespace Cell

/-- The cell is null. -/
def isNull (c : Cell) : Bool := c.content = .null

/-- Reads a text; binary columns do not promise one. -/
def text? (c : Cell) : Option String :=
  match c.type, c.content with
  | .varchar, .text s | .char, .text s => some s
  | _, _ => none

/-- Reads a natural number of 32 bits from an unsigned column. -/
def nat32? (c : Cell) : Option UInt32 :=
  match c.type, c.content with
  | .intUnsigned, .integer (.ofNat n) | .bigintUnsigned, .integer (.ofNat n) =>
    if n < UInt32.size then some (UInt32.ofNat n) else none
  | _, _ => none

/-- Reads a decimal. -/
def decimal? (c : Cell) : Option Decimal :=
  match c.type, c.content with
  | .decimal, .text s => Decimal.ofString? s
  | _, _ => none

/-- Reads a point in time. -/
def timestamp? (c : Cell) : Option Timestamp :=
  match c.type, c.content with
  | .timestamp, .text s | .datetime, .text s => Timestamp.ofColumnText? s
  | _, _ => none

end Cell

end Checkout.Sql
