import Checkout.Json.Draft
import Checkout.Time.Text
import Checkout.Uuid

/-!
# Reading records from drafts

A record is read from an object by the names of its members, in any sequence, or from an array of all
its fields in their own sequence. Unknown members are passed over, whatever they hold, as long as
they are not broken; a known member must not occur twice.

A text fails either because it is malformed, that is, no JSON, or because it is mismatched, that is,
JSON of the wrong shape. The first fault of the text decides.
-/

namespace Checkout.Json

/-- How reading a record from a text fails. -/
inductive ReadFault where
  | malformed
  | mismatched
  deriving DecidableEq

namespace Draft

/-- What is at fault where a value is not of the kind wanted. A number too large to have a value and
an ill-formed string are faults of the text. -/
def misfit : Draft → ReadFault
  | .fault | .string none => .malformed
  | .number n => if n.value?.isSome then .mismatched else .malformed
  | _ => .mismatched

/-- Reads a string. -/
def asString : Draft → Except ReadFault String
  | .string (some s) => .ok s
  | d => .error d.misfit

/-- Reads a string that stands for something. -/
def asText {α : Type} (read? : String → Option α) (d : Draft) : Except ReadFault α := do
  match read? (← d.asString) with
  | some a => return a
  | none => throw .mismatched

/-- Reads a UUID. -/
def asUuid : Draft → Except ReadFault Uuid := asText Uuid.ofString?

/-- Reads a timestamp. -/
def asTimestamp : Draft → Except ReadFault Timestamp := asText Timestamp.ofString?

/-- Reads a natural number below the bound, written as a whole number. -/
def asNat (bound : Nat) : Draft → Except ReadFault Nat
  | .number n =>
    match n.value? with
    | some v => (v.toNat? bound).elim (.error .mismatched) .ok
    | none => .error .malformed
  | d => .error d.misfit

/-- Reads a decimal from a string or a number. -/
def asDecimal : Draft → Except ReadFault Decimal
  | .number n =>
    match n.value? with
    | some v => v.toDecimal?.elim (.error .mismatched) .ok
    | none => .error .malformed
  | d => d.asText Decimal.ofString?

/-- Reads something that may be null. -/
def asOption {α : Type} (read : Draft → Except ReadFault α) : Draft → Except ReadFault (Option α)
  | .null => .ok none
  | d => (read d).map some

/-- Reads an array of things. -/
def asList {α : Type} (read : Draft → Except ReadFault α) : Draft → Except ReadFault (List α)
  | .array items closed => do
    let values ← items.mapM read
    if closed then return values else throw .malformed
  | d => .error d.misfit

end Draft

/-- A field of a record that is being read into a `ρ`: its name, whether it has been read already,
and how it is read. -/
structure RecordField (ρ : Type) where
  name : String
  isRead : ρ → Bool
  read : ρ → Draft → Except ReadFault ρ

namespace RecordField

/-- A field whose value is put into the record by `put` and can be looked up by `get`. -/
def of {ρ α : Type} (name : String) (read : Draft → Except ReadFault α) (get : ρ → Option α)
    (put : ρ → α → ρ) : RecordField ρ where
  name := name
  isRead r := (get r).isSome
  read r d := (read d).map (put r)

end RecordField

namespace Draft

variable {ρ α : Type}

/-- Reads one member into a record. -/
def readMember (fields : List (RecordField ρ)) (r : ρ) (member : Option String × Draft) :
    Except ReadFault ρ :=
  match member.1 with
  | none => .error .malformed
  | some key =>
    match fields.find? (·.name = key) with
    | none => if member.2.isIntact then .ok r else .error .malformed
    | some f => if f.isRead r then .error .mismatched else f.read r member.2

/-- Reads the items of an array into the fields of a record, one after the other. -/
def readItems (closed : Bool) : List (RecordField ρ) → List Draft → ρ → Except ReadFault ρ
  | [], [], r => if closed then .ok r else .error .malformed
  | [], _ :: _, _ => .error .malformed
  | _ :: _, [], _ => .error (if closed then .mismatched else .malformed)
  | f :: fs, d :: ds, r => do readItems closed fs ds (← f.read r d)

/-- Reads a record: the fields into `empty`, and what has been read into the result, unless a field
is missing. -/
def asRecord (fields : List (RecordField ρ)) (empty : ρ) (complete? : ρ → Option α) :
    Draft → Except ReadFault α
  | .object members closed => do
    let r ← members.foldlM (readMember fields) empty
    if closed then (complete? r).elim (throw .mismatched) pure else throw .malformed
  | .array items closed => do
    let r ← readItems closed fields items empty
    (complete? r).elim (throw .mismatched) pure
  | d => .error d.misfit

end Draft

end Checkout.Json
