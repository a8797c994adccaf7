import Checkout.Binary64
import Checkout.Decimal.Text

/-!
# JSON numbers

A number is kept as it is written: sign, digits of the whole part, fraction digits, exponent. Its
value is a whole number of 64 bits if it is written as one and fits, otherwise a binary64. The
binary64 is computed from the leading digits that fit into 64 bits.

`NumberValue.toNumber` is how a value is written: whole numbers plainly, a binary64 by its shortest
decimal, with an exponent where the point would be far from the digits.
-/

namespace Checkout.Json

/-- A number as it is written. `-12.50e3` has the whole digits `[1, 2]`, the fraction `[5, 0]` and
the exponent `3`. -/
structure Number where
  negative : Bool
  whole : List Nat
  fraction : List Nat
  exponent : Option Int
  deriving DecidableEq

/-- What a number is worth. -/
inductive NumberValue where
  | unsigned (n : Nat)
  /-- Minus a whole number from one on. -/
  | negated (n : Nat)
  | real (negative : Bool) (magnitude : Binary64)
  deriving DecidableEq

/-- The values of the digits of a number. -/
def digitsOf (n : Nat) : List Nat := (Text.natural n).map fun c => c.toNat - '0'.toNat

namespace Number

/-- A natural number. -/
def ofNat (n : Nat) : Number := ⟨false, digitsOf n, [], none⟩

/-- A number written without point and exponent. -/
def isWhole (n : Number) : Bool := n.fraction.isEmpty && n.exponent.isNone

/-- Extends a significand by whole digits while it fits into 64 bits. Gives the significand and how
many digits it leaves out. -/
def significandOfWhole (n : Nat) : List Nat → Nat × Nat
  | [] => (n, 0)
  | d :: ds =>
    if n * 10 + d < UInt64.size then significandOfWhole (n * 10 + d) ds else (n, ds.length + 1)

/-- Extends a significand by fraction digits while it fits into 64 bits. Gives the significand and
how many digits it has taken up, `used` of them before. -/
def significandOfFraction (n used : Nat) : List Nat → Nat × Nat
  | [] => (n, used)
  | d :: ds =>
    if n * 10 + d < UInt64.size then significandOfFraction (n * 10 + d) (used + 1) ds else (n, used)

/-- The magnitude as a binary64; nothing where it is too large. -/
def magnitude? (n : Number) : Option Binary64 :=
  let (s, left) := significandOfWhole 0 n.whole
  let (s, used) := significandOfFraction s 0 n.fraction
  Binary64.ofParts? s (n.exponent.getD 0 + left - used)

/-- The value as a whole number of 64 bits, if it is written as one. Minus zero is none. -/
def wholeValue? (n : Number) : Option NumberValue :=
  if !n.isWhole then none
  else if n.negative then
    ((Text.extendBelow? 10 (UInt64.size / 2 + 1) 0 n.whole).filter (0 < ·)).map .negated
  else (Text.extendBelow? 10 UInt64.size 0 n.whole).map .unsigned

/-- The value; nothing where it is too large. -/
def value? (n : Number) : Option NumberValue :=
  n.wholeValue? <|> n.magnitude?.map (.real n.negative)

/-- The characters of a number, with a lower-case `e`. -/
def toChars (n : Number) : List Char :=
  (if n.negative then ['-'] else []) ++ n.whole.map Nat.digitChar ++
    (if n.fraction.isEmpty then [] else '.' :: n.fraction.map Nat.digitChar) ++
    match n.exponent with
    | none => []
    | some (.ofNat e) => 'e' :: Text.natural e
    | some (.negSucc e) => 'e' :: '-' :: Text.natural (e + 1)

/-- The number `0.d₁d₂… * 10 ^ point` of the given digits, with the point among or near the digits
if there is room for it, else behind the first digit and with an exponent. -/
def ofDigits (negative : Bool) (digits : List Nat) (point : Int) : Number :=
  if 16 < point ∨ point ≤ -5 then
    ⟨negative, digits.take 1, digits.drop 1, some (point - 1)⟩
  else if point ≤ 0 then
    ⟨negative, [0], List.replicate (-point).toNat 0 ++ digits, none⟩
  else if digits.length ≤ point.toNat then
    ⟨negative, digits ++ List.replicate (point.toNat - digits.length) 0, [0], none⟩
  else ⟨negative, digits.take point.toNat, digits.drop point.toNat, none⟩

end Number

namespace NumberValue

/-- The value as a decimal, if it is in range. A binary64 is taken at its shortest decimal. -/
def toDecimal? : NumberValue → Option Decimal
  | .unsigned n => Decimal.ofNat? n
  | .negated n => (Decimal.ofNat? n).map fun d => { d with negative := true }
  | .real negative f => Decimal.ofPlain? ((if negative then ['-'] else []) ++ f.toChars)

/-- The value as a natural number below the bound. -/
def toNat? (bound : Nat) : NumberValue → Option Nat
  | .unsigned n => if n < bound then some n else none
  | _ => none

/-- The value as it is written. -/
def toNumber : NumberValue → Number
  | .unsigned n => .ofNat n
  | .negated n => { Number.ofNat n with negative := true }
  | .real negative f =>
    let (digits, e) := f.shortest
    .ofDigits negative (digitsOf digits) ((digitsOf digits).length + e)

end NumberValue

end Checkout.Json
