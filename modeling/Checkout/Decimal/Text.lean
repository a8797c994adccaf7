import Checkout.Decimal.Basic
import Checkout.Text.Unsigned

/-!
# Decimals as text

A decimal is written with exactly as many fraction digits as its scale says, and with a minus sign
where it carries one. Two forms are read.

* The plain form: an optional sign, digits with at most one point, and `_` anywhere after the first
  digit. Fraction digits are taken as long as both mantissa and scale have room; the next digit
  rounds, a five going up, and the digits behind it are dropped. A zero carries no sign.
* The scientific form: a plain one, `e` or `E`, and a power of ten that shifts the point. Digits
  that a shift to the left pushes behind the last place are rounded off, a half going up. The sign
  stays, so that a negative number too small for any digit becomes a zero with a minus sign.
-/

namespace Checkout.Decimal

/-! ### Writing -/

/-- The digits of a decimal, with its point and sign. -/
def toChars (a : Decimal) : List Char :=
  let whole := Text.natural (a.mantissa / tenTo a.scale)
  let written :=
    if a.scale = 0 then whole
    else whole ++ '.' :: Text.fixed 10 a.scale (a.mantissa % tenTo a.scale)
  if a.negative then '-' :: written else written

/-- The written form. -/
def toString (a : Decimal) : String := String.ofList a.toChars

instance : ToString Decimal := ⟨toString⟩

/-! ### Reading the plain form -/

/-- Separates a leading sign: whether it is a minus, and what follows. -/
def splitSign : List Char → Bool × List Char
  | '-' :: cs => (true, cs)
  | '+' :: cs => (false, cs)
  | cs => (false, cs)

/-- What may stand behind the first digit: a digit, or `_`, which separates digits. -/
def isDigitOrSeparator (c : Char) : Bool := c = '_' || Text.isDecimalDigit c

/-- Extends a mantissa by the digits of a whole part, `_` left out, as long as it stays below
the bound. -/
def extend? (m : Nat) (hm : m < mantissaBound) : List Char → Option { n : Nat // n < mantissaBound }
  | [] => some ⟨m, hm⟩
  | c :: cs =>
    match Text.digitOf? 10 c with
    | none => extend? m hm cs
    | some d => if h : m * 10 + d < mantissaBound then extend? (m * 10 + d) h cs else none

/-- The same decimal, but a zero without sign. -/
def unsignZero (a : Decimal) : Decimal := if a.isZero then { a with negative := false } else a

/-- All fraction digits are taken, and the mantissa before the last of them was small enough to
take any byte behind it in 64 bits. A `_` that follows straight away then stands in the place of the
digit that rounds, and counts as zero; behind greater mantissas it is passed over. -/
def separatorRounds (m s : Nat) : Bool := s = maxScale && m / 10 < (UInt64.size - 1) / 10 - 255

/-- Takes up fraction digits after a mantissa `m` of scale `s` while there is room for the next
one. The first digit without room rounds; if that makes the mantissa too large, one digit more is
given up. -/
def absorb (negative : Bool) (m s : Nat) (hm : m < mantissaBound) (hs : s ≤ maxScale) :
    List Char → Option Decimal
  | [] => some ⟨negative, m, s, hm, hs⟩
  | c :: cs =>
    match Text.digitOf? 10 c with
    | none =>
      if separatorRounds m s then some ⟨negative, m, s, hm, hs⟩ else absorb negative m s hm hs cs
    | some d =>
      if h : s < maxScale ∧ m * 10 + d < mantissaBound then
        absorb negative (m * 10 + d) (s + 1) h.2 h.1 cs
      else if d < 5 then some ⟨negative, m, s, hm, hs⟩
      else if h : m + 1 < mantissaBound then some ⟨negative, m + 1, s, h, hs⟩
      else
        match s with
        | 0 => none
        | s + 1 => some ⟨negative, (m + 5) / 10, s, by omega, Nat.le_of_succ_le hs⟩

/-- Reads the plain form. -/
def ofPlain? (cs : List Char) : Option Decimal :=
  let (negative, body) := splitSign cs
  let whole := body.takeWhile (· ≠ '.')
  let fraction := (body.dropWhile (· ≠ '.')).drop 1
  if ((whole ++ fraction).head?.map Text.isDecimalDigit).getD false ∧ whole.all isDigitOrSeparator ∧
      fraction.all isDigitOrSeparator then do
    let ⟨m, hm⟩ ← extend? 0 mantissaBound_pos whole
    let a ← absorb negative m 0 hm (Nat.zero_le maxScale) fraction
    return a.unsignZero
  else none

/-! ### Reading the scientific form -/

/-- The point moved to the left by `e` places. Where that makes more than 28 fraction digits, the
last of them are rounded off. -/
def shiftLeft? (a : Decimal) (e : Nat) : Option Decimal :=
  if maxScale < e then none
  else if h : a.scale + e ≤ maxScale then some (a.withScale (a.scale + e) h)
  else some ((a.dropDigits (a.scale + e - maxScale)).withScale maxScale (Nat.le_refl maxScale))

/-- The point moved to the right by `e` places. Once no fraction digits are left, the mantissa
grows. -/
def shiftRight? (a : Decimal) (e : Nat) : Option Decimal :=
  if e ≤ a.scale then
    some (a.withScale (a.scale - e) (Nat.le_trans (Nat.sub_le _ _) a.scale_le))
  else if maxScale < e then none
  else if h : a.mantissa * tenTo (e - a.scale) < mantissaBound then
    some (whole a.negative (a.mantissa * tenTo (e - a.scale)) h)
  else none

/-- The shift that an exponent asks for: `-` to the left, else to the right. -/
def shift? (a : Decimal) : List Char → Option Decimal
  | '-' :: cs => (Text.unsigned UInt32.size cs).toOption.bind a.shiftLeft?
  | cs => (Text.unsigned UInt32.size cs).toOption.bind a.shiftRight?

/-- A character that begins an exponent. -/
def isExponentMark (c : Char) : Bool := c = 'e' || c = 'E'

/-- Reads the scientific form. -/
def ofScientific? (cs : List Char) : Option Decimal :=
  match cs.dropWhile (!isExponentMark ·) with
  | [] => none
  | _ :: exponent => (ofPlain? (cs.takeWhile (!isExponentMark ·))).bind (shift? · exponent)

/-- Reads either form. -/
def ofString? (s : String) : Option Decimal := ofPlain? s.toList <|> ofScientific? s.toList

end Checkout.Decimal
