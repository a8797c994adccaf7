import Checkout.Power

/-!
# Digits

Writing a number with digits and reading it back. `fixed` writes exactly as many digits as asked
for, `natural` as many as needed; `ofDigits?` reads what either wrote, and `ofDigitsBelow?` reads
numbers below a bound without ever forming a greater one. Letters stand for the digits from ten on:
written in lower case, read in either case.
-/

namespace Checkout.Text

/-- The value of a digit, letters counting from ten. -/
def digitValue? (c : Char) : Option Nat :=
  if '0' ≤ c ∧ c ≤ '9' then some (c.toNat - '0'.toNat)
  else if 'a' ≤ c ∧ c ≤ 'z' then some (c.toNat - 'a'.toNat + 10)
  else if 'A' ≤ c ∧ c ≤ 'Z' then some (c.toNat - 'A'.toNat + 10)
  else none

/-- The value of a digit of the given base. -/
def digitOf? (base : Nat) (c : Char) : Option Nat :=
  (digitValue? c).filter (· < base)

/-- A decimal digit, written in ASCII. -/
def isDecimalDigit (c : Char) : Bool := (digitOf? 10 c).isSome

/-- The last `width` digits of a number, with leading zeros. -/
def fixed (base : Nat) : (width n : Nat) → List Char
  | 0, _ => []
  | width + 1, n => Nat.digitChar (n / Nat.pow base width % base) :: fixed base width n

/-- A number in decimal, without leading zeros. -/
def natural (n : Nat) : List Char := Nat.toDigits 10 n

/-- A number in decimal, with leading zeros up to the given width if it is shorter. -/
def padded (width n : Nat) : List Char :=
  if n < tenTo width then fixed 10 width n else natural n

/-- The number that a run of digits names; the empty run names zero. -/
def ofDigits? (base : Nat) (cs : List Char) : Option Nat :=
  cs.foldlM (fun n c => (digitOf? base c).map (n * base + ·)) 0

/-- The number that digits of the given values name behind those that gave `n`; nothing as soon as
it is not below the bound. -/
def extendBelow? (base bound n : Nat) : List Nat → Option Nat
  | [] => some n
  | d :: ds => if n * base + d < bound then extendBelow? base bound (n * base + d) ds else none

/-- The number that a run of digits names, if it is below the bound. -/
def ofDigitsBelow? (base bound : Nat) (cs : List Char) : Option Nat :=
  (cs.mapM (digitOf? base)).bind (extendBelow? base bound 0)

theorem length_fixed (base width n : Nat) : (fixed base width n).length = width := by
  induction width with
  | zero => rfl
  | succ width ih => simp [fixed, ih]

end Checkout.Text
