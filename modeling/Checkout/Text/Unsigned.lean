import Checkout.Text.Digits

/-!
# Unsigned numbers as text

A number below a bound: an optional `+` and decimal digits, leading zeros allowed. The text is
read from left to right, so the first character that goes wrong decides which fault is reported.
-/

namespace Checkout.Text

/-- Why a text is no number below the bound. -/
inductive UnsignedFault where
  | empty
  | invalidDigit
  | tooLarge
  deriving DecidableEq

namespace UnsignedFault

/-- The fault in words. -/
def message : UnsignedFault → String
  | .empty => "cannot parse integer from empty string"
  | .invalidDigit => "invalid digit found in string"
  | .tooLarge => "number too large to fit in target type"

end UnsignedFault

/-- Reads the digits after those that gave `n`. A character that is no digit is a fault even where
the number has become too large by then. -/
def unsignedDigits (bound : Nat) (n : Nat) : List Char → Except UnsignedFault Nat
  | [] => .ok n
  | c :: cs =>
    match digitOf? 10 c with
    | none => .error .invalidDigit
    | some d => if n * 10 + d < bound then unsignedDigits bound (n * 10 + d) cs else .error .tooLarge

/-- Reads a number below the bound. -/
def unsigned (bound : Nat) : List Char → Except UnsignedFault Nat
  | [] => .error .empty
  | ['+'] => .error .invalidDigit
  | '+' :: cs => unsignedDigits bound 0 cs
  | cs => unsignedDigits bound 0 cs

end Checkout.Text
