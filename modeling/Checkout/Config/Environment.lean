import Checkout.Text.Blank
import Checkout.Text.Unsigned

/-!
# The environment

Settings come from variables with a name and a value. A variable whose value is no well-formed text
counts as not set.
-/

namespace Checkout

/-- The variables that are set, with the bytes of their values. -/
structure Environment where
  settings : List (String × ByteArray)

/-- A setting cannot be used. -/
inductive ConfigFault where
  /-- The variable does not name a number of its range. -/
  | notANumber (name : String) (fault : Text.UnsignedFault)
  /-- The variable must not be zero. -/
  | zero (name : String)
  /-- The variable does not name an address. -/
  | notAnAddress (name : String)
  deriving DecidableEq

namespace ConfigFault

/-- The fault in words. -/
def message : ConfigFault → String
  | .notANumber name fault => s!"Invalid configuration value: Invalid {name}: {fault.message}"
  | .zero name => s!"Invalid configuration value: {name} must be greater than 0"
  | .notAnAddress name =>
    s!"Invalid configuration value: Invalid {name}: invalid socket address syntax"

end ConfigFault

namespace Environment

/-- The text of a variable that is set. -/
def text? (e : Environment) (name : String) : Option String :=
  (e.settings.find? (·.1 = name)).bind fun v => String.fromUTF8? v.2

/-- The text of a variable, or what stands for it if it is not set. -/
def textOr (e : Environment) (name default : String) : String := (e.text? name).getD default

/-- The number below the bound that a variable names, white space aside, or what stands for it if
the variable is not set. -/
def number (e : Environment) (name : String) (bound default : Nat) : Except ConfigFault Nat :=
  match e.text? name with
  | none => .ok default
  | some text =>
    match Text.unsigned bound (Text.trim text.toList) with
    | .ok n => .ok n
    | .error fault => .error (.notANumber name fault)

end Environment

end Checkout
