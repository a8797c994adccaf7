import Checkout.Decimal.Text

/-!
# Money

An amount of money is a decimal of at least zero. A new amount has at most two places that matter
and stays below a fixed bound; sums and products may exceed the bound and fail only where the
decimals themselves overflow.
-/

namespace Checkout

/-- Why an amount is refused or cannot be computed. -/
inductive MoneyFault where
  | negative (amount : Decimal)
  | tooFine (amount : Decimal)
  | tooLarge (amount : Decimal)
  | sumOverflow (augend addend : Decimal)
  | productOverflow (amount : Decimal) (quantity : UInt32)
  /-- A fault that somebody else has put into words. -/
  | described (text : String)
  deriving DecidableEq

/-- An amount of money. -/
structure Money where
  amount : Decimal
  nonneg : 0 ≤ amount.signed
  deriving DecidableEq

namespace Money

/-- How many digits after the point can matter. -/
def places : Nat := 2

/-- Every new amount is below this one. -/
def upperBound : Decimal := .whole false 10000000000 (by decide)

/-- No money. -/
def zero : Money := ⟨Decimal.zero, by decide⟩

instance : Inhabited Money := ⟨zero⟩

instance : ToString Money := ⟨fun m => m.amount.toString⟩

/-- Accepts an amount that is not negative, has no digit that matters after the second place, and
is below the bound. The faults are looked for in this order. -/
def new (amount : Decimal) : Except MoneyFault Money :=
  if h : 0 ≤ amount.signed then
    if ¬ (amount.round places).sameValue amount then .error (.tooFine amount)
    else if amount.order upperBound = .lt then .ok ⟨amount, h⟩
    else .error (.tooLarge amount)
  else .error (.negative amount)

/-- The sum. -/
def add (a b : Money) : Except MoneyFault Money :=
  match h : a.amount.add? b.amount with
  | some d => .ok ⟨d, Decimal.add?_nonneg a.nonneg b.nonneg h⟩
  | none => .error (.sumOverflow a.amount b.amount)

/-- The amount taken `quantity` times. -/
def multiply (a : Money) (quantity : UInt32) : Except MoneyFault Money :=
  match h : a.amount.times? quantity.toNat with
  | some d => .ok ⟨d, Decimal.times?_nonneg a.nonneg h⟩
  | none => .error (.productOverflow a.amount quantity)

/-- The amounts are equal, however many digits they are written with. -/
def sameValue (a b : Money) : Bool := a.amount.sameValue b.amount

end Money

namespace MoneyFault

/-- The fault in words. -/
def message : MoneyFault → String
  | .negative a => s!"金額は0以上である必要があります: {a}"
  | .tooFine a => s!"金額の小数点以下は{Money.places}桁までです: {a}"
  | .tooLarge a => s!"金額は{Money.upperBound}未満である必要があります: {a}"
  | .sumOverflow a b => s!"金額の加算が桁あふれしました: {a} + {b}"
  | .productOverflow a n => s!"金額の乗算が桁あふれしました: {a} × {n}"
  | .described text => text

end MoneyFault

end Checkout
