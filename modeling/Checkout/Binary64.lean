import Checkout.Rounding
import Checkout.Text.Digits

/-!
# Binary floating point of 64 bits

Magnitudes of the format that IEEE 754 calls binary64, as exact numbers: a mantissa below `2 ^ 53`
times a power of two. `round?` gives the magnitude nearest to a quotient, `shortest` the decimal with
the fewest digits that rounds back to a magnitude.
-/

namespace Checkout

/-- The magnitude `mantissa * 2 ^ exponent`. -/
structure Binary64 where
  mantissa : Nat
  exponent : Int
  deriving DecidableEq

namespace Binary64

/-- Mantissas are below this bound, two to the power of 53. -/
def mantissaBound : Nat := 0x20000000000000

/-- Zero. -/
def zero : Binary64 := ⟨0, -1074⟩

/-- The numerator of a magnitude as a quotient of whole numbers. -/
def num (f : Binary64) : Nat := f.mantissa * twoTo f.exponent.toNat

/-- The denominator of a magnitude as a quotient of whole numbers. -/
def den (f : Binary64) : Nat := twoTo (-f.exponent).toNat

/-! ### Rounding -/

/-- The quotient `n / d` in units of `2 ^ e`, rounded half to even. -/
def mantissaAt (n d : Nat) (e : Int) : Nat :=
  Rounding.halfEven (n * twoTo (-e).toNat) (d * twoTo e.toNat)

/-- Brings a mantissa that rounding has made `2 ^ 53` back into range. -/
def normalise (m : Nat) (e : Int) : Binary64 :=
  if m < mantissaBound then ⟨m, e⟩ else ⟨m / 2, e + 1⟩

/-- The magnitude nearest to `n / d`; nothing where it is too large. -/
def round? (n d : Nat) : Option Binary64 :=
  if n = 0 then some zero
  else
    let e : Int := max ((n.log2 : Int) - d.log2 - 53) (-1074)
    let f :=
      if mantissaAt n d e < mantissaBound then ⟨mantissaAt n d e, e⟩
      else normalise (mantissaAt n d (e + 1)) (e + 1)
    if f.exponent ≤ 971 then some f else none

/-- The magnitude nearest to a power of ten. -/
def pow10? (k : Nat) : Option Binary64 := round? (tenTo k) 1

/-- The product, rounded. -/
def mul? (a b : Binary64) : Option Binary64 := round? (a.num * b.num) (a.den * b.den)

/-- The quotient, rounded. -/
def div? (a b : Binary64) : Option Binary64 := round? (a.num * b.den) (a.den * b.num)

/-- `f * 10 ^ e` by one multiplication or division with a power of ten. Exponents below -308 are
approached in steps of 308; after the second step nothing but zero is left. -/
def scale? (f : Binary64) (e : Int) : (steps : Nat) → Option Binary64
  | 0 => some f
  | steps + 1 =>
    if f.mantissa = 0 then some zero
    else if 308 < e then none
    else if 0 ≤ e then (pow10? e.toNat).bind f.mul?
    else if -308 ≤ e then (pow10? (-e).toNat).bind f.div?
    else ((pow10? 308).bind f.div?).bind (scale? · (e + 308) steps)

/-- The magnitude read from `significand * 10 ^ e`: the significand is rounded first, and then its
product with the power of ten. -/
def ofParts? (significand : Nat) (e : Int) : Option Binary64 :=
  (round? significand 1).bind (scale? · e 3)

/-! ### The shortest decimal -/

/-- Tries the grid of the multiples of `10 ^ p`, and if none of them rounds to the magnitude, the
next finer one. In units of a quarter of the mantissa's last place the magnitude is `n / d`, and
what rounds to it lies between `low / d` and `high / d`. Of two neighbours that are equally near the
greater is taken. -/
def shortestFrom (n low high d : Nat) (even : Bool) : (grids : Nat) → Int → Nat × Int
  | 0, p => (n * tenTo (-p).toNat / (d * tenTo p.toNat), p)
  | grids + 1, p =>
    let up := tenTo (-p).toNat
    let unit := d * tenTo p.toNat
    let q := n * up / unit
    let hits (c : Nat) : Bool :=
      (low * up < c * unit || (even && low * up = c * unit)) &&
        (c * unit < high * up || (even && c * unit = high * up))
    if hits q && (!hits (q + 1) || 2 * (n * up - q * unit) < unit) then (q, p)
    else if hits (q + 1) then (q + 1, p)
    else shortestFrom n low high d even grids (p - 1)

/-- The digits and the exponent of the decimal with the fewest digits that rounds to the magnitude;
of several the nearest. Seventeen digits are always enough. -/
def shortest (f : Binary64) : Nat × Int :=
  if f.mantissa = 0 then (0, 0)
  else
    let e := f.exponent - 2
    let unit := twoTo e.toNat
    let d := twoTo (-e).toNat
    let below := if f.mantissa = mantissaBound / 2 ∧ -1074 < f.exponent then 1 else 2
    let n := 4 * f.mantissa
    let magnitude : Int := (n * unit).log2 - d.log2
    shortestFrom (n * unit) ((n - below) * unit) ((n + 2) * unit) d (f.mantissa % 2 = 0) 24
      (magnitude * 30103 / 100000 + 2)

/-- The characters of a magnitude: the shortest decimal, without exponent. -/
def toChars (f : Binary64) : List Char :=
  let (digits, e) := f.shortest
  if 0 ≤ e then Text.natural (digits * tenTo e.toNat)
  else
    let places := (-e).toNat
    Text.natural (digits / tenTo places) ++ '.' :: Text.fixed 10 places (digits % tenTo places)

end Binary64

end Checkout
