import Checkout.Text.Digits

/-!
# UUIDs

A UUID is a number of 128 bits. It is written in lower case with hyphens, and read in four
spellings: 32 hexadecimal digits, the hyphenated form, that form in braces, and that form after
`urn:uuid:`. UUIDs are ordered by their number.
-/

namespace Checkout

/-- The numbers of 128 bits are below this one. -/
def Uuid.bound : Nat := 0x100000000000000000000000000000000

/-- A universally unique identifier, as its number of 128 bits. -/
structure Uuid where
  value : Nat
  value_lt : value < Uuid.bound
  deriving DecidableEq

namespace Uuid

/-- The UUID of a number, if it has at most 128 bits. -/
def ofNat? (n : Nat) : Option Uuid := if h : n < bound then some ⟨n, h⟩ else none

/-- The UUID of number zero. -/
def zero : Uuid := ⟨0, by decide⟩

instance : Inhabited Uuid := ⟨zero⟩

/-- UUIDs are ordered by their number. -/
instance : Ord Uuid := ⟨compareOn value⟩

instance : Std.TransOrd Uuid := inferInstanceAs (Std.TransCmp (compareOn value))

instance : Std.LawfulEqOrd Uuid where
  eq_of_compare {a b} h := by
    cases a; cases b
    exact (Uuid.mk.injEq ..).mpr (Nat.compare_eq_eq.1 h)

/-! ### Writing -/

/-- The 32 hexadecimal digits. -/
def hexDigits (u : Uuid) : List Char := Text.fixed 16 32 u.value

/-- Puts hyphens between 32 digits, after the 8th, 12th, 16th and 20th. -/
def hyphenate (h : List Char) : List Char :=
  h.take 8 ++ '-' :: (h.drop 8).take 4 ++ '-' :: (h.drop 12).take 4 ++ '-' :: (h.drop 16).take 4 ++
    '-' :: h.drop 20

/-- The written form: lower case, hyphenated. -/
def toString (u : Uuid) : String := String.ofList (hyphenate u.hexDigits)

instance : ToString Uuid := ⟨toString⟩

/-! ### Reading -/

/-- Exactly 32 hexadecimal digits. -/
def ofHexDigits? (cs : List Char) : Option Uuid :=
  if cs.length = 32 then (Text.ofDigits? 16 cs).bind ofNat? else none

/-- Five groups of 8, 4, 4, 4 and 12 digits with a hyphen between neighbours. -/
def ofHyphenated? (cs : List Char) : Option Uuid :=
  if cs[8]? = some '-' ∧ cs[13]? = some '-' ∧ cs[18]? = some '-' ∧ cs[23]? = some '-' then
    ofHexDigits? (cs.take 8 ++ (cs.drop 9).take 4 ++ (cs.drop 14).take 4 ++ (cs.drop 19).take 4 ++
      cs.drop 24)
  else none

/-- The hyphenated form in braces. -/
def ofBraced? (cs : List Char) : Option Uuid :=
  if cs.head? = some '\x7b' ∧ cs.getLast? = some '\x7d' then ofHyphenated? (cs.drop 1).dropLast
  else none

/-- The hyphenated form as a URN; case does not matter in `urn:uuid:`. -/
def ofUrn? (cs : List Char) : Option Uuid :=
  if (cs.take 9).map Char.toLower = "urn:uuid:".toList then ofHyphenated? (cs.drop 9) else none

/-- Reads any of the four spellings. -/
def ofString? (s : String) : Option Uuid :=
  let cs := s.toList
  ofHexDigits? cs <|> ofHyphenated? cs <|> ofBraced? cs <|> ofUrn? cs

/-! ### Random UUIDs -/

/-- The number whose bits are `high`, the version 4, the 12 bits `mid`, the variant 2, and the 62
bits `low`. -/
def layout (high mid low : Nat) : Nat :=
  high * 0x100000000000000000000 + 4 * 0x10000000000000000000 + mid * 0x10000000000000000 +
    2 * 0x4000000000000000 + low

/-- The UUID of version 4 whose 122 free bits are the given ones. -/
def ofRandomBits (bits : Nat) : Uuid where
  value := layout (bits / 0x4000000000000000000 % 0x1000000000000)
    (bits / 0x4000000000000000 % 0x1000) (bits % 0x4000000000000000)
  value_lt := by
    rw [layout, bound]
    omega

/-- The version that the UUID states for itself. -/
def version (u : Uuid) : Nat := u.value / 0x10000000000000000000 % 16

/-- The variant bits name the layout of RFC 4122. -/
def isRfc4122 (u : Uuid) : Bool := u.value / 0x4000000000000000 % 4 = 2

theorem layout_version {high mid low : Nat} (hm : mid < 0x1000) (hl : low < 0x4000000000000000) :
    layout high mid low / 0x10000000000000000000 % 16 = 4 := by
  rw [layout]
  omega

theorem layout_variant {high mid low : Nat} (hl : low < 0x4000000000000000) :
    layout high mid low / 0x4000000000000000 % 4 = 2 := by
  rw [layout]
  omega

theorem version_ofRandomBits (bits : Nat) : (ofRandomBits bits).version = 4 :=
  layout_version (Nat.mod_lt _ (by decide)) (Nat.mod_lt _ (by decide))

theorem isRfc4122_ofRandomBits (bits : Nat) : (ofRandomBits bits).isRfc4122 = true :=
  decide_eq_true (layout_variant (Nat.mod_lt _ (by decide)))

end Uuid

end Checkout
