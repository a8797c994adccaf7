/-!
# White space

The characters that Unicode gives the property `White_Space`, and trimming by them.
-/

namespace Checkout.Text

/-- A character with the Unicode property `White_Space`. -/
def isBlank (c : Char) : Bool :=
  let n := c.toNat
  (9 ≤ n && n ≤ 13) || n = 0x20 || n = 0x85 || n = 0xA0 || n = 0x1680 ||
    (0x2000 ≤ n && n ≤ 0x200A) || n = 0x2028 || n = 0x2029 || n = 0x202F || n = 0x205F ||
    n = 0x3000

/-- Drops the white space in front. -/
def trimLeft (cs : List Char) : List Char := cs.dropWhile isBlank

/-- Drops the white space in front and behind. -/
def trim (cs : List Char) : List Char := (trimLeft (trimLeft cs).reverse).reverse

end Checkout.Text
