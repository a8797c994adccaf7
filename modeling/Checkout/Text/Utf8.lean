/-!
# Characters in bytes

`symbols` reads bytes as UTF-8. What is no well-formed character is not refused but marked: each
byte of it becomes `none`. So a reader can pass over ill-formed text in places where it does not
matter.
-/

namespace Checkout.Text

/-- The value that a byte after the first contributes to a character. -/
def continuation? (b : UInt8) : Option Nat :=
  if 0x80 ≤ b ∧ b < 0xC0 then some (b.toNat - 0x80) else none

/-- The character of a code point that needs all the bytes it was written with; surrogates are no
characters. -/
def codePoint? (least n : Nat) : Option Char :=
  if least ≤ n ∧ (n < 0xD800 ∨ (0xE000 ≤ n ∧ n < 0x110000)) then some (Char.ofNat n) else none

/-- The first character of the bytes, and how many bytes it takes after the first. -/
def character? : List UInt8 → Option (Char × Nat)
  | [] => none
  | b :: bs =>
    if b < 0x80 then some (Char.ofNat b.toNat, 0)
    else if b < 0xC0 then none
    else
      match bs with
      | [] => none
      | b₁ :: bs => do
        let n₁ ← continuation? b₁
        if b < 0xE0 then return (← codePoint? 0x80 ((b.toNat - 0xC0) * 64 + n₁), 1)
        match bs with
        | [] => none
        | b₂ :: bs => do
          let n₂ ← continuation? b₂
          if b < 0xF0 then
            return (← codePoint? 0x800 (((b.toNat - 0xE0) * 64 + n₁) * 64 + n₂), 2)
          match bs with
          | [] => none
          | b₃ :: _ => do
            let n₃ ← continuation? b₃
            if b < 0xF8 then
              return (← codePoint? 0x10000
                ((((b.toNat - 0xF0) * 64 + n₁) * 64 + n₂) * 64 + n₃), 3)
            none

/-- Reads the bytes behind the symbols read so far, which are held last first. `skip` bytes belong to
the character before. -/
def symbolsFrom (read : List (Option Char)) (skip : Nat) : List UInt8 → List (Option Char)
  | [] => read.reverse
  | b :: bs =>
    match skip with
    | skip + 1 => symbolsFrom read skip bs
    | 0 =>
      match character? (b :: bs) with
      | some (c, more) => symbolsFrom (some c :: read) more bs
      | none => symbolsFrom (none :: read) 0 bs

/-- The characters of the bytes, with `none` for each byte that belongs to none. -/
def symbols (bytes : List UInt8) : List (Option Char) := symbolsFrom [] 0 bytes

end Checkout.Text
