import Checkout.Json.Number
import Checkout.Text.Utf8

/-!
# The tokens of a JSON text

`tokens` cuts a text into brackets, separators, words, numbers and strings, leaving out white space.
At the first place where no token can be read it ends with the token `broken`.

The text is given in symbols, so that it need not be well-formed UTF-8 throughout. A string token
has no content if it holds an ill-formed character or half of a surrogate pair: such a string is fine
as long as nobody asks for its content.
-/

namespace Checkout.Json

/-- A character of a text, or a byte that belongs to none. -/
abbrev Symbol := Option Char

/-- A token of a JSON text. -/
inductive Token where
  | openArray
  | closeArray
  | openObject
  | closeObject
  | colon
  | comma
  | null
  | bool (value : Bool)
  | number (value : Number)
  | string (content : Option String)
  /-- No token can be read here. -/
  | broken
  deriving DecidableEq

namespace Token

/-- JSON's white space. -/
def isSpace (s : Symbol) : Bool := s = some ' ' || s = some '\n' || s = some '\t' || s = some '\r'

/-- Leaves out white space in front. -/
def skipSpace (cs : List Symbol) : List Symbol := cs.dropWhile isSpace

theorem length_skipSpace_le (cs : List Symbol) : (skipSpace cs).length ≤ cs.length := by
  induction cs with
  | nil => exact Nat.le_refl _
  | cons c cs ih =>
    rw [skipSpace, List.dropWhile_cons]
    split
    · exact Nat.le_succ_of_le ih
    · exact Nat.le_refl _

/-! ### Strings -/

/-- A piece of a string: a symbol, or one of the 16-bit units that stand for a character in pairs. -/
inductive Piece where
  | symbol (s : Symbol)
  | surrogate (unit : Nat)
  deriving DecidableEq

/-- The piece that four hexadecimal digits escape. -/
def Piece.ofUnit (n : Nat) : Piece :=
  if 0xD800 ≤ n ∧ n < 0xE000 then .surrogate n else .symbol (some (Char.ofNat n))

/-- What a letter after a backslash stands for. -/
def escape? (c : Char) : Option Char :=
  if c = '"' ∨ c = '\\' ∨ c = '/' then some c
  else if c = 'b' then some '\x08'
  else if c = 'f' then some '\x0c'
  else if c = 'n' then some '\n'
  else if c = 'r' then some '\r'
  else if c = 't' then some '\t'
  else none

/-- The number of a 16-bit unit in hexadecimal digits. -/
def unit? (a b c d : Symbol) : Option Nat := do
  Text.ofDigits? 16 [← a, ← b, ← c, ← d]

/-- Reads the pieces of a string behind its opening quote, and what follows the closing one. The
pieces read so far are held last first. -/
def pieces (read : List Piece) : List Symbol → Option (List Piece × List Symbol)
  | [] => none
  | some '"' :: cs => some (read.reverse, cs)
  | some '\\' :: some 'u' :: a :: b :: c :: d :: cs =>
    match unit? a b c d with
    | some n => pieces (Piece.ofUnit n :: read) cs
    | none => none
  | some '\\' :: some e :: cs =>
    match escape? e with
    | some c => pieces (.symbol (some c) :: read) cs
    | none => none
  | some c :: cs => if c.toNat < 0x20 ∨ c = '\\' then none else pieces (.symbol (some c) :: read) cs
  | none :: cs => pieces (.symbol none :: read) cs

theorem length_lt_of_pieces {cs rest : List Symbol} {read ps : List Piece}
    (h : pieces read cs = some (ps, rest)) : rest.length < cs.length := by
  fun_induction pieces read cs <;> simp_all <;> omega

/-- The character of a surrogate pair. -/
def pairChar? (high low : Nat) : Option Char :=
  if high < 0xDC00 ∧ 0xDC00 ≤ low then
    some (Char.ofNat (0x10000 + (high - 0xD800) * 0x400 + (low - 0xDC00)))
  else none

/-- The characters of a string; nothing if it is ill-formed. The characters so far are held last
first. -/
def content (read : List Char) : List Piece → Option (List Char)
  | [] => some read.reverse
  | .symbol (some c) :: ps => content (c :: read) ps
  | .surrogate high :: .surrogate low :: ps =>
    match pairChar? high low with
    | some c => content (c :: read) ps
    | none => none
  | _ => none

/-! ### Numbers -/

/-- The value of a decimal digit. -/
def digit? (s : Symbol) : Option Nat := s.bind (Text.digitOf? 10)

/-- Reads decimal digits. -/
def digitRun (cs : List Symbol) : List Nat × List Symbol :=
  ((cs.takeWhile fun s => (digit? s).isSome).filterMap digit?,
    cs.dropWhile fun s => (digit? s).isSome)

theorem length_digitRun (cs : List Symbol) :
    (digitRun cs).1.length + (digitRun cs).2.length = cs.length := by
  induction cs with
  | nil => rfl
  | cons c cs ih =>
    simp only [digitRun] at ih ⊢
    cases h : digit? c with
    | none => simp [h]
    | some d => simp [h] at ih ⊢; omega

/-- Reads the whole part: a zero alone, or digits that do not begin with zero. -/
def whole? (cs : List Symbol) : Option (List Nat × List Symbol) :=
  match digitRun cs with
  | ([], _) => none
  | (d :: ds, rest) => if d = 0 ∧ !ds.isEmpty then none else some (d :: ds, rest)

/-- Reads an optional point with digits. -/
def fraction? (cs : List Symbol) : Option (List Nat × List Symbol) :=
  match cs with
  | some '.' :: cs =>
    match digitRun cs with
    | ([], _) => none
    | digits => some digits
  | _ => some ([], cs)

/-- The exponent that digits name. Beyond 31 bits, where no magnitude but zero is left or none at
all, all exponents are taken for the same one. -/
def exponentOf (ds : List Nat) : Nat :=
  (Text.extendBelow? 10 (UInt32.size / 2) 0 ds).getD (UInt32.size / 2)

/-- Reads the exponent behind its mark. -/
def exponentDigits? (negative : Bool) (cs : List Symbol) : Option (Option Int × List Symbol) :=
  match digitRun cs with
  | ([], _) => none
  | (ds, rest) =>
    let n : Int := exponentOf ds
    some (some (if negative then -n else n), rest)

/-- Reads an optional exponent. -/
def exponent? (cs : List Symbol) : Option (Option Int × List Symbol) :=
  match cs with
  | some c :: rest =>
    if Decimal.isExponentMark c then
      match rest with
      | some '-' :: rest => exponentDigits? true rest
      | some '+' :: rest => exponentDigits? false rest
      | rest => exponentDigits? false rest
    else some (none, cs)
  | _ => some (none, cs)

/-- Reads a number. -/
def number? (cs : List Symbol) : Option (Number × List Symbol) := do
  let (negative, cs) := match cs with
    | some '-' :: cs => (true, cs)
    | cs => (false, cs)
  let (whole, cs) ← whole? cs
  let (fraction, cs) ← fraction? cs
  let (exponent, cs) ← exponent? cs
  return (⟨negative, whole, fraction, exponent⟩, cs)

theorem length_lt_of_whole {cs rest : List Symbol} {ds : List Nat}
    (h : whole? cs = some (ds, rest)) : rest.length < cs.length := by
  have hl := length_digitRun cs
  rw [whole?] at h
  split at h
  · cases h
  · rename_i heq
    split at h
    · cases h
    · cases h
      rw [heq] at hl
      simp only [List.length_cons] at hl
      omega

theorem length_le_of_fraction {cs rest : List Symbol} {ds : List Nat}
    (h : fraction? cs = some (ds, rest)) : rest.length ≤ cs.length := by
  rw [fraction?.eq_def] at h
  split at h
  · rename_i cs
    have hl := length_digitRun cs
    split at h
    · cases h
    · have hr : (digitRun cs).2 = rest := congrArg Prod.snd (Option.some.inj h)
      rw [hr] at hl
      simp only [List.length_cons]
      omega
  · cases h; exact Nat.le_refl _

theorem length_le_of_exponentDigits {negative : Bool} {cs rest : List Symbol} {e : Option Int}
    (h : exponentDigits? negative cs = some (e, rest)) : rest.length ≤ cs.length := by
  have hl := length_digitRun cs
  rw [exponentDigits?] at h
  split at h
  · cases h
  · rename_i heq
    cases h
    rw [heq] at hl
    simp only at hl
    omega

theorem length_le_of_exponent {cs rest : List Symbol} {e : Option Int}
    (h : exponent? cs = some (e, rest)) : rest.length ≤ cs.length := by
  rw [exponent?.eq_def] at h
  split at h
  · split at h
    · split at h
      all_goals
        have hl := length_le_of_exponentDigits h
        simp only [List.length_cons] at hl ⊢
        omega
    · cases h; exact Nat.le_refl _
  · cases h; exact Nat.le_refl _

theorem length_lt_of_number {cs rest : List Symbol} {n : Number}
    (h : number? cs = some (n, rest)) : rest.length < cs.length := by
  simp only [number?, Option.bind_eq_bind, Option.bind_eq_some_iff, Option.pure_def,
    Option.some.injEq, Prod.mk.injEq, Prod.exists] at h
  obtain ⟨w, cs₁, hw, f, cs₂, hf, e, cs₃, he, -, rfl⟩ := h
  have hw := length_lt_of_whole hw
  have hf := length_le_of_fraction hf
  have he := length_le_of_exponent he
  split at hw <;> simp only [List.length_cons] at * <;> omega

/-! ### All tokens -/

/-- The rest of the text behind a word. -/
def word? (word : String) (cs : List Symbol) : Option (List Symbol) :=
  let n := word.toList.length
  if cs.take n = word.toList.map some then some (cs.drop n) else none

/-- Reads the token that begins with the symbol `s`. -/
def token (s : Symbol) (cs : List Symbol) : Option (Token × List Symbol) :=
  match s with
  | some '[' => some (.openArray, cs)
  | some ']' => some (.closeArray, cs)
  | some '\x7b' => some (.openObject, cs)
  | some '\x7d' => some (.closeObject, cs)
  | some ':' => some (.colon, cs)
  | some ',' => some (.comma, cs)
  | some 'n' => (word? "ull" cs).map (.null, ·)
  | some 't' => (word? "rue" cs).map (.bool true, ·)
  | some 'f' => (word? "alse" cs).map (.bool false, ·)
  | some '"' =>
    (pieces [] cs).map fun (ps, rest) => (.string ((content [] ps).map String.ofList), rest)
  | _ => (number? (s :: cs)).map fun (n, rest) => (.number n, rest)

theorem length_le_of_word {word : String} {cs rest : List Symbol} (h : word? word cs = some rest) :
    rest.length ≤ cs.length := by
  simp only [word?] at h
  split at h
  · cases h; exact Nat.le_trans (by simp) (Nat.le_refl cs.length)
  · cases h

theorem length_le_of_token {s : Symbol} {cs rest : List Symbol} {t : Token}
    (h : token s cs = some (t, rest)) : rest.length ≤ cs.length := by
  rw [token.eq_def] at h
  split at h
  iterate 6 (cases h; exact Nat.le_refl _)
  iterate 3
    obtain ⟨r, hr, heq⟩ := Option.map_eq_some_iff.1 h
    cases heq
    exact length_le_of_word hr
  · obtain ⟨⟨ps, r⟩, hr, heq⟩ := Option.map_eq_some_iff.1 h
    cases heq
    exact Nat.le_of_lt (length_lt_of_pieces hr)
  · obtain ⟨⟨n, r⟩, hr, heq⟩ := Option.map_eq_some_iff.1 h
    cases heq
    exact Nat.le_of_lt_succ (length_lt_of_number hr)

/-- Cuts up the text behind the tokens read so far, which are held last first. -/
def tokensFrom (read : List Token) (cs : List Symbol) : List Token :=
  match _ : skipSpace cs with
  | [] => read.reverse
  | s :: rest =>
    match _ : token s rest with
    | some (t, after) => tokensFrom (t :: read) after
    | none => (Token.broken :: read).reverse
termination_by cs.length
decreasing_by
  rename_i hs ht
  have h := length_skipSpace_le cs
  have := length_le_of_token ht
  rw [hs, List.length_cons] at h
  omega

end Token

/-- The tokens of a text. -/
def tokens (text : List Symbol) : List Token := Token.tokensFrom [] text

end Checkout.Json
