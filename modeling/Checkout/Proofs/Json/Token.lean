import Checkout.Json.Draft
import Checkout.Proofs.Text.Digits

/-!
# Reading tokens back

A string is read from its written form, whatever is in it (`pieces_escaped`), and a number from its
own (`number?_toChars`), if it is proper: it has digits, and the whole part does not begin with a
zero unless it is one. Only an exponent beyond 31 bits is not kept (`Number.asRead`). Where a number
ends must be seen from what follows it: a comma, the end of a container, or of the text (`Ends`).
-/

namespace Checkout.Json

open Text

/-! ## Proper numbers -/

namespace Number

/-- The number is written as numbers are. -/
structure IsProper (n : Number) : Prop where
  whole_digits : ∀ d ∈ n.whole, d < 10
  fraction_digits : ∀ d ∈ n.fraction, d < 10
  whole_ne_nil : n.whole ≠ []
  whole_head : ∀ ds, n.whole = 0 :: ds → ds = []

/-- An exponent as it is read. -/
def exponentAsRead : Int → Int
  | .ofNat e => Token.exponentOf (digitsOf e)
  | .negSucc e => -(Token.exponentOf (digitsOf (e + 1)) : Int)

/-- The number as it is read: all exponents beyond 31 bits are the same. -/
def asRead (n : Number) : Number := { n with exponent := n.exponent.map exponentAsRead }

end Number

/-! ## The digits of a natural number -/

theorem toNat_digitChar : ∀ d < 10, (Nat.digitChar d).toNat - '0'.toNat = d := by decide

theorem exists_digitChar_of_mem_natural {n : Nat} {c : Char} (h : c ∈ natural n) :
    ∃ d < 10, c = Nat.digitChar d := by
  obtain ⟨width, hnatural, -, -⟩ := natural_eq_fixed n
  rw [hnatural] at h
  exact exists_digitChar_of_mem_fixed h

theorem map_digitChar_digitsOf (n : Nat) : (digitsOf n).map Nat.digitChar = natural n := by
  unfold digitsOf
  rw [List.map_map]
  refine (List.map_congr_left fun c hc => ?_).trans (List.map_id _)
  obtain ⟨d, hd, rfl⟩ := exists_digitChar_of_mem_natural hc
  exact congrArg Nat.digitChar (toNat_digitChar d hd)

theorem lt_of_mem_digitsOf {n d : Nat} (h : d ∈ digitsOf n) : d < 10 := by
  obtain ⟨c, hc, rfl⟩ := List.mem_map.mp h
  obtain ⟨d, hd, rfl⟩ := exists_digitChar_of_mem_natural hc
  rwa [toNat_digitChar d hd]

theorem digitsOf_eq (n : Nat) :
    ∃ width, n < 10 ^ (width + 1) ∧ (0 < width → 10 ^ width ≤ n) ∧
      digitsOf n = (fixed 10 (width + 1) n).map fun c => c.toNat - '0'.toNat := by
  obtain ⟨width, hnatural, hlt, hle⟩ := natural_eq_fixed n
  exact ⟨width, hlt, hle, by rw [digitsOf, hnatural]⟩

theorem digitsOf_ne_nil (n : Nat) : digitsOf n ≠ [] := by
  obtain ⟨width, -, -, hdigits⟩ := digitsOf_eq n
  rw [hdigits]
  exact List.cons_ne_nil _ _

/-- No number but zero begins with a zero. -/
theorem eq_nil_of_digitsOf {n : Nat} {ds : List Nat} (h : digitsOf n = 0 :: ds) : ds = [] := by
  obtain ⟨width, hlt, hle, hdigits⟩ := digitsOf_eq n
  rw [hdigits, fixed_succ, List.map_cons] at h
  obtain ⟨hfirst, hrest⟩ := List.cons.inj h
  rw [toNat_digitChar _ (Nat.mod_lt _ (by decide)), Nat.mod_eq_of_lt
    (Nat.div_lt_of_lt_mul (by rwa [← Nat.pow_succ]))] at hfirst
  rcases Nat.eq_zero_or_pos width with rfl | hpos
  · exact hrest.symm
  · have hquotient := Nat.div_pos (hle hpos) (Nat.pow_pos (by decide))
    omega

/-- **A natural number below the bound is what its digits name.** -/
theorem extendBelow?_digitsOf {n bound : Nat} (h : n < bound) :
    extendBelow? 10 bound 0 (digitsOf n) = some n := by
  obtain ⟨width, hlt, -, hdigits⟩ := digitsOf_eq n
  have hread := ofDigitsBelow?_fixed (show 0 < 10 by decide) (by decide)
    (show n % 10 ^ (width + 1) < bound by rwa [Nat.mod_eq_of_lt hlt])
  have hmap : (fixed 10 (width + 1) n).mapM (digitOf? 10) =
      some ((fixed 10 (width + 1) n).map fun c => c.toNat - '0'.toNat) := by
    clear hread hdigits
    induction width + 1 with
    | zero => rfl
    | succ width ih =>
        have hmod : n / 10 ^ width % 10 < 10 := Nat.mod_lt _ (by decide)
        rw [fixed_succ, List.mapM_cons, digitOf?_digitChar (by decide) hmod, ih, List.map_cons,
          toNat_digitChar _ hmod]
        rfl
  unfold ofDigitsBelow? at hread
  rwa [hmap, Nat.mod_eq_of_lt hlt, ← hdigits] at hread

theorem Number.isProper_ofNat (n : Nat) : (Number.ofNat n).IsProper where
  whole_digits _ h := lt_of_mem_digitsOf h
  fraction_digits _ h := nomatch h
  whole_ne_nil := digitsOf_ne_nil n
  whole_head _ h := eq_nil_of_digitsOf h

namespace Token

/-! ## Numbers -/

/-- What follows a number here cannot go on with it. -/
def Ends (rest : List Symbol) : Prop :=
  ∀ s ∈ rest.head?, s = some ',' ∨ s = some ']' ∨ s = some '\x7d'

/-- No digit comes next. -/
def NoDigit (rest : List Symbol) : Prop := ∀ s ∈ rest.head?, digit? s = none

/-- Digits as symbols of a text. -/
def digits (ds : List Nat) : List Symbol := ds.map fun d => some (Nat.digitChar d)

theorem Ends.noDigit {rest : List Symbol} (h : Ends rest) : NoDigit rest := by
  intro s hs
  rcases h s hs with rfl | rfl | rfl <;> rfl

theorem digit?_digitChar {d : Nat} (h : d < 10) : digit? (some (Nat.digitChar d)) = some d :=
  digitOf?_digitChar (by decide) h

/-- All digits are read, and nothing else. -/
theorem digitRun_digits {ds : List Nat} (h : ∀ d ∈ ds, d < 10) {rest : List Symbol}
    (hrest : NoDigit rest) : digitRun (digits ds ++ rest) = (ds, rest) := by
  induction ds with
  | nil =>
      cases rest with
      | nil => rfl
      | cons s rest =>
          have hs := hrest s rfl
          show digitRun (s :: rest) = _
          unfold digitRun
          rw [List.takeWhile_cons_of_neg (by rw [hs]; decide),
            List.dropWhile_cons_of_neg (by rw [hs]; decide)]
          rfl
  | cons d ds ih =>
      have hd := digit?_digitChar (h d List.mem_cons_self)
      have ih := ih fun d' hd' => h d' (List.mem_cons_of_mem d hd')
      show digitRun (some (Nat.digitChar d) :: (digits ds ++ rest)) = _
      unfold digitRun at ih ⊢
      obtain ⟨hds, hafter⟩ := Prod.mk.inj ih
      rw [List.takeWhile_cons_of_pos (by rw [hd]; rfl),
        List.dropWhile_cons_of_pos (by rw [hd]; rfl), List.filterMap_cons_some hd, hds, hafter]

theorem whole?_digits {n : Number} (h : n.IsProper) {rest : List Symbol} (hrest : NoDigit rest) :
    whole? (digits n.whole ++ rest) = some (n.whole, rest) := by
  unfold whole?
  rw [digitRun_digits h.whole_digits hrest]
  cases hwhole : n.whole with
  | nil => exact absurd hwhole h.whole_ne_nil
  | cons d ds =>
      dsimp only
      rw [if_neg]
      rintro ⟨rfl, hne⟩
      rw [h.whole_head ds hwhole] at hne
      cases hne

/-- The fraction of a number as it is written. -/
def fractionSymbols (ds : List Nat) : List Symbol :=
  if ds.isEmpty then [] else some '.' :: digits ds

theorem fraction?_digits {ds : List Nat} (h : ∀ d ∈ ds, d < 10) {rest : List Symbol}
    (hrest : NoDigit rest) (hpoint : rest.head? ≠ some (some '.')) :
    fraction? (fractionSymbols ds ++ rest) = some (ds, rest) := by
  cases ds with
  | nil =>
      show fraction? rest = _
      unfold fraction?
      split
      · exact absurd rfl hpoint
      · rfl
  | cons d ds =>
      show fraction? (some '.' :: (digits (d :: ds) ++ rest)) = _
      rw [fraction?, digitRun_digits h hrest]

theorem exponentDigits?_digitsOf (negative : Bool) (e : Nat) {rest : List Symbol}
    (hrest : NoDigit rest) :
    exponentDigits? negative (digits (digitsOf e) ++ rest) =
      some (some (if negative then -(exponentOf (digitsOf e) : Int)
        else exponentOf (digitsOf e)), rest) := by
  unfold exponentDigits?
  rw [digitRun_digits (fun _ => lt_of_mem_digitsOf) hrest]
  cases hdigits : digitsOf e with
  | nil => exact absurd hdigits (digitsOf_ne_nil e)
  | cons d ds => rfl

/-- The exponent of a number as it is written. -/
def exponentSymbols : Option Int → List Symbol
  | none => []
  | some (.ofNat e) => some 'e' :: digits (digitsOf e)
  | some (.negSucc e) => some 'e' :: some '-' :: digits (digitsOf (e + 1))

theorem exponent?_digits (e : Option Int) {rest : List Symbol} (hrest : Ends rest) :
    exponent? (exponentSymbols e ++ rest) = some (e.map Number.exponentAsRead, rest) := by
  rcases e with _ | e | e
  case none =>
    show exponent? rest = _
    unfold exponent?
    split
    next c rest =>
      rcases hrest (some c) rfl with heq | heq | heq <;> cases heq <;> rfl
    next => rfl
  case some.ofNat =>
    have hread := exponentDigits?_digitsOf false e hrest.noDigit
    show exponent? (some 'e' :: (digits (digitsOf e) ++ rest)) = _
    cases hdigits : digitsOf e with
    | nil => exact absurd hdigits (digitsOf_ne_nil e)
    | cons d ds =>
        have hd : d < 10 := lt_of_mem_digitsOf (hdigits ▸ List.mem_cons_self)
        have hne : Nat.digitChar d ≠ '-' ∧ Nat.digitChar d ≠ '+' := by
          have hall : ∀ d < 10, Nat.digitChar d ≠ '-' ∧ Nat.digitChar d ≠ '+' := by decide
          exact hall d hd
        rw [hdigits] at hread
        rw [exponent?, if_pos (by decide), hread]
        · show _ = some (some (Token.exponentOf (digitsOf e) : Int), _)
          rw [hdigits]
          rfl
        -- the first digit is no sign
        · exact fun _ heq => hne.1 (Option.some.inj (List.cons.inj heq).1)
        · exact fun _ heq => hne.2 (Option.some.inj (List.cons.inj heq).1)
  case some.negSucc => exact exponentDigits?_digitsOf true (e + 1) hrest.noDigit

theorem digits_eq (ds : List Nat) : digits ds = (ds.map Nat.digitChar).map some := by
  unfold digits
  rw [List.map_map]
  rfl

theorem map_fraction (ds : List Nat) :
    (if ds.isEmpty then [] else '.' :: ds.map Nat.digitChar).map some = fractionSymbols ds := by
  unfold fractionSymbols
  split
  · rfl
  · rw [List.map_cons, digits_eq]

theorem symbols_toChars (n : Number) :
    n.toChars.map some = (if n.negative then [some '-'] else []) ++ (digits n.whole ++
      (fractionSymbols n.fraction ++ exponentSymbols n.exponent)) := by
  unfold Number.toChars
  rw [List.map_append, List.map_append, List.map_append, map_fraction, ← digits_eq]
  simp only [List.append_assoc]
  congr 1
  · split <;> rfl
  congr 2
  rcases n.exponent with _ | e | e
  · rfl
  all_goals
    dsimp only [exponentSymbols]
    rw [digits_eq, map_digitChar_digitsOf]
    rfl

/-- What follows a part of a number: neither digits nor a point. -/
def EndsDigits (rest : List Symbol) : Prop :=
  NoDigit rest ∧ rest.head? ≠ some (some '.')

theorem endsDigits_exponent (e : Option Int) {rest : List Symbol} (hrest : Ends rest) :
    EndsDigits (exponentSymbols e ++ rest) := by
  rcases e with _ | e | e
  · refine ⟨hrest.noDigit, fun hpoint => ?_⟩
    rcases hrest _ hpoint with heq | heq | heq <;> cases heq
  all_goals
    refine ⟨fun s hs => ?_, show (some (some 'e') : Option Symbol) ≠ some (some '.') by decide⟩
    cases hs
    rfl

theorem noDigit_fraction (ds : List Nat) {rest : List Symbol} (hrest : NoDigit rest) :
    NoDigit (fractionSymbols ds ++ rest) := by
  cases ds with
  | nil => exact hrest
  | cons d ds =>
      intro s hs
      cases hs
      rfl

/-- Reads a number behind its sign. -/
def magnitude? (negative : Bool) (cs : List Symbol) : Option (Number × List Symbol) := do
  let (whole, cs) ← whole? cs
  let (fraction, cs) ← fraction? cs
  let (exponent, cs) ← exponent? cs
  return (⟨negative, whole, fraction, exponent⟩, cs)

theorem magnitude?_digits {n : Number} (h : n.IsProper) {rest : List Symbol} (hrest : Ends rest) :
    magnitude? n.negative (digits n.whole ++ (fractionSymbols n.fraction ++
      (exponentSymbols n.exponent ++ rest))) = some (n.asRead, rest) := by
  obtain ⟨hdigit, hpoint⟩ := endsDigits_exponent n.exponent hrest
  unfold magnitude?
  rw [whole?_digits h (noDigit_fraction n.fraction hdigit)]
  simp only [Option.bind_eq_bind, Option.bind_some]
  rw [fraction?_digits h.fraction_digits hdigit hpoint]
  simp only [Option.bind_some]
  rw [exponent?_digits n.exponent hrest]
  rfl

theorem number?_of_digit {d : Nat} (hd : d < 10) (cs : List Symbol) :
    number? (some (Nat.digitChar d) :: cs) = magnitude? false (some (Nat.digitChar d) :: cs) := by
  have hne : Nat.digitChar d ≠ '-' := by
    have hall : ∀ d < 10, Nat.digitChar d ≠ '-' := by decide
    exact hall d hd
  unfold number?
  split
  next heq =>
    split at heq
    next heq' => exact absurd (Option.some.inj (List.cons.inj heq').1) hne
    next =>
      cases heq
      rfl

/-- **A number is read from its own text.** -/
theorem number?_toChars {n : Number} (h : n.IsProper) {rest : List Symbol} (hrest : Ends rest) :
    number? (n.toChars.map some ++ rest) = some (n.asRead, rest) := by
  have hread := magnitude?_digits h hrest
  rw [symbols_toChars]
  simp only [List.append_assoc]
  cases hnegative : n.negative with
  | true =>
      rw [hnegative] at hread
      exact hread
  | false =>
      rw [hnegative] at hread
      cases hwhole : n.whole with
      | nil => exact absurd hwhole h.whole_ne_nil
      | cons d ds =>
          rw [hwhole] at hread
          exact (number?_of_digit (h.whole_digits d (hwhole ▸ List.mem_cons_self)) _).trans hread

/-- The first character of a number, which says that it is one. -/
def BeginsNumber (c : Char) : Prop := c = '-' ∨ isDecimalDigit c = true

theorem BeginsNumber.isSpace {c : Char} (h : BeginsNumber c) : isSpace (some c) = false := by
  unfold Token.isSpace
  simp only [Bool.or_eq_false_iff, decide_eq_false_iff_not, Option.some.injEq]
  refine ⟨⟨⟨?_, ?_⟩, ?_⟩, ?_⟩ <;> rintro rfl <;> exact absurd h (by unfold BeginsNumber; decide)

theorem BeginsNumber.token {c : Char} (h : BeginsNumber c) (cs : List Symbol) :
    token (some c) cs = (number? (some c :: cs)).map fun (n, rest) => (.number n, rest) := by
  unfold Token.token
  split
  all_goals first
    | rfl
    | (rename_i heq; cases heq; exact absurd h (by unfold BeginsNumber; decide))

theorem beginsNumber_toChars {n : Number} (h : n.IsProper) :
    ∃ c cs, n.toChars.map some = some c :: cs ∧ BeginsNumber c := by
  rw [symbols_toChars]
  cases n.negative with
  | true => exact ⟨'-', _, rfl, .inl rfl⟩
  | false =>
      cases hwhole : n.whole with
      | nil => exact absurd hwhole h.whole_ne_nil
      | cons d ds =>
          have hd : d < 10 := h.whole_digits d (hwhole ▸ List.mem_cons_self)
          exact ⟨Nat.digitChar d, _, rfl, .inr (isDecimalDigit_digitChar hd)⟩

/-! ## Strings -/

theorem pieces_of_unit? {read : List Piece} {a b c d : Symbol} {n : Nat}
    (h : unit? a b c d = some n) (rest : List Symbol) :
    pieces read (some '\\' :: some 'u' :: a :: b :: c :: d :: rest) =
      pieces (Piece.ofUnit n :: read) rest := by
  rw [pieces, h]

/-- Four digits of a 16-bit unit are read as the character that they name. -/
theorem pieces_unit (read : List Piece) {c : Char} (h : c.toNat < 0x20) (rest : List Symbol) :
    pieces read (('\\' :: 'u' :: fixed 16 4 c.toNat).map some ++ rest) =
      pieces (.symbol (some c) :: read) rest := by
  have hunit := ofDigits?_fixed (show 0 < 16 by decide) (by decide) 4 c.toNat
  rw [Nat.mod_eq_of_lt (by omega)] at hunit
  refine (pieces_of_unit? (n := c.toNat) ?_ rest).trans ?_
  · exact hunit
  unfold Piece.ofUnit
  rw [if_neg (by omega), Char.ofNat_toNat]

/-- A character is read as it is escaped. -/
theorem pieces_escapeChar (read : List Piece) (c : Char) (rest : List Symbol) :
    pieces read ((escapeChar c).map some ++ rest) = pieces (.symbol (some c) :: read) rest := by
  fun_cases escapeChar c with
  | case8 _ _ _ _ _ _ _ h => exact pieces_unit read h rest
  | case9 hquote hslash _ _ _ _ _ h =>
      show pieces read (some c :: rest) = _
      conv =>
        lhs
        unfold pieces
      split
      next heq => cases heq
      next heq => exact absurd (Option.some.inj (List.cons.inj heq).1) hquote
      next heq => exact absurd (Option.some.inj (List.cons.inj heq).1) hslash
      next heq => exact absurd (Option.some.inj (List.cons.inj heq).1) hslash
      next heq =>
        cases heq
        exact if_neg (not_or.mpr ⟨h, hslash⟩)
      next heq => cases (List.cons.inj heq).1
  | _ =>
      subst_vars
      rfl

/-- **A string is read from its written form**, up to the closing quote. -/
theorem pieces_escaped (cs : List Char) (read : List Piece) (rest : List Symbol) :
    pieces read ((cs.flatMap escapeChar).map some ++ some '"' :: rest) =
      some (read.reverse ++ cs.map fun c => .symbol (some c), rest) := by
  induction cs generalizing read with
  | nil =>
      rw [List.map_nil, List.append_nil]
      rfl
  | cons c cs ih =>
      rw [List.flatMap_cons, List.map_append, List.append_assoc, pieces_escapeChar, ih]
      simp

theorem content_symbols (cs read : List Char) :
    content read (cs.map fun c => .symbol (some c)) = some (read.reverse ++ cs) := by
  induction cs generalizing read with
  | nil => simp [content]
  | cons c cs ih =>
      rw [List.map_cons, content, ih]
      simp

theorem token_quoted (s : String) (rest : List Symbol) :
    token (some '"') ((s.toList.flatMap escapeChar).map some ++ some '"' :: rest) =
      some (.string (some s), rest) := by
  show (pieces [] _).map _ = _
  rw [pieces_escaped]
  show some (Token.string ((content [] (s.toList.map _)).map String.ofList), rest) = _
  rw [content_symbols]
  simp

/-! ## All tokens -/

theorem tokensFrom_nil (read : List Token) : tokensFrom read [] = read.reverse := by
  rw [tokensFrom]
  rfl

/-- One token is read after the other. -/
theorem tokensFrom_cons {s : Symbol} {cs after : List Symbol} {t : Token} (read : List Token)
    (hspace : isSpace s = false) (h : token s cs = some (t, after)) :
    tokensFrom read (s :: cs) = tokensFrom (t :: read) after := by
  have hskip : skipSpace (s :: cs) = s :: cs := by
    unfold skipSpace
    rw [List.dropWhile_cons_of_neg (by rw [hspace]; decide)]
  rw [tokensFrom]
  split
  next heq =>
    rw [hskip] at heq
    cases heq
  next s' rest heq =>
    rw [hskip] at heq
    cases heq
    split
    next heq =>
      rw [h] at heq
      cases heq
      rfl
    next heq =>
      rw [h] at heq
      cases heq

theorem tokensFrom_number {n : Number} (h : n.IsProper) (read : List Token) {rest : List Symbol}
    (hrest : Ends rest) :
    tokensFrom read (n.toChars.map some ++ rest) = tokensFrom (.number n.asRead :: read) rest := by
  have hread := number?_toChars h hrest
  obtain ⟨c, cs, hcs, hc⟩ := beginsNumber_toChars h
  rw [hcs, List.cons_append] at hread ⊢
  refine tokensFrom_cons read hc.isSpace ?_
  rw [hc.token, hread]
  rfl

theorem tokensFrom_quoted (s : String) (read : List Token) (rest : List Symbol) :
    tokensFrom read ((quoted s).map some ++ rest) =
      tokensFrom (.string (some s) :: read) rest := by
  unfold quoted
  rw [List.map_append, List.map_cons, List.cons_append, List.cons_append, List.append_assoc]
  exact tokensFrom_cons read rfl (token_quoted s rest)

end Token

end Checkout.Json
