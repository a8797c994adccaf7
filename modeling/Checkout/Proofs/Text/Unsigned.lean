import Checkout.Proofs.Text.Digits
import Checkout.Text.Unsigned

/-!
# Which numbers are read

A number is read from the texts that write it, with a `+` or without, as long as it is below the
bound (`unsigned_eq_ok_iff`). The reader compares with the bound after every digit, which is the same
as comparing once at the end, for more digits never make a number smaller.
-/

namespace Checkout.Text

/-- The text writes the number: digits, at least one, behind a `+` or not. -/
def WritesUnsigned (cs : List Char) (n : Nat) : Prop :=
  ∃ digits, (cs = digits ∨ cs = '+' :: digits) ∧ digits ≠ [] ∧ ofDigits? 10 digits = some n

/-- The number that digits name behind those that gave `m`. -/
def goOn? (m : Nat) (cs : List Char) : Option Nat :=
  cs.foldlM (fun n c => (digitOf? 10 c).map (n * 10 + ·)) m

theorem goOn?_cons (m : Nat) (c : Char) (cs : List Char) :
    goOn? m (c :: cs) = (digitOf? 10 c).bind fun d => goOn? (m * 10 + d) cs := by
  unfold goOn?
  rw [List.foldlM_cons]
  cases digitOf? 10 c <;> rfl

/-- More digits never make a number smaller. -/
theorem le_of_goOn? {m n : Nat} {cs : List Char} (h : goOn? m cs = some n) : m ≤ n := by
  induction cs generalizing m with
  | nil =>
      cases h
      exact Nat.le_refl _
  | cons c cs ih =>
      rw [goOn?_cons] at h
      obtain ⟨d, -, h⟩ := Option.bind_eq_some_iff.mp h
      have hle := ih h
      omega

theorem unsignedDigits_eq_ok_iff {bound m n : Nat} {cs : List Char} (hm : m < bound) :
    unsignedDigits bound m cs = .ok n ↔ goOn? m cs = some n ∧ n < bound := by
  induction cs generalizing m with
  | nil =>
      constructor
      · intro h
        cases h
        exact ⟨rfl, hm⟩
      · rintro ⟨h, -⟩
        cases h
        rfl
  | cons c cs ih =>
      rw [unsignedDigits, goOn?_cons]
      cases digitOf? 10 c with
      | none => simp
      | some d =>
          dsimp only [Option.bind_some]
          split
          next hlt => exact ih hlt
          next hge =>
            constructor
            · intro h
              cases h
            · rintro ⟨h, hn⟩
              exact absurd (Nat.lt_of_le_of_lt (le_of_goOn? h) hn) hge

theorem ofDigits?_plus (digits : List Char) : ofDigits? 10 ('+' :: digits) = none :=
  goOn?_cons 0 '+' digits

/-- Behind a `+` stand the digits. -/
theorem writesUnsigned_plus {digits : List Char} {n : Nat} :
    WritesUnsigned ('+' :: digits) n ↔ digits ≠ [] ∧ ofDigits? 10 digits = some n := by
  constructor
  · rintro ⟨digits', rfl | heq, hne, hvalue⟩
    · rw [ofDigits?_plus] at hvalue
      cases hvalue
    · cases heq
      exact ⟨hne, hvalue⟩
  · rintro ⟨hne, hvalue⟩
    exact ⟨digits, .inr rfl, hne, hvalue⟩

/-- A text that does not begin with a `+` is the digits. -/
theorem writesUnsigned_of_ne {cs : List Char} {n : Nat} (h : ∀ digits, cs ≠ '+' :: digits) :
    WritesUnsigned cs n ↔ cs ≠ [] ∧ ofDigits? 10 cs = some n := by
  constructor
  · rintro ⟨digits, rfl | heq, hne, hvalue⟩
    · exact ⟨hne, hvalue⟩
    · exact absurd heq (h digits)
  · rintro ⟨hne, hvalue⟩
    exact ⟨cs, .inl rfl, hne, hvalue⟩

/-- **A number is read exactly from the texts that write it**, if it is below the bound. -/
theorem unsigned_eq_ok_iff {bound n : Nat} {cs : List Char} (hpos : 0 < bound) :
    unsigned bound cs = .ok n ↔ WritesUnsigned cs n ∧ n < bound := by
  have hread (digits : List Char) :
      unsignedDigits bound 0 digits = .ok n ↔ ofDigits? 10 digits = some n ∧ n < bound :=
    unsignedDigits_eq_ok_iff hpos
  cases cs with
  | nil => simp [unsigned, writesUnsigned_of_ne]
  | cons c cs =>
      by_cases hc : c = '+'
      · subst hc
        cases cs with
        | nil => simp [unsigned, writesUnsigned_plus]
        | cons c cs => simp [unsigned, hread, writesUnsigned_plus]
      · have hne : ∀ digits, c :: cs ≠ '+' :: digits := fun _ heq => hc (List.cons.inj heq).1
        rw [writesUnsigned_of_ne hne, unsigned, hread]
        · simp
        · exact List.cons_ne_nil c cs
        · exact hne []
        · exact hne

end Checkout.Text
