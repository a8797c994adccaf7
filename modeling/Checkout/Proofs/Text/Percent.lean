import Checkout.Text.Digits
import Mathlib.Data.List.Basic

/-!
# Percent signs

In a URL, `%` with two hexadecimal digits stands for a byte and every other character for those that
it is written with. So a text stands for itself exactly if nothing in it is escaped: an escape is
three characters for one byte, and what is read is shorter than what is written
(`decode?_toList`, `eq_of_decode?`).
-/

namespace Checkout.Text

variable {cs : List Char} {s : String}

/-- The bytes that a text stands for: `%` with two hexadecimal digits for one byte, every other
character for those that it is written with. -/
def unescape : List Char → List UInt8
  | [] => []
  | '%' :: a :: b :: cs =>
    match digitOf? 16 a, digitOf? 16 b with
    | some m, some n => UInt8.ofNat (m * 16 + n) :: unescape cs
    | _, _ => String.utf8EncodeChar '%' ++ unescape (a :: b :: cs)
  | c :: cs => String.utf8EncodeChar c ++ unescape cs

/-- Reads what a text stands for, if its bytes are a text. -/
def decode? (cs : List Char) : Option String := String.fromUTF8? (unescape cs).toByteArray

/-- A byte is written behind a percent sign. -/
def HasEscape (cs : List Char) : Prop :=
  ∃ before a b after, cs = before ++ '%' :: a :: b :: after ∧ (digitOf? 16 a).isSome ∧
    (digitOf? 16 b).isSome

theorem not_hasEscape_of_not_mem (h : '%' ∉ cs) : ¬ HasEscape cs := by
  rintro ⟨before, a, b, after, rfl, -⟩
  exact h (List.mem_append_right _ List.mem_cons_self)

theorem HasEscape.cons (c : Char) (h : HasEscape cs) : HasEscape (c :: cs) := by
  obtain ⟨before, a, b, after, rfl, ha, hb⟩ := h
  exact ⟨c :: before, a, b, after, rfl, ha, hb⟩

/-- The bytes that a text is written with. -/
def bytes (cs : List Char) : List UInt8 := cs.flatMap String.utf8EncodeChar

theorem bytes_cons (c : Char) (cs : List Char) :
    bytes (c :: cs) = String.utf8EncodeChar c ++ bytes cs :=
  List.flatMap_cons

theorem bytes_append (cs ds : List Char) : bytes (cs ++ ds) = bytes cs ++ bytes ds :=
  List.flatMap_append

theorem length_bytes_cons (c : Char) (cs : List Char) :
    (bytes cs).length < (bytes (c :: cs)).length := by
  have hpos : 0 < (String.utf8EncodeChar c).length :=
    List.length_pos_of_ne_nil String.utf8EncodeChar_ne_nil
  rw [bytes_cons, List.length_append]
  omega

theorem length_le_bytes (cs : List Char) : cs.length ≤ (bytes cs).length := by
  induction cs with
  | nil => exact Nat.le_refl 0
  | cons c cs ih =>
      have hlt := length_bytes_cons c cs
      rw [List.length_cons]
      omega

/-- An ASCII text has as many bytes as characters. -/
theorem length_bytes_eq (h : ∀ c ∈ cs, c.utf8Size = 1) : (bytes cs).length = cs.length := by
  induction cs with
  | nil => rfl
  | cons c cs ih =>
      obtain ⟨hc, hcs⟩ := List.forall_mem_cons.mp h
      rw [bytes_cons, List.length_append, String.length_utf8EncodeChar, hc, ih hcs,
        List.length_cons, Nat.add_comm]

theorem toByteArray_eq (s : String) : s.toByteArray = (bytes s.toList).toByteArray := by
  conv_lhs => rw [← String.ofList_toList (s := s), String.toByteArray_ofList]
  rfl

/-- What is not escaped stands for itself. -/
theorem unescape_eq_bytes (h : ¬ HasEscape cs) : unescape cs = bytes cs := by
  fun_induction unescape cs with
  | case1 => rfl
  | case2 a b cs m n hm hn ih =>
      exact absurd ⟨[], a, b, cs, rfl, by rw [hn]; rfl, by rw [hm]; rfl⟩ h
  | case3 a b cs _ ih => rw [ih fun hrest => h (hrest.cons '%'), ← bytes_cons]
  | case4 c cs _ ih => rw [ih fun hrest => h (hrest.cons c), bytes_cons]

theorem hasEscape_cons_iff {c : Char} :
    HasEscape (c :: cs) ↔ HasEscape cs ∨ ∃ a b rest, c = '%' ∧ cs = a :: b :: rest ∧
      (digitOf? 16 a).isSome ∧ (digitOf? 16 b).isSome := by
  constructor
  · rintro ⟨before, a, b, after, heq, ha, hb⟩
    cases before with
    | nil =>
        cases heq
        exact .inr ⟨a, b, after, rfl, rfl, ha, hb⟩
    | cons d before =>
        cases heq
        exact .inl ⟨before, a, b, after, rfl, ha, hb⟩
  · rintro (h | ⟨a, b, rest, rfl, rfl, ha, hb⟩)
    · exact h.cons c
    · exact ⟨[], a, b, rest, rfl, ha, hb⟩

/-- No text stands for more bytes than it is written with. -/
theorem length_unescape_le (cs : List Char) : (unescape cs).length ≤ (bytes cs).length := by
  fun_induction unescape cs with
  | case1 => exact Nat.le_refl 0
  | case2 a b cs m n _ _ ih =>
      have h₁ := length_bytes_cons b cs
      have h₂ := length_bytes_cons a (b :: cs)
      have h₃ := length_bytes_cons '%' (a :: b :: cs)
      rw [List.length_cons]
      omega
  | case3 a b cs _ ih =>
      rw [bytes_cons, List.length_append, List.length_append]
      exact Nat.add_le_add_left ih _
  | case4 c cs _ ih =>
      rw [bytes_cons, List.length_append, List.length_append]
      exact Nat.add_le_add_left ih _

/-- What is escaped stands for fewer bytes than it is written with. -/
theorem length_unescape_lt (h : HasEscape cs) : (unescape cs).length < (bytes cs).length := by
  fun_induction unescape cs with
  | case1 =>
      obtain ⟨before, a, b, after, heq, -⟩ := h
      cases before <;> cases heq
  | case2 a b cs m n _ _ _ =>
      have hcs := length_unescape_le cs
      have h₁ := length_bytes_cons b cs
      have h₂ := length_bytes_cons a (b :: cs)
      have h₃ := length_bytes_cons '%' (a :: b :: cs)
      rw [List.length_cons]
      omega
  | case3 a b cs hnot ih =>
      rcases hasEscape_cons_iff.mp h with hrest | ⟨a', b', rest, -, heq, ha, hb⟩
      · rw [bytes_cons, List.length_append, List.length_append]
        exact Nat.add_lt_add_left (ih hrest) _
      · cases heq
        obtain ⟨m, hm⟩ := Option.isSome_iff_exists.mp ha
        obtain ⟨n, hn⟩ := Option.isSome_iff_exists.mp hb
        exact absurd hn (hnot m n hm)
  | case4 c cs hnot ih =>
      rcases hasEscape_cons_iff.mp h with hrest | ⟨a', b', rest, rfl, rfl, -, -⟩
      · rw [bytes_cons, List.length_append, List.length_append]
        exact Nat.add_lt_add_left (ih hrest) _
      · exact absurd rfl (hnot a' b' rest rfl)

theorem decode?_eq_some_iff :
    decode? cs = some s ↔ unescape cs = bytes s.toList := by
  unfold decode? String.fromUTF8?
  constructor
  · intro h
    split at h
    next hvalid =>
      cases h
      exact List.toByteArray_inj.mp (toByteArray_eq (String.fromUTF8 _ hvalid))
    next => cases h
  · intro h
    rw [h, ← toByteArray_eq]
    exact dif_pos s.isValidUTF8

theorem decode?_toList (h : ¬ HasEscape s.toList) : decode? s.toList = some s :=
  decode?_eq_some_iff.mpr (unescape_eq_bytes h)

/-- What is read from a text is no longer than the text. -/
theorem length_le_of_decode? (h : decode? cs = some s) :
    (bytes s.toList).length ≤ (bytes cs).length := by
  rw [← decode?_eq_some_iff.mp h]
  exact length_unescape_le cs

/-- A text from which as much is read is the text read, and nothing in it is escaped. -/
theorem eq_of_decode? (h : decode? cs = some s)
    (hlength : (bytes cs).length ≤ (bytes s.toList).length) :
    cs = s.toList ∧ ¬ HasEscape cs := by
  have hbytes := decode?_eq_some_iff.mp h
  have hplain : ¬ HasEscape cs := by
    intro hcs
    have hlt := length_unescape_lt hcs
    rw [hbytes] at hlt
    exact Nat.not_lt_of_le hlength hlt
  rw [unescape_eq_bytes hplain] at hbytes
  have heq : String.ofList cs = s := by
    rw [← String.toByteArray_inj, String.toByteArray_ofList, toByteArray_eq, ← hbytes]
    rfl
  refine ⟨?_, hplain⟩
  rw [← heq, String.toList_ofList]

end Checkout.Text
