import Checkout.Proofs.Decimal.Text
import Checkout.Proofs.Json.Respelling
import Checkout.Proofs.Text.Identifier
import Checkout.Proofs.Time.Text

/-!
# Reading fields back

A field is read from the JSON that its value is written as: identifiers, times and decimals from
their texts, numbers below the bound of the field, what may be missing from null, and lists from
their items. So a record is read from an object by going through its members
(`foldlM_cons_of_takes`), and from a text if the text is that of the object (`readWhole_toString`).
-/

namespace Checkout.Json.Draft

variable {α β ρ : Type}

/-! ## Values -/

theorem asText_string {read? : String → Option α} {s : String} {a : α} (h : read? s = some a) :
    asText read? (.string (some s)) = .ok a := by
  unfold asText
  refine bind_eq_ok_iff.mpr ⟨s, rfl, ?_⟩
  rw [h]
  rfl

theorem asUuid_toString (u : Uuid) : asUuid (.string (some u.toString)) = .ok u :=
  asText_string u.ofString?_toString

theorem asTimestamp_toString (t : Timestamp) : asTimestamp (.string (some t.toString)) = .ok t :=
  asText_string t.ofString?_toString

theorem asDecimal_toString (d : Decimal) :
    asDecimal (.string (some d.toString)) = .ok d.unsignZero :=
  asText_string d.ofString?_toString

theorem asNat_nat {n bound : Nat} (hn : n < bound) (hbound : bound ≤ UInt64.size) :
    asNat bound (Json.nat n).draft = .ok n := by
  have hvalue : (Number.ofNat n).value? = some (.unsigned n) := by
    have hwhole : (Number.ofNat n).wholeValue? = some (.unsigned n) := by
      show (Text.extendBelow? 10 UInt64.size 0 (digitsOf n)).map _ = _
      rw [extendBelow?_digitsOf (Nat.lt_of_lt_of_le hn hbound)]
      rfl
    unfold Number.value?
    rw [hwhole]
    rfl
  have hnat : (NumberValue.unsigned n).toNat? bound = some n := if_pos hn
  show asNat bound (.number (Number.ofNat n)) = _
  unfold asNat
  dsimp only
  rw [hvalue]
  dsimp only
  rw [hnat]
  rfl

/-- What may be missing is read from a text, or from null. -/
theorem asOption_getD {read : Draft → Except ReadFault α} {text : α → String}
    (h : ∀ a, read (.string (some (text a))) = .ok a) (o : Option α) :
    asOption read ((o.map fun a => Json.string (text a)).getD .null).draft = .ok o := by
  cases o with
  | none => rfl
  | some a =>
      show (read (.string (some (text a)))).map some = _
      rw [h]
      rfl

theorem asList_map {read : Draft → Except ReadFault β} {write : α → Json} {g : α → β}
    {as : List α} (h : ∀ a ∈ as, read (write a).draft = .ok (g a)) :
    asList read (Json.array (as.map write)).draft = .ok (as.map g) := by
  have hall := mapM_ok (fun a => (write a).draft) g h
  show ((itemDrafts (as.map write)).mapM read >>= _) = _
  rw [itemDrafts_eq, List.map_map]
  exact bind_eq_ok_iff.mpr ⟨_, hall, rfl⟩

/-- An item of a list may be replaced by another that is read as the same. -/
theorem asList_within {read : Draft → Except ReadFault α} {x x' : Json}
    (h : ∀ {a}, read x.draft = .ok a → read x'.draft = .ok a) (before after : List Json)
    {as : List α} (hread : asList read (Json.array (before ++ x :: after)).draft = .ok as) :
    asList read (Json.array (before ++ x' :: after)).draft = .ok as := by
  obtain ⟨as', hall, has⟩ := ok_of_bind hread
  refine bind_eq_ok_iff.mpr ⟨as', ?_, has⟩
  rw [itemDrafts_eq, List.map_append, List.map_cons, List.mapM_append] at hall ⊢
  obtain ⟨first, hfirst, hall⟩ := ok_of_bind hall
  refine bind_eq_ok_iff.mpr ⟨first, hfirst, ?_⟩
  obtain ⟨rest, hrest, hall⟩ := ok_of_bind hall
  rw [List.mapM_cons] at hrest
  obtain ⟨a, ha, hrest⟩ := ok_of_bind hrest
  refine bind_eq_ok_iff.mpr ⟨rest, ?_, hall⟩
  rw [List.mapM_cons]
  exact bind_eq_ok_iff.mpr ⟨a, h ha, hrest⟩

/-! ## Texts -/

/-- Reads a text that is one thing and nothing else. -/
def readWhole (read : Draft → Except ReadFault α) (text : List Symbol) : Except ReadFault α := do
  let (draft, isWhole) := Draft.read text
  let a ← read draft
  if isWhole then return a else throw .malformed

/-- What the draft of a value is read as is read from the text of the value. -/
theorem readWhole_toString {read : Draft → Except ReadFault α} {j : Json} {a : α}
    (hj : j.IsProper) (h : read j.draft = .ok a) :
    readWhole read (j.toString.toList.map some) = .ok a := by
  unfold readWhole
  rw [read_toString hj]
  exact bind_eq_ok_iff.mpr ⟨a, h, rfl⟩

/-! ## Members of records -/

variable {fields : List (RecordField ρ)} {r r₁ r' : ρ}

/-- The first member is read, and then the others. -/
theorem foldlM_cons_of_takes {m : Option String × Draft} {ms : List (Option String × Draft)}
    (h : Takes fields r m r₁) (hrest : ms.foldlM (readMember fields) r₁ = .ok r') :
    (m :: ms).foldlM (readMember fields) r = .ok r' := by
  rw [List.foldlM_cons, readMember_eq_ok_iff.mpr h]
  exact hrest

/-- A member is read into the place of its field. -/
theorem Takes.of {name : String} {read : Draft → Except ReadFault α} {get : ρ → Option α}
    {put : ρ → α → ρ} {d : Draft} {a : α}
    (hfind : fields.find? (·.name = name) = some (.of name read get put))
    (hnew : (get r).isSome = false) (h : read d = .ok a) :
    Takes fields r (some name, d) (put r a) :=
  .known rfl hfind hnew (read_of_eq_ok.mpr ⟨a, h, rfl⟩)

end Checkout.Json.Draft
