import Checkout.Identifier
import Checkout.Proofs.Text.Digits

/-!
# Reading identifiers back

An identifier is read from its own text (`ofString?_toString`), so different identifiers have
different texts.
-/

namespace Checkout

namespace Uuid

theorem ofHexDigits?_hexDigits (u : Uuid) : ofHexDigits? u.hexDigits = some u := by
  have hlt : u.value < 16 ^ 32 := u.value_lt
  unfold ofHexDigits? hexDigits
  rw [if_pos (Text.length_fixed _ _ _), Text.ofDigits?_fixed (by decide) (by decide),
    Nat.mod_eq_of_lt hlt]
  exact dif_pos u.value_lt

theorem ofHyphenated?_groups {a b c d e : List Char} (ha : a.length = 8) (hb : b.length = 4)
    (hc : c.length = 4) (hd : d.length = 4) :
    ofHyphenated? (a ++ '-' :: b ++ '-' :: c ++ '-' :: d ++ '-' :: e) =
      ofHexDigits? (a ++ b ++ c ++ d ++ e) := by
  unfold ofHyphenated?
  rw [if_pos]
  · simp (disch := omega) [List.drop_append, List.drop_of_length_le, ha, hb, hc, hd]
  · simp [List.getElem?_append, ha, hb, hc, hd]

/-- Hyphens are put in where they are looked for. -/
theorem ofHyphenated?_hyphenate {cs : List Char} (h : cs.length = 32) :
    ofHyphenated? (hyphenate cs) = ofHexDigits? cs := by
  unfold hyphenate
  rw [ofHyphenated?_groups (by simp [h]) (by simp [h]) (by simp [h]) (by simp [h])]
  congr 1
  have hrest (i j : Nat) : (cs.drop i).take j ++ cs.drop (i + j) = cs.drop i := by
    rw [← List.drop_drop, List.take_append_drop]
  rw [List.append_assoc, List.append_assoc, List.append_assoc, hrest 16 4, hrest 12 4, hrest 8 4,
    List.take_append_drop]

/-- **A UUID is read from its own text.** -/
theorem ofString?_toString (u : Uuid) : ofString? u.toString = some u := by
  have hlength : u.hexDigits.length = 32 := Text.length_fixed _ _ _
  have hlong : ofHexDigits? (hyphenate u.hexDigits) = none := by
    unfold ofHexDigits?
    rw [if_neg]
    simp [hyphenate, hlength]
  unfold ofString? toString
  rw [String.toList_ofList]
  dsimp only
  rw [hlong, ofHyphenated?_hyphenate hlength, ofHexDigits?_hexDigits]
  rfl

end Uuid

namespace Identifier

variable {kind : Kind}

theorem ofString?_toString (id : Identifier kind) : ofString? (toString id) = some id := by
  unfold ofString?
  rw [show toString id = id.uuid.toString from rfl, Uuid.ofString?_toString]
  rfl

theorem toString_injective : Function.Injective (toString : Identifier kind → String) := by
  intro a b h
  have hread := congrArg (fun s => (ofString? s : Option (Identifier kind))) h
  rw [ofString?_toString, ofString?_toString] at hread
  exact Option.some.inj hread

end Identifier

end Checkout
