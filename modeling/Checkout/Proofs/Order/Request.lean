import Checkout.Order.Request
import Mathlib.Data.List.Nodup

/-!
# When a request can be made

Items of an order make a request if there are any, no two of them share an identifier, and their
total can be computed. Of the faults the first in this sequence is reported (`Request.new_of_nil`,
`Request.new_of_repeated`, `Request.new_of_total_error`). Identifiers that occur just once do not
matter for which is the first that is repeated (`Request.firstRepeated_filter`).
-/

namespace Checkout

/-- An item is made of what it is given. -/
theorem Item.eq_of_new {id : ItemId} {order : OrderId} {product : ProductId} {price : Money}
    {quantity : UInt32} {i : Item} (h : Item.new id order product price quantity = .ok i) :
    i.id = id ∧ i.order = order ∧ i.product = product ∧ i.price = price ∧ i.quantity = quantity := by
  unfold Item.new at h
  split at h
  · cases h
    exact ⟨rfl, rfl, rfl, rfl, rfl⟩
  · cases h

namespace Request

open Std.ExtTreeSet (mem_insert)

variable {ids : List ItemId} {seen seen' : IdentifierSet .item} {id : ItemId}

/-! ## Repeated identifiers -/

theorem mem_insert_iff {i : ItemId} : i ∈ seen.insert id ↔ i = id ∨ i ∈ seen := by
  rw [mem_insert, Std.compare_eq_iff_eq, eq_comm]

theorem firstRepeated_eq_none_iff :
    firstRepeated seen ids = none ↔ ids.Nodup ∧ ∀ i ∈ ids, i ∉ seen := by
  refine ⟨nodup_of_firstRepeated, ?_⟩
  rintro ⟨hnodup, hseen⟩
  induction ids generalizing seen with
  | nil => rfl
  | cons i is ih =>
      obtain ⟨hi, hnodup⟩ := List.nodup_cons.mp hnodup
      rw [firstRepeated, if_neg (hseen i List.mem_cons_self)]
      refine ih hnodup fun j hj hmem => ?_
      rcases mem_insert_iff.mp hmem with rfl | hmem
      · exact hi hj
      · exact hseen j (List.mem_cons_of_mem i hj) hmem

/-- The first identifier that is repeated comes behind different ones, and is one of them. -/
theorem firstRepeated_eq_some_iff :
    firstRepeated seen ids = some id ↔ ∃ before after, ids = before ++ id :: after ∧
      before.Nodup ∧ (∀ i ∈ before, i ∉ seen) ∧ (id ∈ seen ∨ id ∈ before) := by
  induction ids generalizing seen with
  | nil =>
      constructor
      · intro h
        cases h
      · rintro ⟨before, after, h, -⟩
        simp at h
  | cons i is ih =>
      rw [firstRepeated]
      by_cases hi : i ∈ seen
      · rw [if_pos hi]
        constructor
        · intro h
          cases h
          exact ⟨[], is, rfl, List.nodup_nil, by simp, .inl hi⟩
        · rintro ⟨_ | ⟨j, before⟩, after, h, -, hseen, -⟩
          · rw [(List.cons.inj h).1]
          · rw [(List.cons.inj h).1] at hi
            exact absurd hi (hseen j List.mem_cons_self)
      · rw [if_neg hi, ih]
        constructor
        · rintro ⟨before, after, rfl, hnodup, hseen, hid⟩
          have hnew : i ∉ before := fun hmem => hseen i hmem (mem_insert_iff.mpr (.inl rfl))
          refine ⟨i :: before, after, rfl, List.nodup_cons.mpr ⟨hnew, hnodup⟩, ?_, ?_⟩
          · intro j hj
            rcases List.mem_cons.mp hj with rfl | hj
            · exact hi
            · exact fun hmem => hseen j hj (mem_insert_iff.mpr (.inr hmem))
          · rw [mem_insert_iff, or_assoc, or_left_comm, ← List.mem_cons] at hid
            exact hid
        · rintro ⟨_ | ⟨j, before⟩, after, h, hnodup, hseen, hid⟩
          · obtain ⟨rfl, rfl⟩ := List.cons.inj h
            simp [hi] at hid
          · obtain ⟨rfl, rfl⟩ := List.cons.inj h
            obtain ⟨hnew, hnodup⟩ := List.nodup_cons.mp hnodup
            refine ⟨before, after, rfl, hnodup, ?_, ?_⟩
            · intro j hj hmem
              rcases mem_insert_iff.mp hmem with rfl | hmem
              · exact hnew hj
              · exact hseen j (List.mem_cons_of_mem i hj) hmem
            · rw [List.mem_cons, or_left_comm] at hid
              rw [mem_insert_iff, or_assoc]
              exact hid

/-- **Identifiers that occur once do not matter** for which is the first that is repeated. -/
theorem firstRepeated_filter (keep : ItemId → Bool)
    (hseen : ∀ i, keep i = true → (i ∈ seen ↔ i ∈ seen'))
    (hnodup : (ids.filter (!keep ·)).Nodup)
    (hnew : ∀ i ∈ ids.filter (!keep ·), i ∉ seen) :
    firstRepeated seen ids = firstRepeated seen' (ids.filter keep) := by
  induction ids generalizing seen seen' with
  | nil => rfl
  | cons i is ih =>
      by_cases hkeep : keep i = true
      · rw [List.filter_cons_of_neg (by simp [hkeep])] at hnodup hnew
        rw [List.filter_cons_of_pos hkeep, firstRepeated, firstRepeated]
        simp only [hseen i hkeep]
        split
        · rfl
        · refine ih ?_ hnodup ?_
          · intro j hj
            rw [mem_insert_iff, mem_insert_iff, hseen j hj]
          · intro j hj hmem
            rcases mem_insert_iff.mp hmem with rfl | hmem
            · simp [hkeep] at hj
            · exact hnew j hj hmem
      · rw [List.filter_cons_of_pos (by simp [hkeep])] at hnodup hnew
        obtain ⟨hi, hnodup⟩ := List.nodup_cons.mp hnodup
        rw [List.filter_cons_of_neg hkeep, firstRepeated, if_neg (hnew i List.mem_cons_self)]
        refine ih ?_ hnodup ?_
        · intro j hj
          have hne : j ≠ i := fun heq => hkeep (heq ▸ hj)
          rw [mem_insert_iff, ← hseen j hj, or_iff_right hne]
        · intro j hj hmem
          rcases mem_insert_iff.mp hmem with rfl | hmem
          · exact hi hj
          · exact hnew j (List.mem_cons_of_mem i hj) hmem

/-! ## Making a request -/

variable {header : Header} {items : List Item} {trace : Uuid} {r : Request} {fault : MoneyFault}
  {whole : Money}

/-- A request is made of what it is given. -/
theorem eq_of_new (h : new header items trace = .ok r) :
    r.header = header ∧ r.items = items ∧ r.trace = trace := by
  unfold new at h
  split at h
  · cases h
  · split at h
    · cases h
    · split at h
      · cases h
      · split at h
        · cases h
        · cases h
          exact ⟨rfl, rfl, rfl⟩

theorem new_of_nil (header : Header) (trace : Uuid) :
    new header [] trace = .error (.invalidRequest .noItems) := rfl

section

variable (hown : ∀ i ∈ items, i.order = header.id)

include hown

/-- What comes of items that are all of the order. -/
theorem new_cases (hne : items ≠ []) (trace : Uuid) :
    (∃ id, firstRepeated ∅ (items.map (·.id)) = some id ∧
        new header items trace = .error (.invalidRequest (.repeatedItem id))) ∨
      (items.map (·.id)).Nodup ∧
        ((∃ fault, Item.total items = .error fault ∧
            new header items trace = .error (.invalidValue fault)) ∨
          ∃ whole, Item.total items = .ok whole ∧ ∃ r, new header items trace = .ok r) := by
  have hforeign : items.find? (·.order ≠ header.id) = none := by
    rw [List.find?_eq_none]
    intro i hi
    simpa using hown i hi
  unfold new
  rw [dif_neg hne]
  split
  next hsome => cases hforeign.symm.trans hsome
  next =>
    split
    next id hid => exact .inl ⟨id, hid, rfl⟩
    next hnone =>
      refine .inr ⟨(nodup_of_firstRepeated hnone).1, ?_⟩
      split
      next fault hfault => exact .inl ⟨fault, hfault, rfl⟩
      next whole hwhole => exact .inr ⟨whole, hwhole, _, rfl⟩

theorem new_of_repeated (hrepeated : firstRepeated ∅ (items.map (·.id)) = some id)
    (trace : Uuid) :
    new header items trace = .error (.invalidRequest (.repeatedItem id)) := by
  have hne : items ≠ [] := by
    rintro rfl
    cases hrepeated
  rcases new_cases hown hne trace with ⟨id', hid', hnew⟩ | ⟨hnodup, -⟩
  · cases hrepeated.symm.trans hid'
    exact hnew
  · cases hrepeated.symm.trans (firstRepeated_eq_none_iff.mpr ⟨hnodup, by simp⟩)

theorem new_of_nodup (hne : items ≠ []) (hnodup : (items.map (·.id)).Nodup) (trace : Uuid) :
    (∃ fault, Item.total items = .error fault ∧
        new header items trace = .error (.invalidValue fault)) ∨
      ∃ whole, Item.total items = .ok whole ∧ ∃ r, new header items trace = .ok r := by
  rcases new_cases hown hne trace with ⟨id, hid, -⟩ | ⟨-, hcases⟩
  · cases hid.symm.trans (firstRepeated_eq_none_iff.mpr ⟨hnodup, by simp⟩)
  · exact hcases

theorem new_of_total_error (hne : items ≠ []) (hnodup : (items.map (·.id)).Nodup)
    (htotal : Item.total items = .error fault) (trace : Uuid) :
    new header items trace = .error (.invalidValue fault) := by
  rcases new_of_nodup hown hne hnodup trace with ⟨fault', hfault', hnew⟩ | ⟨whole, hwhole, -⟩
  · cases htotal.symm.trans hfault'
    exact hnew
  · cases htotal.symm.trans hwhole

/-- **Items make a request** if none of the faults is there. -/
theorem exists_new (hne : items ≠ []) (hnodup : (items.map (·.id)).Nodup)
    (htotal : Item.total items = .ok whole) (trace : Uuid) :
    ∃ r, new header items trace = .ok r := by
  rcases new_of_nodup hown hne hnodup trace with ⟨fault, hfault, -⟩ | ⟨-, -, hnew⟩
  · cases htotal.symm.trans hfault
  · exact hnew

end

end Request

end Checkout
