import Checkout.Json.Record

/-!
# What is read is no larger than its text

Every token takes at least one symbol of the text (`length_tokens_le`), and every token adds at most
one value to the draft that is built (`Step.size_of_le`). So a draft holds at most one value more
than its text has symbols (`Draft.size_read_le`): the one more is the fault where a text breaks off
behind a colon. Records are read field by field, and what every field keeps of a draft so large, the
record keeps (`Draft.of_asRecord`).
-/

namespace Checkout

/-- What succeeds as a whole succeeds in its first part. -/
theorem ok_of_bind {ε α β : Type} {x : Except ε α} {f : α → Except ε β} {b : β}
    (h : x >>= f = .ok b) : ∃ a, x = .ok a ∧ f a = .ok b := by
  cases x with
  | error e => cases h
  | ok a => exact ⟨a, rfl, h⟩

theorem bind_eq_ok_iff {ε α β : Type} {x : Except ε α} {f : α → Except ε β} {b : β} :
    x >>= f = .ok b ↔ ∃ a, x = .ok a ∧ f a = .ok b := by
  refine ⟨ok_of_bind, ?_⟩
  rintro ⟨a, rfl, hf⟩
  exact hf

/-- All parts of a list succeed if each of them does. -/
theorem mapM_ok {ε α β γ : Type} {f : β → Except ε γ} (write : α → β) (g : α → γ) {as : List α}
    (h : ∀ a ∈ as, f (write a) = .ok (g a)) : (as.map write).mapM f = .ok (as.map g) := by
  induction as with
  | nil => rfl
  | cons a as ih =>
      rw [List.map_cons, List.mapM_cons, h a List.mem_cons_self,
        ih fun b hb => h b (List.mem_cons_of_mem _ hb)]
      rfl

namespace Text

/-! ## Symbols -/

theorem length_toListLoop (bytes : ByteArray) (i : Nat) (read : List UInt8) :
    (ByteArray.toList.loop bytes i read).length = bytes.size - i + read.length := by
  fun_induction ByteArray.toList.loop bytes i read with
  | case1 i read hlt ih =>
      rw [ih, List.length_cons]
      omega
  | case2 i read hge =>
      rw [List.length_reverse]
      omega

theorem length_toList (bytes : ByteArray) : bytes.toList.length = bytes.size :=
  length_toListLoop bytes 0 []

theorem length_symbolsFrom_le (read : List (Option Char)) (skip : Nat) (bytes : List UInt8) :
    (symbolsFrom read skip bytes).length ≤ read.length + bytes.length := by
  induction bytes generalizing read skip with
  | nil => simp [symbolsFrom]
  | cons b bytes ih =>
      cases skip with
      | succ skip => exact Nat.le_trans (ih read skip) (by simp)
      | zero =>
          simp only [symbolsFrom]
          split
          next c more _ => exact Nat.le_trans (ih (some c :: read) more) (by simp; omega)
          next => exact Nat.le_trans (ih (none :: read) 0) (by simp; omega)

theorem length_symbols_le (bytes : List UInt8) : (symbols bytes).length ≤ bytes.length := by
  simpa [symbols] using length_symbolsFrom_le [] 0 bytes

end Text

namespace Json

/-! ## Tokens -/

theorem Token.length_tokensFrom_le (read : List Token) (cs : List Symbol) :
    (tokensFrom read cs).length ≤ read.length + cs.length := by
  fun_induction tokensFrom read cs with
  | case1 read cs hskip => simp
  | case2 read cs s rest hskip t after htoken ih =>
      have hspace := length_skipSpace_le cs
      have hafter := length_le_of_token htoken
      rw [hskip, List.length_cons] at hspace
      rw [List.length_cons] at ih
      omega
  | case3 read cs s rest hskip htoken =>
      have hspace := length_skipSpace_le cs
      rw [hskip, List.length_cons] at hspace
      simp only [List.length_reverse, List.length_cons]
      omega

/-- **There are no more tokens than symbols.** -/
theorem length_tokens_le (text : List Symbol) : (tokens text).length ≤ text.length := by
  simpa [tokens] using Token.length_tokensFrom_le [] text

/-! ## Drafts -/

namespace Draft

mutual

/-- How many values a draft holds, itself included. -/
def size : Draft → Nat
  | .array items _ => sizeItems items + 1
  | .object members _ => sizeMembers members + 1
  | _ => 1

/-- How many values the items of an array hold. -/
def sizeItems : List Draft → Nat
  | [] => 0
  | d :: ds => size d + sizeItems ds

/-- How many values the members of an object hold. -/
def sizeMembers : List (Option String × Draft) → Nat
  | [] => 0
  | (_, d) :: ms => size d + sizeMembers ms

end

@[simp] theorem size_array (items : List Draft) (closed : Bool) :
    (array items closed).size = sizeItems items + 1 := by simp [size]

@[simp] theorem size_object (members : List (Option String × Draft)) (closed : Bool) :
    (object members closed).size = sizeMembers members + 1 := by simp [size]

theorem size_pos (d : Draft) : 0 < d.size := by
  cases d <;> simp [size]

@[simp] theorem sizeItems_cons (d : Draft) (ds : List Draft) :
    sizeItems (d :: ds) = d.size + sizeItems ds := by simp [sizeItems]

@[simp] theorem sizeMembers_cons (m : Option String × Draft) (ms : List (Option String × Draft)) :
    sizeMembers (m :: ms) = m.2.size + sizeMembers ms := by simp [sizeMembers]

theorem sizeItems_append (ds es : List Draft) :
    sizeItems (ds ++ es) = sizeItems ds + sizeItems es := by
  induction ds with
  | nil => simp [sizeItems]
  | cons d ds ih => simp [ih, Nat.add_assoc]

theorem sizeMembers_append (ms ns : List (Option String × Draft)) :
    sizeMembers (ms ++ ns) = sizeMembers ms + sizeMembers ns := by
  induction ms with
  | nil => simp [sizeMembers]
  | cons m ms ih => simp [ih, Nat.add_assoc]

@[simp] theorem sizeItems_reverse (ds : List Draft) : sizeItems ds.reverse = sizeItems ds := by
  induction ds with
  | nil => rfl
  | cons d ds ih => simp [sizeItems_append, ih, sizeItems, Nat.add_comm]

@[simp] theorem sizeMembers_reverse (ms : List (Option String × Draft)) :
    sizeMembers ms.reverse = sizeMembers ms := by
  induction ms with
  | nil => rfl
  | cons m ms ih => simp [sizeMembers_append, ih, sizeMembers, Nat.add_comm]

theorem length_le_sizeItems (ds : List Draft) : ds.length ≤ sizeItems ds := by
  induction ds with
  | nil => simp
  | cons d ds ih =>
      have hd := d.size_pos
      simp only [List.length_cons, sizeItems_cons]
      omega

theorem size_le_of_mem_items {d : Draft} {ds : List Draft} (h : d ∈ ds) :
    d.size ≤ sizeItems ds := by
  induction ds with
  | nil => cases h
  | cons d' ds ih =>
      rw [sizeItems_cons]
      rcases List.mem_cons.mp h with rfl | h
      · omega
      · have := ih h
        omega

theorem size_le_of_mem_members {m : Option String × Draft} {ms : List (Option String × Draft)}
    (h : m ∈ ms) : m.2.size ≤ sizeMembers ms := by
  induction ms with
  | nil => cases h
  | cons m' ms ih =>
      rw [sizeMembers_cons]
      rcases List.mem_cons.mp h with rfl | h
      · omega
      · have := ih h
        omega

/-! ## Building drafts -/

namespace Frame

/-- How many values an open container holds so far, itself included. -/
def size : Frame → Nat
  | .array items => sizeItems items + 1
  | .object members | .member members _ => sizeMembers members + 1

theorem size_push_le (value : Draft) (f : Frame) : (f.push value).size ≤ f.size + value.size := by
  cases f with
  | array items => simp [push, size]; omega
  | object members => simp [push, size]
  | member members key => simp [push, size]; omega

/-- A member whose value is still to come gets a fault in its place. -/
theorem size_unclosed_le (f : Frame) : f.unclosed.size ≤ f.size + 1 := by
  cases f with
  | array items => simp [unclosed, size]
  | object members => simp [unclosed, size]
  | member members key => simp [unclosed, size, Draft.size, -List.reverse_cons]; omega

theorem size_unclosed_push_le (value : Draft) (f : Frame) :
    (f.push value).unclosed.size ≤ f.size + value.size := by
  cases f with
  | array items => simp [push, unclosed, size, -List.reverse_cons]; omega
  | object members => simp [push, unclosed, size]
  | member members key => simp [push, unclosed, size, -List.reverse_cons]; omega

end Frame

/-- How many values the open containers hold so far. -/
def sizeFrames : List Frame → Nat
  | [] => 0
  | f :: fs => f.size + sizeFrames fs

@[simp] theorem sizeFrames_cons (f : Frame) (fs : List Frame) :
    sizeFrames (f :: fs) = f.size + sizeFrames fs := rfl

theorem size_breakOffIn_le (inner : Draft) (frames : List Frame) :
    (breakOffIn inner frames).size ≤ inner.size + sizeFrames frames := by
  induction frames generalizing inner with
  | nil => exact Nat.le_refl _
  | cons f fs ih =>
      have hrest := ih (f.push inner).unclosed
      have hpush := f.size_unclosed_push_le inner
      rw [sizeFrames_cons]
      exact Nat.le_trans hrest (by omega)

theorem size_breakOff_le (frames : List Frame) :
    (breakOff frames).size ≤ sizeFrames frames + 1 := by
  cases frames with
  | nil => simp [breakOff, size]
  | cons f fs =>
      have hrest := size_breakOffIn_le f.unclosed fs
      have hunclosed := f.size_unclosed_le
      rw [sizeFrames_cons]
      exact Nat.le_trans hrest (by omega)

namespace Step

/-- How many values there are after a step. -/
def size : Step → Nat
  | .whole value => value.size
  | .next _ frames => sizeFrames frames
  | .fault => 0

theorem size_complete_le (value : Draft) (frames : List Frame) :
    (complete value frames).size ≤ value.size + sizeFrames frames := by
  cases frames with
  | nil => exact Nat.le_refl _
  | cons f fs =>
      have hpush := f.size_push_le value
      simp only [complete, size, sizeFrames_cons]
      omega

theorem size_begin_le (frames : List Frame) (t : Token) :
    (begin frames t).size ≤ sizeFrames frames + 1 := by
  -- a token that stands for a value completes one of size one
  have hcomplete : ∀ value : Draft, value.size = 1 →
      (complete value frames).size ≤ sizeFrames frames + 1 := by
    intro value hvalue
    have := size_complete_le value frames
    omega
  cases t with
  | null => exact hcomplete .null (by simp [Draft.size])
  | bool b => exact hcomplete (.bool b) (by simp [Draft.size])
  | number n => exact hcomplete (.number n) (by simp [Draft.size])
  | string s => exact hcomplete (.string s) (by simp [Draft.size])
  | openArray => simp [begin, size, Frame.size, sizeItems]; omega
  | openObject => simp [begin, size, Frame.size, sizeMembers]; omega
  | _ => simp [begin, size]

/-- **A token adds at most one value.** -/
theorem size_of_le (e : Expectation) (t : Token) (frames : List Frame) :
    (Step.of e t frames).size ≤ sizeFrames frames + 1 := by
  -- a container that is closed is as large as it was open
  have hclose : ∀ (value : Draft) (f : Frame) (fs : List Frame), value.size = f.size →
      (complete value fs).size ≤ sizeFrames (f :: fs) + 1 := by
    intro value f fs hvalue
    have := size_complete_le value fs
    rw [sizeFrames_cons]
    omega
  fun_cases Step.of e t frames with
  | case1 items fs => exact hclose _ (.array items) fs (by simp [Frame.size])
  | case2 => exact size_begin_le frames t
  | case3 => exact size_begin_le frames t
  | case4 members fs => exact hclose _ (.object members) fs (by simp [Frame.size])
  | case10 items fs => exact hclose _ (.array items) fs (by simp [Frame.size])
  | case11 members fs => exact hclose _ (.object members) fs (by simp [Frame.size])
  | _ => simp [size, Frame.size]

end Step

theorem size_build_le (e : Expectation) (frames : List Frame) (ts : List Token) :
    (build e frames ts).1.size ≤ sizeFrames frames + ts.length + 1 := by
  induction ts generalizing e frames with
  | nil => exact size_breakOff_le frames
  | cons t ts ih =>
      have hstep := Step.size_of_le e t frames
      have hbreak := size_breakOff_le frames
      rw [List.length_cons]
      unfold build
      split
      next value heq =>
        rw [heq] at hstep
        have hvalue : value.size ≤ sizeFrames frames + 1 := hstep
        dsimp only
        omega
      next e' frames' heq =>
        rw [heq] at hstep
        have hframes : sizeFrames frames' ≤ sizeFrames frames + 1 := hstep
        have := ih e' frames'
        omega
      next => dsimp only; omega

/-- **A draft is no larger than its text**, but for the fault where the text breaks off. -/
theorem size_read_le (text : List Symbol) : (read text).1.size ≤ text.length + 1 := by
  have hbuild := size_build_le .value [] (tokens text)
  have htokens := length_tokens_le text
  simp only [sizeFrames] at hbuild
  exact Nat.le_trans hbuild (by omega)

/-! ## Reading drafts -/

variable {ρ α : Type}

theorem length_of_mapM {β : Type} {read : α → Except ReadFault β} {as : List α} {bs : List β}
    (h : as.mapM read = .ok bs) : bs.length = as.length := by
  induction as generalizing bs with
  | nil =>
      cases h
      rfl
  | cons a as ih =>
      rw [List.mapM_cons] at h
      obtain ⟨b, -, h⟩ := ok_of_bind h
      obtain ⟨rest, hrest, h⟩ := ok_of_bind h
      cases h
      simp [ih hrest]

/-- A list that is read is no longer than its draft is large. -/
theorem length_of_asList {read : Draft → Except ReadFault α} {d : Draft} {values : List α}
    (h : asList read d = .ok values) : values.length ≤ d.size := by
  cases d with
  | array items closed =>
      obtain ⟨all, hmap, h⟩ := ok_of_bind h
      cases closed with
      | false => cases h
      | true =>
          cases h
          have hle := length_le_sizeItems items
          rw [length_of_mapM hmap, size_array]
          omega
  | _ => cases h

/-- The fields keep a property of the record, if they are read from drafts of at most this size. -/
def FieldsKeep (fields : List (RecordField ρ)) (bound : Nat) (P : ρ → Prop) : Prop :=
  ∀ f ∈ fields, ∀ {r r' : ρ} {d : Draft}, P r → d.size ≤ bound → f.read r d = .ok r' → P r'

namespace FieldsKeep

variable {fields : List (RecordField ρ)} {bound : Nat} {P : ρ → Prop}

theorem readMember (h : FieldsKeep fields bound P) {r r' : ρ} {m : Option String × Draft}
    (hr : P r) (hm : m.2.size ≤ bound) (hread : Draft.readMember fields r m = .ok r') : P r' := by
  unfold Draft.readMember at hread
  split at hread
  · cases hread
  · split at hread
    · split at hread
      · cases hread
        exact hr
      · cases hread
    next f hfind =>
      split at hread
      · cases hread
      · exact h f (List.mem_of_find?_eq_some hfind) hr hm hread

theorem readMembers (h : FieldsKeep fields bound P) {r r' : ρ}
    {members : List (Option String × Draft)} (hr : P r)
    (hsize : ∀ m ∈ members, m.2.size ≤ bound)
    (hread : members.foldlM (Draft.readMember fields) r = .ok r') : P r' := by
  induction members generalizing r with
  | nil =>
      cases hread
      exact hr
  | cons m members ih =>
      rw [List.foldlM_cons] at hread
      obtain ⟨next, hnext, hread⟩ := ok_of_bind hread
      have hkept := h.readMember hr (hsize m List.mem_cons_self) hnext
      exact ih hkept (fun m' hm' => hsize m' (List.mem_cons_of_mem m hm')) hread

theorem readItems (h : FieldsKeep fields bound P) {closed : Bool} {r r' : ρ} {items : List Draft}
    (hr : P r) (hsize : ∀ d ∈ items, d.size ≤ bound)
    (hread : Draft.readItems closed fields items r = .ok r') : P r' := by
  induction fields generalizing r items with
  | nil =>
      cases items with
      | nil =>
          cases closed with
          | false => cases hread
          | true =>
              cases hread
              exact hr
      | cons d items => cases hread
  | cons f fields ih =>
      cases items with
      | nil => cases hread
      | cons d items =>
          obtain ⟨next, hnext, hread⟩ := ok_of_bind hread
          have hkept := h f List.mem_cons_self hr (hsize d List.mem_cons_self) hnext
          exact ih (fun f' hf' => h f' (List.mem_cons_of_mem f hf')) hkept
            (fun d' hd' => hsize d' (List.mem_cons_of_mem d hd')) hread

end FieldsKeep

/-- **What every field keeps, a record keeps** that is read from a draft of at most this size. -/
theorem of_asRecord {fields : List (RecordField ρ)} {bound : Nat} {P : ρ → Prop} {empty : ρ}
    {complete? : ρ → Option α} {d : Draft} {a : α} (hkeep : FieldsKeep fields bound P)
    (hempty : P empty) (hsize : d.size ≤ bound)
    (h : asRecord fields empty complete? d = .ok a) : ∃ r, P r ∧ complete? r = some a := by
  have hcomplete : ∀ {r : ρ}, (complete? r).elim (throw .mismatched) pure =
      (.ok a : Except ReadFault α) → complete? r = some a := by
    intro r hr
    cases hresult : complete? r with
    | none =>
        rw [hresult] at hr
        cases hr
    | some a' =>
        rw [hresult] at hr
        cases hr
        rfl
  cases d with
  | object members closed =>
      rw [size_object] at hsize
      obtain ⟨r, hread, h⟩ := ok_of_bind h
      cases closed with
      | false => cases h
      | true =>
          refine ⟨r, hkeep.readMembers hempty (fun m hm => ?_) hread, hcomplete h⟩
          exact Nat.le_trans (size_le_of_mem_members hm) (by omega)
  | array items closed =>
      rw [size_array] at hsize
      obtain ⟨r, hread, h⟩ := ok_of_bind h
      refine ⟨r, hkeep.readItems hempty (fun d hd => ?_) hread, hcomplete h⟩
      exact Nat.le_trans (size_le_of_mem_items hd) (by omega)
  | _ => cases h

end Draft

end Json

end Checkout
