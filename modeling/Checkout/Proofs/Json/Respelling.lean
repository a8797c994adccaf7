import Checkout.Json.Record
import Checkout.Proofs.Json.Size
import Checkout.Proofs.Json.Text
import Mathlib.Data.List.Pairwise

/-!
# Objects that say the same

An object says the same when its members stand in another sequence, when a member that is null is
left out, and when a member is put in that nobody knows (`Respells`). A record is read from all
objects that say the same, if it is read from one of them (`Draft.asRecord_respells`): its fields can
be read in any sequence (`Draft.Lawful`), and null makes no difference to a field that may be left
out.
-/

namespace Checkout.Json

/-- Respells an object whose known members have the given names. Inside a member, something else may
be respelled. -/
inductive Respells (names : List String) (inside : String → Json → Json → Prop) :
    Json → Json → Prop where
  | permute {ms ms' : List (String × Json)} (h : ms.Perm ms') :
      Respells names inside (.object ms) (.object ms')
  | drop (name : String) (before after : List (String × Json)) :
      Respells names inside (.object (before ++ (name, .null) :: after))
        (.object (before ++ after))
  | add {name : String} {value : Json} (hname : name ∉ names) (hvalue : value.IsProper)
      (before after : List (String × Json)) :
      Respells names inside (.object (before ++ after))
        (.object (before ++ (name, value) :: after))
  | within {name : String} {value value' : Json} (h : inside name value value')
      (before after : List (String × Json)) :
      Respells names inside (.object (before ++ (name, value) :: after))
        (.object (before ++ (name, value') :: after))

/-! ## Values in containers -/

theorem itemsProper_iff {items : List Json} : ItemsProper items ↔ ∀ j ∈ items, j.IsProper := by
  induction items with
  | nil => exact ⟨fun _ _ hj => (nomatch hj), fun _ => trivial⟩
  | cons j js ih => exact (and_congr_right' ih).trans List.forall_mem_cons.symm

theorem membersProper_iff {members : List (String × Json)} :
    MembersProper members ↔ ∀ m ∈ members, m.2.IsProper := by
  induction members with
  | nil => exact ⟨fun _ _ hm => (nomatch hm), fun _ => trivial⟩
  | cons m ms ih =>
      rw [List.forall_mem_cons, ← ih]
      rfl

theorem itemDrafts_eq (items : List Json) : itemDrafts items = items.map draft := by
  induction items with
  | nil => rfl
  | cons j js ih => exact congrArg (draft j :: ·) ih

theorem memberDrafts_eq (members : List (String × Json)) :
    memberDrafts members = members.map fun m => (some m.1, m.2.draft) := by
  induction members with
  | nil => rfl
  | cons m ms ih => exact congrArg ((some m.1, m.2.draft) :: ·) ih

/-- What is respelled stays proper. -/
theorem Respells.isProper {names : List String} {inside : String → Json → Json → Prop}
    (hinside : ∀ {name value value'}, inside name value value' → value.IsProper →
      value'.IsProper) {j j' : Json} (h : Respells names inside j j') (hj : j.IsProper) :
    j'.IsProper := by
  cases h with
  | permute h =>
      exact membersProper_iff.mpr fun m hm => membersProper_iff.mp hj m (h.mem_iff.mpr hm)
  | drop name before after =>
      refine membersProper_iff.mpr fun m hm => membersProper_iff.mp hj m ?_
      rcases List.mem_append.mp hm with hm | hm
      · exact List.mem_append_left _ hm
      · exact List.mem_append_right _ (List.mem_cons_of_mem _ hm)
  | add hname hvalue before after =>
      have hall := membersProper_iff.mp hj
      rw [List.forall_mem_append] at hall
      exact membersProper_iff.mpr
        (List.forall_mem_append.mpr ⟨hall.1, List.forall_mem_cons.mpr ⟨hvalue, hall.2⟩⟩)
  | within h before after =>
      have hall := membersProper_iff.mp hj
      rw [List.forall_mem_append, List.forall_mem_cons] at hall
      exact membersProper_iff.mpr
        (List.forall_mem_append.mpr
          ⟨hall.1, List.forall_mem_cons.mpr ⟨hinside h hall.2.1, hall.2.2⟩⟩)

namespace Draft

variable {ρ α β : Type} {fields : List (RecordField ρ)} {r r' : ρ}

/-! ## Fields in any sequence -/

/-- It does not matter which of the two fields is read first. -/
structure Apart (f g : RecordField ρ) : Prop where
  name : f.name ≠ g.name
  comm : ∀ {r r₁ r₂ : ρ} {d e : Draft}, f.read r d = .ok r₁ → g.read r₁ e = .ok r₂ →
    ∃ r₃, g.read r e = .ok r₃ ∧ f.read r₃ d = .ok r₂
  comm' : ∀ {r r₁ r₂ : ρ} {d e : Draft}, g.read r e = .ok r₁ → f.read r₁ d = .ok r₂ →
    ∃ r₃, f.read r d = .ok r₃ ∧ g.read r₃ e = .ok r₂
  isRead : ∀ {r r₁ : ρ} {d : Draft}, f.read r d = .ok r₁ → g.isRead r₁ = g.isRead r
  isRead' : ∀ {r r₁ : ρ} {e : Draft}, g.read r e = .ok r₁ → f.isRead r₁ = f.isRead r

theorem Apart.symm {f g : RecordField ρ} (h : Apart f g) : Apart g f :=
  ⟨h.name.symm, h.comm', h.comm, h.isRead', h.isRead⟩

theorem read_of_eq_ok {name : String} {read : Draft → Except ReadFault α} {get : ρ → Option α}
    {put : ρ → α → ρ} {d : Draft} :
    (RecordField.of name read get put).read r d = .ok r' ↔
      ∃ a, read d = .ok a ∧ r' = put r a := by
  show (read d).map (put r) = _ ↔ _
  cases read d with
  | error e => simp [Except.map]
  | ok a => simp [Except.map, eq_comm]

/-- Fields are apart if they are put into different places of the record. -/
theorem Apart.of {name name' : String} {read : Draft → Except ReadFault α}
    {read' : Draft → Except ReadFault β} {get : ρ → Option α} {get' : ρ → Option β}
    {put : ρ → α → ρ} {put' : ρ → β → ρ} (hname : name ≠ name')
    (hput : ∀ r a b, put' (put r a) b = put (put' r b) a)
    (hget : ∀ r b, get (put' r b) = get r) (hget' : ∀ r a, get' (put r a) = get' r) :
    Apart (.of name read get put) (.of name' read' get' put') where
  name := hname
  comm hd he := by
    obtain ⟨a, ha, rfl⟩ := read_of_eq_ok.mp hd
    obtain ⟨b, hb, rfl⟩ := read_of_eq_ok.mp he
    exact ⟨_, read_of_eq_ok.mpr ⟨b, hb, rfl⟩, read_of_eq_ok.mpr ⟨a, ha, hput _ a b⟩⟩
  comm' he hd := by
    obtain ⟨b, hb, rfl⟩ := read_of_eq_ok.mp he
    obtain ⟨a, ha, rfl⟩ := read_of_eq_ok.mp hd
    exact ⟨_, read_of_eq_ok.mpr ⟨a, ha, rfl⟩, read_of_eq_ok.mpr ⟨b, hb, (hput _ a b).symm⟩⟩
  isRead hd := by
    obtain ⟨a, -, rfl⟩ := read_of_eq_ok.mp hd
    exact congrArg Option.isSome (hget' _ a)
  isRead' he := by
    obtain ⟨b, -, rfl⟩ := read_of_eq_ok.mp he
    exact congrArg Option.isSome (hget _ b)

/-- The fields can be read in any sequence, and each of them only once. -/
structure Lawful (fields : List (RecordField ρ)) : Prop where
  marks : ∀ f ∈ fields, ∀ {r r' : ρ} {d : Draft}, f.read r d = .ok r' → f.isRead r' = true
  apart : fields.Pairwise Apart

theorem marks_of {name : String} {read : Draft → Except ReadFault α} {get : ρ → Option α}
    {put : ρ → α → ρ} (h : ∀ r a, get (put r a) = some a) {d : Draft}
    (hread : (RecordField.of name read get put).read r d = .ok r') :
    (RecordField.of name read get put).isRead r' = true := by
  obtain ⟨a, -, rfl⟩ := read_of_eq_ok.mp hread
  exact congrArg Option.isSome (h r a)

theorem Lawful.apart_of_name_ne (h : Lawful fields) {f g : RecordField ρ} (hf : f ∈ fields)
    (hg : g ∈ fields) (hname : f.name ≠ g.name) : Apart f g := by
  have : Std.Symm fun f g : RecordField ρ => f.name ≠ g.name → Apart f g :=
    ⟨fun _ _ hfg hne => (hfg hne.symm).symm⟩
  have hpairs : fields.Pairwise fun f g => f.name ≠ g.name → Apart f g := by
    refine h.apart.imp ?_
    intro f g hfg _
    exact hfg
  exact hpairs.forall_of_forall (fun _ _ hne => absurd rfl hne) hf hg hname

/-! ## Members -/

/-- How a member is read: nobody knows it and it is intact, or it is that of a field that has not
been read before. -/
inductive Takes (fields : List (RecordField ρ)) (r : ρ) (m : Option String × Draft) :
    ρ → Prop where
  | unknown {key : String} (hkey : m.1 = some key)
      (hfind : fields.find? (·.name = key) = none) (hintact : m.2.isIntact = true) :
      Takes fields r m r
  | known {key : String} {f : RecordField ρ} {r' : ρ} (hkey : m.1 = some key)
      (hfind : fields.find? (·.name = key) = some f) (hnew : f.isRead r = false)
      (hread : f.read r m.2 = .ok r') : Takes fields r m r'

theorem readMember_eq_ok_iff {m : Option String × Draft} :
    readMember fields r m = .ok r' ↔ Takes fields r m r' := by
  refine ⟨fun h => ?_, fun h => ?_⟩
  · unfold readMember at h
    split at h
    · cases h
    next key hkey =>
      split at h
      next hfind =>
        split at h
        next hintact =>
          cases h
          exact .unknown hkey hfind hintact
        · cases h
      next f hfind =>
        split at h
        · cases h
        next hnew => exact .known hkey hfind (Bool.eq_false_iff.mpr hnew) h
  · unfold readMember
    cases h with
    | unknown hkey hfind hintact =>
        rw [hkey]
        dsimp only
        rw [hfind]
        exact if_pos hintact
    | known hkey hfind hnew hread =>
        rw [hkey]
        dsimp only
        rw [hfind]
        exact (if_neg (Bool.eq_false_iff.mp hnew)).trans hread

theorem mem_of_find?_name {key : String} {f : RecordField ρ}
    (h : fields.find? (·.name = key) = some f) : f ∈ fields ∧ f.name = key :=
  ⟨List.mem_of_find?_eq_some h, by simpa using List.find?_some h⟩

/-- **Two members can be read in either sequence.** -/
theorem Takes.swap (hfields : Lawful fields) {m m' : Option String × Draft} {r₁ r₂ : ρ}
    (h : Takes fields r m r₁) (h' : Takes fields r₁ m' r₂) :
    ∃ r₃, Takes fields r m' r₃ ∧ Takes fields r₃ m r₂ := by
  cases h with
  | unknown hkey hfind hintact => exact ⟨r₂, h', .unknown hkey hfind hintact⟩
  | @known key f _ hkey hfind hnew hread =>
      cases h' with
      | unknown hkey' hfind' hintact' =>
          exact ⟨r, .unknown hkey' hfind' hintact', .known hkey hfind hnew hread⟩
      | @known key' g _ hkey' hfind' hnew' hread' =>
          obtain ⟨hf, hfname⟩ := mem_of_find?_name hfind
          obtain ⟨hg, hgname⟩ := mem_of_find?_name hfind'
          by_cases hname : f.name = g.name
          · -- a field that has been read is not read again
            rw [← hfname, hname, hgname, hfind'] at hfind
            cases hfind
            rw [hfields.marks f hf hread] at hnew'
            cases hnew'
          · have happart := hfields.apart_of_name_ne hf hg hname
            obtain ⟨r₃, hg₃, hf₃⟩ := happart.comm hread hread'
            rw [happart.isRead hread] at hnew'
            refine ⟨r₃, .known hkey' hfind' hnew' hg₃, .known hkey hfind ?_ hf₃⟩
            rw [happart.isRead' hg₃]
            exact hnew

/-- **Members can be read in any sequence.** -/
theorem foldlM_readMember_of_perm (hfields : Lawful fields)
    {ms ms' : List (Option String × Draft)} (h : ms.Perm ms')
    (hread : ms.foldlM (readMember fields) r = .ok r') :
    ms'.foldlM (readMember fields) r = .ok r' := by
  induction h generalizing r with
  | nil => exact hread
  | cons m _ ih =>
      rw [List.foldlM_cons] at hread ⊢
      obtain ⟨r₁, hm, hrest⟩ := ok_of_bind hread
      rw [hm]
      exact ih hrest
  | swap m m' ms =>
      rw [List.foldlM_cons] at hread
      obtain ⟨r₁, hm', hread⟩ := ok_of_bind hread
      rw [List.foldlM_cons] at hread
      obtain ⟨r₂, hm, hrest⟩ := ok_of_bind hread
      obtain ⟨r₃, hfirst, hsecond⟩ :=
        Takes.swap hfields (readMember_eq_ok_iff.mp hm') (readMember_eq_ok_iff.mp hm)
      rw [List.foldlM_cons, readMember_eq_ok_iff.mpr hfirst]
      show (m' :: ms).foldlM (readMember fields) r₃ = _
      rw [List.foldlM_cons, readMember_eq_ok_iff.mpr hsecond]
      exact hrest
  | trans _ _ ih ih' => exact ih' (ih hread)

/-- A member in the middle may be read last. -/
theorem foldlM_readMember_last (hfields : Lawful fields)
    {before after : List (Option String × Draft)} {m : Option String × Draft}
    (hread : (before ++ m :: after).foldlM (readMember fields) r = .ok r') :
    ∃ r₀, (before ++ after).foldlM (readMember fields) r = .ok r₀ ∧ Takes fields r₀ m r' := by
  have hlast : (before ++ m :: after).Perm (before ++ after ++ [m]) :=
    List.perm_middle.trans (List.perm_append_singleton _ _).symm
  have hread' := foldlM_readMember_of_perm hfields hlast hread
  rw [List.foldlM_append] at hread'
  obtain ⟨r₀, hothers, hm⟩ := ok_of_bind hread'
  rw [List.foldlM_cons] at hm
  obtain ⟨r₁, hm, hnone⟩ := ok_of_bind hm
  cases hnone
  exact ⟨r₀, hothers, readMember_eq_ok_iff.mp hm⟩

/-- A member that nobody knows may be put in anywhere. -/
theorem foldlM_readMember_insert {before after : List (Option String × Draft)} {key : String}
    {d : Draft} (hfind : fields.find? (·.name = key) = none) (hd : d.isIntact = true)
    (hread : (before ++ after).foldlM (readMember fields) r = .ok r') :
    (before ++ (some key, d) :: after).foldlM (readMember fields) r = .ok r' := by
  rw [List.foldlM_append] at hread ⊢
  obtain ⟨r₀, hbefore, hafter⟩ := ok_of_bind hread
  refine bind_eq_ok_iff.mpr ⟨r₀, hbefore, ?_⟩
  rw [List.foldlM_cons, readMember_eq_ok_iff.mpr (.unknown rfl hfind hd)]
  exact hafter

/-- A member may be replaced by one that is read as the same. -/
theorem foldlM_readMember_replace {before after : List (Option String × Draft)}
    {m m' : Option String × Draft} (h : ∀ {r r'}, Takes fields r m r' → Takes fields r m' r')
    (hread : (before ++ m :: after).foldlM (readMember fields) r = .ok r') :
    (before ++ m' :: after).foldlM (readMember fields) r = .ok r' := by
  rw [List.foldlM_append] at hread ⊢
  obtain ⟨r₀, hbefore, hread⟩ := ok_of_bind hread
  refine bind_eq_ok_iff.mpr ⟨r₀, hbefore, ?_⟩
  rw [List.foldlM_cons] at hread ⊢
  obtain ⟨r₁, hm, hafter⟩ := ok_of_bind hread
  rw [readMember_eq_ok_iff.mpr (h (readMember_eq_ok_iff.mp hm))]
  exact hafter

theorem asRecord_object_eq_ok_iff {empty : ρ} {complete? : ρ → Option α}
    {members : List (Option String × Draft)} {a : α} :
    asRecord fields empty complete? (.object members true) = .ok a ↔
      ∃ r, members.foldlM (readMember fields) empty = .ok r ∧ complete? r = some a := by
  show (members.foldlM (readMember fields) empty >>= _) = _ ↔ _
  rw [bind_eq_ok_iff]
  refine exists_congr fun r => and_congr_right fun _ => ?_
  cases complete? r with
  | none => exact ⟨fun h => (nomatch h), fun h => (nomatch h)⟩
  | some b =>
      show Except.ok b = .ok a ↔ _
      rw [Except.ok.injEq, Option.some.injEq]

/-- If the field is read from null, it may as well be left out. -/
def NullIsMissing (complete? : ρ → Option α) (f : RecordField ρ) : Prop :=
  ∀ {r r' : ρ}, f.isRead r = false → f.read r .null = .ok r' → complete? r' = complete? r

theorem nullIsMissing_of_option {complete? : ρ → Option β} {name : String}
    {read : Draft → Except ReadFault α} {get : ρ → Option (Option α)} {put : ρ → Option α → ρ}
    (h : ∀ r, get r = none → complete? (put r none) = complete? r) :
    NullIsMissing complete? (.of name (asOption read) get put) := by
  intro r r' hnew hread
  obtain ⟨a, ha, rfl⟩ := read_of_eq_ok.mp hread
  cases ha
  exact h r (Option.isNone_iff_eq_none.mp (Option.isSome_eq_false_iff.mp hnew))

theorem nullIsMissing_of_error {complete? : ρ → Option β} {name : String}
    {read : Draft → Except ReadFault α} {get : ρ → Option α} {put : ρ → α → ρ} {fault : ReadFault}
    (h : read .null = .error fault) : NullIsMissing complete? (.of name read get put) := by
  intro r r' _ hread
  obtain ⟨a, ha, -⟩ := read_of_eq_ok.mp hread
  rw [h] at ha
  cases ha

/-- **A record is read from all objects that say the same**, if it is read from one of them. -/
theorem asRecord_respells (hfields : Lawful fields) {empty : ρ} {complete? : ρ → Option α}
    {inside : String → Json → Json → Prop} (hnull : ∀ f ∈ fields, NullIsMissing complete? f)
    (hinside : ∀ {name value value'}, inside name value value' →
      ∀ {f : RecordField ρ}, fields.find? (·.name = name) = some f →
      ∀ {r r' : ρ}, f.read r value.draft = .ok r' → f.read r value'.draft = .ok r')
    {j j' : Json} (h : Respells (fields.map (·.name)) inside j j') {a : α}
    (hread : asRecord fields empty complete? j.draft = .ok a) :
    asRecord fields empty complete? j'.draft = .ok a := by
  cases h with
  | permute h =>
      obtain ⟨r, hr, ha⟩ := asRecord_object_eq_ok_iff.mp hread
      rw [memberDrafts_eq] at hr
      refine asRecord_object_eq_ok_iff.mpr ⟨r, ?_, ha⟩
      rw [memberDrafts_eq]
      exact foldlM_readMember_of_perm hfields (h.map _) hr
  | drop name before after =>
      obtain ⟨r, hr, ha⟩ := asRecord_object_eq_ok_iff.mp hread
      rw [memberDrafts_eq, List.map_append, List.map_cons] at hr
      obtain ⟨r₀, hothers, hlast⟩ := foldlM_readMember_last hfields hr
      refine asRecord_object_eq_ok_iff.mpr ⟨r₀, ?_, ?_⟩
      · rw [memberDrafts_eq, List.map_append]
        exact hothers
      cases hlast with
      | unknown => exact ha
      | known _ hfind hnew hread =>
          rw [← hnull _ (mem_of_find?_name hfind).1 hnew hread]
          exact ha
  | @add name value hname _ before after =>
      obtain ⟨r, hr, ha⟩ := asRecord_object_eq_ok_iff.mp hread
      rw [memberDrafts_eq, List.map_append] at hr
      have hfind : fields.find? (·.name = name) = none := by
        rw [List.find?_eq_none]
        intro f hf hkey
        exact hname (List.mem_map.mpr ⟨f, hf, of_decide_eq_true hkey⟩)
      refine asRecord_object_eq_ok_iff.mpr ⟨r, ?_, ha⟩
      rw [memberDrafts_eq, List.map_append, List.map_cons]
      exact foldlM_readMember_insert hfind (isIntact_draft value) hr
  | @within name value value' h before after =>
      obtain ⟨r, hr, ha⟩ := asRecord_object_eq_ok_iff.mp hread
      rw [memberDrafts_eq, List.map_append, List.map_cons] at hr
      refine asRecord_object_eq_ok_iff.mpr ⟨r, ?_, ha⟩
      rw [memberDrafts_eq, List.map_append, List.map_cons]
      refine foldlM_readMember_replace ?_ hr
      intro r r' hm
      cases hm with
      | unknown hkey hfind _ => exact .unknown hkey hfind (isIntact_draft value')
      | known hkey hfind hnew hread =>
          cases hkey
          exact .known rfl hfind hnew (hinside h hfind hread)

end Draft

end Checkout.Json
