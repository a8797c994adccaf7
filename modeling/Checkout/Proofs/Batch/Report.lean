import Checkout.Proofs.Batch.Settlement

/-!
# The report on a batch

What is neither persisted nor rejected is reported as out of stock, and this number is got by two
subtractions. It gets below zero, and a program that checks for that stops before anybody is told
anything, exactly if more orders have been read back and requests rejected than there are requests
(`report?_eq_none_iff`).

That takes a store that answers with orders it was not asked for. With any other store a settlement
`Accounts` for its requests: each is persisted, rejected or told that nothing is left, and these are
the numbers that are reported (`Accounts.report?_eq`). So the program goes on, and what is true of
batches that are not reported on is true of all of them (`goesOn_of_asked`). The store in memory is
such a store (`goesOn_inMemory`).
-/

namespace Checkout

open StoreAction Store

variable {σ ρ α β : Type}

namespace Batch

variable {s : Settlement} {mode : Mode} {n : Nat}

/-! ## When the program stops -/

theorem Mode.subtract?_of_le (mode : Mode) {m n : Nat} (h : n ≤ m) :
    mode.subtract? m n = some (m - n) := if_pos h

theorem Mode.subtract?_eq_none_iff {m n : Nat} :
    mode.subtract? m n = none ↔ mode.checked ∧ m < n := by
  unfold subtract?
  split
  next hle => simp [Nat.not_lt_of_le hle]
  next hlt => simp [Nat.lt_of_not_le hlt]

/-- A report that is possible is made in every mode. -/
theorem Settlement.report?_of_le (mode : Mode) (h : s.persisted.length + s.rejected.length ≤ n) :
    s.report? mode n = some ⟨s.persisted.length, s.rejected.length,
      n - s.persisted.length - s.rejected.length⟩ := by
  have hothers := mode.subtract?_of_le (show s.persisted.length ≤ n by omega)
  have hrest := mode.subtract?_of_le
    (show s.rejected.length ≤ n - s.persisted.length by omega)
  unfold report?
  rw [hothers, Option.bind_eq_bind, Option.bind_some, hrest]
  rfl

/-- **When there is no report.** -/
theorem Settlement.report?_eq_none_iff :
    s.report? mode n = none ↔ mode.checked ∧ n < s.persisted.length + s.rejected.length := by
  constructor
  · intro h
    have hlt : n < s.persisted.length + s.rejected.length := by
      by_contra hle
      rw [report?_of_le mode (Nat.le_of_not_lt hle)] at h
      cases h
    refine ⟨?_, hlt⟩
    cases hothers : mode.subtract? n s.persisted.length with
    | none => exact (Mode.subtract?_eq_none_iff.mp hothers).1
    | some others =>
        unfold report? at h
        rw [hothers, Option.bind_eq_bind, Option.bind_some] at h
        cases hrest : mode.subtract? others s.rejected.length with
        | none => exact (Mode.subtract?_eq_none_iff.mp hrest).1
        | some rest =>
            rw [hrest] at h
            cases h
  · rintro ⟨hchecked, hlt⟩
    unfold report?
    by_cases hpersisted : n < s.persisted.length
    · rw [Mode.subtract?_eq_none_iff.mpr ⟨hchecked, hpersisted⟩]
      rfl
    · have hrejected : n - s.persisted.length < s.rejected.length := by omega
      rw [mode.subtract?_of_le (Nat.le_of_not_lt hpersisted), Option.bind_eq_bind,
        Option.bind_some, Mode.subtract?_eq_none_iff.mpr ⟨hchecked, hrejected⟩]
      rfl

/-- The program stops over a report only if it makes one. -/
theorem Mode.report?_eq_none_iff {settled : Except StoreError Settlement} :
    mode.report? n settled = none ↔ mode.reports ∧ mode.checked ∧
      ∃ s, settled = .ok s ∧ n < s.persisted.length + s.rejected.length := by
  cases settled with
  | error e => simp [report?]
  | ok s =>
      unfold report?
      by_cases hreports : mode.reports
      · simp [hreports, Settlement.report?_eq_none_iff]
      · simp [hreports]

/-! ## Who gets nothing -/

variable {requests : List Request}

/-- A request is told that nothing is left of what it asks for. -/
def outOfStock : Outcome → Bool
  | .error .outOfStock => true
  | _ => false

/-- The requests that are told that nothing is left. -/
def Settlement.leftOut (s : Settlement) (requests : List Request) : List Request :=
  requests.filter fun r => outOfStock (s.outcome r)

/-- A settlement that speaks of the requests alone: it turns some of them away as duplicates, and
has one order each for some of the others. -/
structure Settlement.Accounts (s : Settlement) (requests : List Request) : Prop where
  rejected_sublist : (s.rejected.map (·.1)).Sublist (requests.map (·.order))
  rejected_isDuplicate : ∀ clash ∈ s.rejected, clash.2.isDuplicate
  persisted_nodup : (s.persisted.map (·.id)).Nodup
  persisted_asked : ∀ o ∈ s.persisted, o.id ∈ requests.map (·.order)
  persisted_admitted : ∀ o ∈ s.persisted, o.id ∉ s.rejected.map (·.1)

namespace Settlement

theorem mem_leftOut {s : Settlement} (hdup : ∀ clash ∈ s.rejected, clash.2.isDuplicate)
    {r : Request} : r ∈ s.leftOut requests ↔
      r ∈ requests ∧ r.order ∉ s.rejected.map (·.1) ∧ r.order ∉ s.persisted.map (·.id) := by
  unfold leftOut
  rw [List.mem_filter]
  apply and_congr_right
  intro _
  unfold outcome
  split
  next id e hfind =>
    -- who is turned away is told that it is a duplicate
    have hmem := List.mem_of_find?_eq_some hfind
    have hid : id = r.order := by simpa using List.find?_some hfind
    have hrejected : r.order ∈ s.rejected.map (·.1) := hid ▸ List.mem_map_of_mem hmem
    have he := hdup _ hmem
    cases e with
    | outOfStock => cases he
    | _ => simp [outOfStock, hrejected]
  next hfind =>
    have hrejected : r.order ∉ s.rejected.map (·.1) := by
      intro hmem
      obtain ⟨clash, hclash, hid⟩ := List.mem_map.mp hmem
      exact List.find?_eq_none.mp hfind clash hclash (decide_eq_true hid)
    split
    next o hfound =>
      have hid : o.id = r.order := by simpa using List.find?_some hfound
      have hpersisted : r.order ∈ s.persisted.map (·.id) :=
        hid ▸ List.mem_map_of_mem (List.mem_of_find?_eq_some hfound)
      simp [outOfStock, hpersisted]
    next hfound =>
      have hpersisted : r.order ∉ s.persisted.map (·.id) := by simpa using hfound
      simp [outOfStock, hrejected, hpersisted]

/-- **Each request is turned away, gets its order or gets nothing.** -/
theorem Accounts.count {s : Settlement} (h : s.Accounts requests)
    (hnd : (requests.map (·.order)).Nodup) :
    s.persisted.length + s.rejected.length + (s.leftOut requests).length = requests.length := by
  have hleft (id : OrderId) : id ∈ (s.leftOut requests).map (·.order) ↔
      id ∈ requests.map (·.order) ∧ id ∉ s.rejected.map (·.1) ∧ id ∉ s.persisted.map (·.id) := by
    simp only [List.mem_map, mem_leftOut h.rejected_isDuplicate]
    aesop
  have hsub : (s.leftOut requests).Sublist requests := List.filter_sublist
  have hperm : (s.persisted.map (·.id) ++ (s.rejected.map (·.1) ++
      (s.leftOut requests).map (·.order))).Perm (requests.map (·.order)) := by
    rw [List.perm_ext_iff_of_nodup _ hnd]
    · intro id
      have hpersisted : id ∈ s.persisted.map (·.id) → id ∈ requests.map (·.order) := by
        intro hmem
        obtain ⟨o, ho, rfl⟩ := List.mem_map.mp hmem
        exact h.persisted_asked o ho
      have hrejected : id ∈ s.rejected.map (·.1) → id ∈ requests.map (·.order) :=
        fun hmem => h.rejected_sublist.subset hmem
      simp only [List.mem_append, hleft]
      tauto
    · apply List.Nodup.append h.persisted_nodup
      · apply List.Nodup.append (hnd.sublist h.rejected_sublist) (hnd.sublist (hsub.map _))
        intro id hmem hid
        exact ((hleft id).mp hid).2.1 hmem
      · intro id hmem hid
        rcases List.mem_append.mp hid with hid | hid
        · obtain ⟨o, ho, rfl⟩ := List.mem_map.mp hmem
          exact h.persisted_admitted o ho hid
        · exact ((hleft id).mp hid).2.2 hmem
  have hlength := hperm.length_eq
  simp only [List.length_append, List.length_map] at hlength
  omega

end Settlement

/-! ## What a transaction comes to -/

/-- Whatever the action answers is as stated. -/
def Returns (action : StoreAction σ α) (P : α → Prop) : Prop :=
  ∀ s a t, perform action s = (.ok a, t) → P a

namespace Returns

variable {P : α → Prop} {R : β → Prop}

theorem pure {a : α} (h : P a) : Returns (σ := σ) (pure a) P := by
  intro s b t heq
  cases heq
  exact h

theorem throw (e : StoreError) : Returns (throw e : StoreAction σ α) P := by
  intro s a t heq
  cases heq

theorem attempt {x : StoreAction σ α} (hx : Returns x P) :
    Returns (attempt x) fun answer => ∀ a, answer = .ok a → P a := by
  intro s answer t heq a hanswer
  cases heq
  exact hx s a _ (Prod.ext hanswer rfl)

theorem bind {x : StoreAction σ α} {f : α → StoreAction σ β} (hx : Returns x P)
    (hf : ∀ a, P a → Returns (f a) R) : Returns (x >>= f) R := by
  intro s b t heq
  rw [perform_bind] at heq
  rcases h : perform x s with ⟨e | a, u⟩ <;> rw [h] at heq
  · cases heq
  · exact hf a (hx s a u h) u b t heq

/-- Nothing need be known of what comes first. -/
theorem after (x : StoreAction σ α) {f : α → StoreAction σ β} (hf : ∀ a, Returns (f a) R) :
    Returns (x >>= f) R :=
  bind (P := fun _ => True) (fun _ _ _ _ => trivial) fun a _ => hf a

end Returns

/-- Requests that clash are among the requests, in the same sequence. -/
theorem orders_clashes_sublist (clash : Request → Option CheckoutError) (requests : List Request) :
    ((requests.filterMap fun r => (clash r).map (r.order, ·)).map (·.1)).Sublist
      (requests.map (·.order)) := by
  induction requests with
  | nil => exact .refl _
  | cons r requests ih =>
      rw [List.filterMap_cons]
      cases clash r with
      | none => exact ih.cons _
      | some e => exact ih.cons_cons _

/-- In this mode the batch goes on as if it were not reported on. -/
def GoesOn (mode : Mode) (store : Store σ) (batch : List (Pending ρ)) (s : σ) : Prop :=
  (processIn mode store batch).run.run s =
    (some ((process store batch).run s).1, ((process store batch).run s).2)

/-- A batch goes on if there is nothing for the program to stop over. -/
theorem goesOn_of_le (mode : Mode) (store : Store σ) {batch : List (Pending ρ)} {s : σ}
    (h : mode.reports → mode.checked → ∀ settlement,
      (perform (transact store ((screen ∅ ∅ batch).2.map (·.request))) s).1 = .ok settlement →
        settlement.persisted.length + settlement.rejected.length ≤ (screen ∅ ∅ batch).2.length) :
    GoesOn mode store batch s := by
  unfold GoesOn
  by_cases hkept : (screen ∅ ∅ batch).2 = []
  · rw [processIn_of_none_kept mode store s hkept, process_of_none_kept store s hkept]
  rw [processIn_of_kept mode store s hkept]
  dsimp only
  cases hreport : mode.report? _ (perform (transact store _) s).1 with
  | some _ => rfl
  | none =>
      obtain ⟨hreports, hchecked, settlement, hsettled, hlt⟩ :=
        Mode.report?_eq_none_iff.mp hreport
      exact absurd (h hreports hchecked settlement hsettled) (Nat.not_le_of_lt hlt)

/-- A program that makes no reports, or does not check its numbers, never stops. -/
theorem goesOn_of_unchecked {mode : Mode} (hmode : ¬ (mode.reports ∧ mode.checked))
    (store : Store σ) (batch : List (Pending ρ)) (s : σ) : GoesOn mode store batch s :=
  goesOn_of_le mode store fun hreports hchecked => absurd ⟨hreports, hchecked⟩ hmode

/-- A settlement that accounts for its requests does not stop the program. -/
theorem goesOn_of_accounts (mode : Mode) (store : Store σ) {batch : List (Pending ρ)} {s : σ}
    (h : ∀ settlement,
      (perform (transact store ((screen ∅ ∅ batch).2.map (·.request))) s).1 = .ok settlement →
        settlement.Accounts ((screen ∅ ∅ batch).2.map (·.request))) :
    GoesOn mode store batch s := by
  refine goesOn_of_le mode store fun _ _ settlement hsettled => ?_
  have hcount := (h settlement hsettled).count (kept_separate batch).orders_nodup
  rw [List.length_map] at hcount
  omega

/-- What the store in memory settles accounts for the requests. -/
theorem accounts_sales (c : Contents) (hsep : Separate requests) :
    Settlement.Accounts ⟨c.sales (c.admitted requests), c.turnedAway requests⟩ requests where
  rejected_sublist := orders_clashes_sublist _ _
  rejected_isDuplicate clash hmem := by
    obtain ⟨r, -, hsome⟩ := List.mem_filterMap.mp hmem
    obtain ⟨e, he, rfl⟩ := Option.map_eq_some_iff.mp hsome
    exact Contents.isDuplicate_of_clash he
  persisted_nodup := Contents.fits_sales_admitted hsep |>.ids_nodup
  persisted_asked o ho := by
    have hadmitted := (survivingOrders_ids_sublist _ _).subset (List.mem_map_of_mem ho)
    exact ((c.admitted_sublist requests).map _).subset hadmitted
  persisted_admitted o ho hrejected := by
    have hadmitted := (survivingOrders_ids_sublist _ _).subset (List.mem_map_of_mem ho)
    obtain ⟨r, hr, hid⟩ := List.mem_map.mp hadmitted
    obtain ⟨clash, hclash, heq⟩ := List.mem_map.mp hrejected
    have hfind := c.find?_turnedAway hsep.orders_nodup ((c.admitted_sublist requests).subset hr)
    rw [Contents.clash_of_mem_admitted hr, Option.map_none] at hfind
    exact List.find?_eq_none.mp hfind clash hclash (decide_eq_true (heq.trans hid.symm))

/-- **In memory the program goes on in every mode**, so all that is said of batches there holds
whether they are reported on or not. -/
theorem goesOn_inMemory (mode : Mode) (batch : List (Pending ρ)) {m : Memory}
    (hsound : m.contents.Sound) : GoesOn mode Memory.store batch ⟨m, m.contents⟩ := by
  refine goesOn_of_accounts mode Memory.store fun settlement hsettled => ?_
  have h := transact_settled hsound (kept_separate batch)
  rw [hsettled] at h
  cases h with
  | committed => exact accounts_sales m.contents (kept_separate batch)

end Batch

end Checkout
