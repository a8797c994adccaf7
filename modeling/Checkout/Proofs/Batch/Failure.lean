import Checkout.Proofs.Memory.History
import Checkout.Proofs.Store.Journal

/-!
# When a batch fails

The journal of a batch on the store in memory lists the calls that the batch comes to make and how
each of them went. If one fails, then all kept requests fail as the first of them did, and of what
was done nothing is left: what matters of the store is what it was before, so that a second attempt
goes as if there had been no first one (`failed_without_trace`). If no operation has been told to
fail, then none fails, whatever is in the batch (`commits_of_no_failing`).
-/

namespace Checkout

namespace Batch

open StoreAction Store Memory Session

variable {ρ : Type} {m m' : Memory} {batch : List (Pending ρ)}

/-! ## What matters of the store -/

/-- Transactions on stores that agree in what matters get the same answer and leave stores that
agree again. -/
theorem transact_congr (requests : List Request) {s t : Session}
    (h : s.memory.core = t.memory.core) :
    (perform (transact store requests) s).1 = (perform (transact store requests) t).1 ∧
      (perform (transact store requests) s).2.memory.core =
        (perform (transact store requests) t).2.memory.core := by
  have hfailing : s.memory.failing = t.memory.failing := congrArg (·.2.1) h
  obtain ⟨hanswer, halike, -⟩ := store_linked.settle requests _ _ (Alike.opened h)
  rw [perform_transact_store, perform_transact_store, hfailing]
  split
  next => exact ⟨rfl, h⟩
  next =>
    rcases hs : perform (settle store requests) (opened s.memory) with ⟨e | settlement, s'⟩ <;>
      rcases ht : perform (settle store requests) (opened t.memory) with ⟨e' | settlement', t'⟩ <;>
      rw [hs, ht] at hanswer halike <;> cases hanswer
    · exact ⟨rfl, halike.core_eq⟩
    · dsimp only
      rw [halike.failing_eq]
      split
      · exact ⟨rfl, halike.core_eq⟩
      · exact ⟨rfl, halike.closed.core_eq⟩

/-- A transaction that fails leaves all that matters as it was. -/
theorem core_of_transact_error {requests : List Request} {s : Session} {e : StoreError}
    (h : (perform (transact store requests) s).1 = .error e) :
    (perform (transact store requests) s).2.memory.core = s.memory.core := by
  have hsteady := (store_linked.settle requests _ _ (Alike.opened (m := s.memory) rfl)).2.2
  rw [perform_transact_store] at h ⊢
  split
  next => rfl
  next hstart =>
    rw [if_neg hstart] at h
    rcases hs : perform (settle store requests) (opened s.memory) with ⟨e' | settlement, t⟩ <;>
      rw [hs] at h hsteady
    · exact hsteady
    dsimp only at h ⊢
    split
    next => exact hsteady
    next hcommit =>
      rw [if_neg hcommit] at h
      cases h

/-- **A batch asks for no more than what matters.** -/
theorem processInMemory_congr (batch : List (Pending ρ)) (h : m.core = m'.core) :
    (processInMemory batch m).1 = (processInMemory batch m').1 ∧
      (processInMemory batch m).2.core = (processInMemory batch m').2.core := by
  unfold processInMemory
  by_cases hnil : (screen ∅ ∅ batch).2 = []
  · rw [process_of_none_kept store _ hnil, process_of_none_kept store _ hnil]
    exact ⟨rfl, h⟩
  · rw [process_of_kept store _ hnil, process_of_kept store _ hnil]
    obtain ⟨hanswer, hcore⟩ := transact_congr ((screen ∅ ∅ batch).2.map (·.request))
      (s := ⟨m, m.contents⟩) (t := ⟨m', m'.contents⟩) h
    dsimp only
    rw [hanswer]
    exact ⟨rfl, hcore⟩

/-! ## The journal of a batch -/

/-- The calls that a batch comes to make on the store in memory, and how each of them goes. -/
def journal (batch : List (Pending ρ)) (m : Memory) : List Entry :=
  ((process store.journaled batch).run ⟨⟨m, m.contents⟩, []⟩).2.entries

theorem journal_of_none_kept (m : Memory) (h : (screen ∅ ∅ batch).2 = []) :
    journal batch m = [] := by
  unfold journal
  rw [process_of_none_kept _ _ h]

/-- The first failure in the journal is that of the transaction. -/
theorem firstFailure_journal (m : Memory) (h : (screen ∅ ∅ batch).2 ≠ []) :
    firstFailure (journal batch m) =
      failure? (perform (transact store ((screen ∅ ∅ batch).2.map (·.request)))
        ⟨m, m.contents⟩).1 := by
  obtain ⟨entries, hrun, hfailure⟩ := process_journaled store h ⟨⟨m, m.contents⟩, []⟩
  unfold journal
  rw [hrun, List.nil_append]
  exact hfailure

/-- **A batch that fails leaves no trace.** Of the calls that the batch comes to make one fails.
Then the contents are what they were and nothing is committed. Whoever is not screened out as a
duplicate is told the first failure. Once failures are cleared, the batch gives the same deliveries
and leaves the same contents as if it had not been tried before. -/
theorem failed_without_trace {e : StoreError} (h : firstFailure (journal batch m) = some e) :
    (processInMemory batch m).2.contents = m.contents ∧
    (processInMemory batch m).2.committed = m.committed ∧
    (processInMemory batch m).1 = (screen ∅ ∅ batch).1 ++
      (screen ∅ ∅ batch).2.map (fun p => ⟨p.responder, .error (.store e)⟩) ∧
    (∀ d ∈ (screen ∅ ∅ batch).1, ∃ e', d.outcome = .error e' ∧ e'.isDuplicate) ∧
    (processInMemory batch (processInMemory batch m).2.clearFailures).1 =
      (processInMemory batch m.clearFailures).1 ∧
    (processInMemory batch (processInMemory batch m).2.clearFailures).2.core =
      (processInMemory batch m.clearFailures).2.core := by
  have hkept : (screen ∅ ∅ batch).2 ≠ [] := by
    intro hnil
    rw [journal_of_none_kept m hnil] at h
    cases h
  rw [firstFailure_journal m hkept, failure?_eq_some] at h
  have hcore : (processInMemory batch m).2.core = m.core := by
    unfold processInMemory
    rw [process_of_kept store _ hkept]
    exact core_of_transact_error h
  have hcontents : (processInMemory batch m).2.contents = m.contents := congrArg (·.1) hcore
  have hcommitted : (processInMemory batch m).2.committed = m.committed := congrArg (·.2.2) hcore
  -- the second attempt starts from a store that agrees with the first one in all that matters
  have hretry : (processInMemory batch m).2.clearFailures.core = m.clearFailures.core := by
    rw [core_clearFailures, core_clearFailures, hcontents, hcommitted]
  refine ⟨hcontents, hcommitted, ?_, fun d => screen_rejected, processInMemory_congr batch hretry⟩
  unfold processInMemory
  rw [process_of_kept store _ hkept]
  dsimp only
  rw [h]
  rfl

theorem failed_without_trace_sample :
    firstFailure (journal Sample.batch Sample.brokenStore) =
      some (Operation.failure .insertItems) ∧
    (processInMemory Sample.batch Sample.brokenStore).2.contents = Sample.brokenStore.contents ∧
    (processInMemory Sample.batch Sample.brokenStore).2.committed =
      Sample.brokenStore.committed ∧
    (processInMemory Sample.batch Sample.brokenStore).1 = (screen ∅ ∅ Sample.batch).1 ++
      (screen ∅ ∅ Sample.batch).2.map
        (fun p => ⟨p.responder, .error (.store (Operation.failure .insertItems))⟩) ∧
    (∀ d ∈ (screen ∅ ∅ Sample.batch).1, ∃ e', d.outcome = .error e' ∧ e'.isDuplicate) ∧
    (processInMemory Sample.batch
        (processInMemory Sample.batch Sample.brokenStore).2.clearFailures).1 =
      (processInMemory Sample.batch Sample.brokenStore.clearFailures).1 ∧
    (processInMemory Sample.batch
        (processInMemory Sample.batch Sample.brokenStore).2.clearFailures).2.core =
      (processInMemory Sample.batch Sample.brokenStore.clearFailures).2.core := by
  have hfailure : firstFailure (journal Sample.batch Sample.brokenStore) =
      some (Operation.failure .insertItems) := by rfl
  exact ⟨hfailure, failed_without_trace hfailure⟩

/-! ## Batches that do not fail -/

/-- **The store in memory never fails by itself.** The first call of a batch that fails is one that
was told to. -/
theorem firstFailure_injected (h : m.Reachable) {e : StoreError}
    (he : firstFailure (journal batch m) = some e) :
    ∃ operation ∈ m.failing, e = operation.failure := by
  by_cases hnil : (screen ∅ ∅ batch).2 = []
  · rw [journal_of_none_kept m hnil] at he
    cases he
  rw [firstFailure_journal m hnil, failure?_eq_some] at he
  have hsettled := transact_settled h.sound (kept_separate batch)
  rw [he] at hsettled
  cases hsettled with
  | failed hfails _ => exact ⟨_, hfails, rfl⟩

/-- A request that is settled is never told that the store failed. -/
theorem outcome_ne_store (c : Contents) (requests : List Request) (orders : List Order)
    (r : Request) (e : StoreError) :
    Settlement.outcome ⟨orders, c.turnedAway requests⟩ r ≠ .error (.store e) := by
  intro heq
  rcases outcome_error heq with hduplicate | hstock
  · cases hduplicate
  · cases hstock

/-- **No request spoils a batch.** If no operation has been told to fail, a batch is committed
whatever it asks for: no call that it comes to make fails, and nobody is told that the store
failed. -/
theorem commits_of_no_failing (h : m.Reachable) (hfailing : m.failing = []) (hne : batch ≠ []) :
    (processInMemory batch m).2.committed = m.committed + 1 ∧
    (∀ d ∈ (processInMemory batch m).1, ∀ e, d.outcome ≠ .error (.store e)) ∧
    ∀ entry ∈ journal batch m, entry.failure = none := by
  have hjournal : firstFailure (journal batch m) = none := by
    refine Option.eq_none_iff_forall_ne_some.mpr fun e he => ?_
    obtain ⟨operation, hfails, -⟩ := firstFailure_injected h he
    rw [hfailing] at hfails
    cases hfails
  obtain ⟨settled, hsettled, hdeliveries⟩ := processInMemory_settled h.sound hne
  cases hsettled with
  | failed hfails _ =>
      rw [hfailing] at hfails
      cases hfails
  | committed _ _ hcommitted =>
      refine ⟨hcommitted, ?_, List.findSome?_eq_none_iff.mp hjournal⟩
      intro d hd e heq
      rw [hdeliveries, List.mem_append] at hd
      rcases hd with hd | hd
      · obtain ⟨e', he', hduplicate⟩ := screen_rejected hd
        rw [he'] at heq
        cases heq
        cases hduplicate
      · obtain ⟨p, -, rfl⟩ := List.mem_map.mp hd
        exact outcome_ne_store _ _ _ _ e heq

theorem commits_of_no_failing_sample :
    Sample.store.failing = [] ∧ Sample.batch ≠ [] ∧
    (processInMemory Sample.batch Sample.store).2.committed = Sample.store.committed + 1 ∧
    (∀ d ∈ (processInMemory Sample.batch Sample.store).1, ∀ e, d.outcome ≠ .error (.store e)) ∧
    ∀ entry ∈ journal Sample.batch Sample.store, entry.failure = none := by
  have hne : Sample.batch ≠ [] := List.cons_ne_nil _ _
  exact ⟨rfl, hne, commits_of_no_failing Sample.store_reachable rfl hne⟩

end Batch

end Checkout
