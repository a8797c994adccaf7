import Checkout.Proofs.Batch.Failure

/-!
# Whom a batch works for

The store may turn some requests of a batch away because their order or one of their items exists
already. These take no part in the rest: the demand is merged of the admitted requests alone, they
are what the stock is read and reduced for, and their orders and items are what is added
(`serves_admitted`). All this is seen in the calls that a batch makes (`calls_of_journal`), and so
also when one of them fails.
-/

namespace Checkout

open Batch StoreAction

variable {σ ρ α β : Type}

/-- The call reads, takes or adds just what the requests come to, for some answer of the stock. -/
def Call.IsFor (requests : List Request) : Call → Prop
  | .fetchStock products => products = (Ledger.merge requests).products
  | .decrementStock ds => ∃ stock, ds = (Resolution.ofBatch requests stock).decrements
  | .insertOrders orders =>
    ∃ stock, orders = survivingOrders (Resolution.ofBatch requests stock) requests
  | .insertItems items =>
    ∃ stock, items =
      (survivingOrders (Resolution.ofBatch requests stock) requests).flatMap (·.items)
  | .fetchOrders ids =>
    ∃ stock, ids = (survivingOrders (Resolution.ofBatch requests stock) requests).map (·.id)
  | .start | .existingOrders _ | .existingItems _ | .commit | .rollback => True

/-! ## The calls of composed actions -/

/-- All calls that the action makes, performed from `j`, are allowed. -/
def Calls (allowed : Call → Prop) (action : StoreAction (Journaled σ) α) (j : Journaled σ) : Prop :=
  ∃ new, (perform action j).2.entries = j.entries ++ new ∧ ∀ entry ∈ new, allowed entry.call

namespace Calls

variable {allowed : Call → Prop} {j : Journaled σ}

theorem pure (a : α) : Calls allowed (pure a) j := ⟨[], by simp, by simp⟩

theorem throw (e : StoreError) : Calls allowed (throw e : StoreAction (Journaled σ) α) j :=
  ⟨[], by simp, by simp⟩

theorem note (call : Call) (action : StoreAction σ α) (h : allowed call) :
    Calls allowed (Store.note call action) j := by
  refine ⟨[⟨call, failure? (perform action j.inner).1⟩], ?_, ?_⟩
  · rw [perform_note]
  · simpa using h

theorem bind {x : StoreAction (Journaled σ) α} {f : α → StoreAction (Journaled σ) β}
    (hx : Calls allowed x j) (hf : ∀ a k, perform x j = (.ok a, k) → Calls allowed (f a) k) :
    Calls allowed (x >>= f) j := by
  obtain ⟨new, hentries, hnew⟩ := hx
  rcases h : perform x j with ⟨e | a, k⟩
  · refine ⟨new, ?_, hnew⟩
    rw [perform_bind_of_error h]
    simpa [h] using hentries
  · obtain ⟨more, hmore, hallowed⟩ := hf a k h
    refine ⟨new ++ more, ?_, ?_⟩
    · have hk : k.entries = j.entries ++ new := by simpa [h] using hentries
      rw [perform_bind_of_ok h, hmore, hk, List.append_assoc]
    · intro entry hentry
      rcases List.mem_append.mp hentry with hentry | hentry
      · exact hnew entry hentry
      · exact hallowed entry hentry

theorem attempt {action : StoreAction (Journaled σ) α} (h : Calls allowed action j) :
    Calls allowed (StoreAction.attempt action) j := h

end Calls

namespace Batch

variable {requests admitted : List Request} {j : Journaled σ}

theorem persistedClashes_calls (store : Store σ) (requests : List Request) (j : Journaled σ) :
    Calls (Call.IsFor admitted) (persistedClashes store.journaled requests) j := by
  unfold persistedClashes
  apply Calls.bind (.note (.existingOrders _) _ trivial)
  intro orders k _
  apply Calls.bind (.note (.existingItems _) _ trivial)
  intro items l _
  exact .pure _

theorem persist_calls (store : Store σ) (stock : List StockRow) (j : Journaled σ) :
    let orders := survivingOrders (Resolution.ofBatch admitted stock) admitted
    Calls (Call.IsFor admitted) (persist store.journaled orders) j := by
  intro orders
  unfold persist
  apply Calls.bind (.note (.insertOrders _) _ ⟨stock, rfl⟩)
  intro _ k _
  apply Calls.bind (.note (.insertItems _) _ ⟨stock, rfl⟩)
  intro _ l _
  split
  · exact .pure _
  · exact .note (.fetchOrders _) _ ⟨stock, rfl⟩

/-- What happens inside the transaction is for those requests that are not rejected. -/
theorem settle_calls {store : Store σ}
    (h : ∀ rejected k, perform (persistedClashes store.journaled requests) j = (.ok rejected, k) →
      (requests.filter fun r => !rejected.any (·.1 = r.order)) = admitted) :
    Calls (Call.IsFor admitted) (settle store.journaled requests) j := by
  unfold settle
  apply Calls.bind (persistedClashes_calls store requests j)
  intro rejected k hrejected
  rw [h rejected k hrejected]
  dsimp only
  split
  · exact .pure _
  · have hfetch : Calls (Call.IsFor admitted)
        (store.journaled.fetchStock (Ledger.merge admitted).products) k := .note _ _ rfl
    apply hfetch.bind
    intro stock l _
    apply Calls.bind (.note (.decrementStock _) _ ⟨stock, rfl⟩)
    intro _ l' _
    apply Calls.bind (persist_calls store stock l')
    intro _ _ _
    exact .pure _

theorem transact_calls {store : Store σ}
    (h : ∀ k, perform store.journaled.start j = (.ok (), k) →
      Calls (Call.IsFor admitted) (settle store.journaled requests) k) :
    Calls (Call.IsFor admitted) (transact store.journaled requests) j := by
  unfold transact
  apply Calls.bind (.note .start _ trivial)
  intro _ k hstart
  apply Calls.bind (Calls.attempt (h k hstart))
  intro answer l _
  cases answer with
  | error e =>
      apply Calls.bind (.attempt (.note .rollback _ trivial))
      intro _ _ _
      exact .throw e
  | ok settlement =>
      apply Calls.bind (.note .commit _ trivial)
      intro _ _ _
      exact .pure _

/-! ## The store in memory -/

open Memory Session

/-- The store in memory rejects those that its working copy turns away. -/
theorem eq_turnedAway {j k : Journaled Session} {rejected : List (OrderId × CheckoutError)}
    (h : perform (persistedClashes store.journaled requests) j = (.ok rejected, k)) :
    rejected = j.inner.working.turnedAway requests := by
  obtain ⟨new, hperform, -⟩ := (journaled_linked store).persistedClashes requests j
  have hcontract : Achieves j.inner.memory.failing (· = j.inner.working)
      (persistedClashes store requests) _ := persistedClashes_achieves j.inner.working requests
  have hanswer := hcontract j.inner rfl rfl
  rw [h] at hperform
  rcases hp : perform (persistedClashes store requests) j.inner with ⟨e | rejected', t⟩ <;>
    rw [hp] at hperform hanswer <;> cases hperform
  exact hanswer.2.2

/-- A transaction that is opened starts from what is committed. -/
theorem working_of_start {j k : Journaled Session}
    (h : perform store.journaled.start j = (.ok (), k)) :
    k.inner.working = j.inner.memory.contents := by
  have hstart : perform store.journaled.start j = _ := perform_note .start store.start j
  rw [hstart, perform_start] at h
  split at h
  · cases h
  · cases h
    rfl

variable {ρ : Type} {m : Memory} {batch : List (Pending ρ)}

theorem calls_of_journal (batch : List (Pending ρ)) (m : Memory) :
    ∀ entry ∈ journal batch m, entry.call.IsFor
      (m.contents.admitted ((screen ∅ ∅ batch).2.map (·.request))) := by
  by_cases hnil : (screen ∅ ∅ batch).2 = []
  · rw [journal_of_none_kept m hnil]
    intro entry hentry
    cases hentry
  have hcalls : Calls (Call.IsFor (m.contents.admitted ((screen ∅ ∅ batch).2.map (·.request))))
      (transact store.journaled ((screen ∅ ∅ batch).2.map (·.request))) ⟨⟨m, m.contents⟩, []⟩ := by
    apply transact_calls
    intro k hstart
    apply settle_calls
    intro rejected l hrejected
    obtain rfl := eq_turnedAway hrejected
    rw [working_of_start hstart]
    exact Contents.filter_not_turnedAway (kept_separate batch).orders_nodup
  obtain ⟨new, hentries, hnew⟩ := hcalls
  unfold journal
  rw [process_of_kept _ _ hnil]
  dsimp only
  rw [hentries]
  exact hnew

/-- Of a batch, just these requests are served: no call is made for others, and either nothing comes
of the batch or these get what is sold to them. -/
structure Serves (batch : List (Pending ρ)) (requests : List Request) (m : Memory) : Prop where
  sublist : requests.Sublist (batch.map (·.request))
  calls : ∀ entry ∈ journal batch m, entry.call.IsFor requests
  contents : (processInMemory batch m).2.contents = m.contents ∨
    m.contents.Sale (m.contents.sales requests) (processInMemory batch m).2.contents

/-- **A batch serves its admitted requests alone**, whether its calls fail or not. -/
theorem serves_admitted (hsound : m.contents.Sound) (batch : List (Pending ρ)) :
    Serves batch (m.contents.admitted ((screen ∅ ∅ batch).2.map (·.request))) m where
  sublist := (m.contents.admitted_sublist _).trans ((screen_kept_sublist batch).map _)
  calls := calls_of_journal batch m
  contents := by
    by_cases hnil : batch = []
    · subst hnil
      exact .inl rfl
    obtain ⟨settled, hsettled, -⟩ := processInMemory_settled hsound hnil
    cases hsettled with
    | failed _ hcore => exact .inl (congrArg (·.1) hcore)
    | committed hsale => exact .inr hsale

end Batch

end Checkout
