import Checkout.Proofs.Batch.Transaction
import Checkout.Store.Tapped

/-!
# A store that keeps a journal

`Store.journaled` does what another store does and writes down every call with the way it went. So
"the calls that a batch comes to make" and "the first call that fails" can be spoken of. Keeping a
journal changes nothing else: a transaction goes as it does without, and fails as the first call in
its journal that failed (`transact_records`), and so a batch makes the same deliveries and leaves
the same store (`process_journaled`).
-/

namespace Checkout

variable {σ α β : Type}

/-- The failure that an answer is, if it is one. -/
def failure? : Except StoreError α → Option StoreError
  | .ok _ => none
  | .error e => some e

theorem failure?_eq_some {answer : Except StoreError α} {e : StoreError} :
    failure? answer = some e ↔ answer = .error e := by
  cases answer <;> simp [failure?]

/-- Makes the call on a store, and does not look at the answer. -/
def Call.carryOut (store : Store σ) : Call → StoreAction σ Unit
  | .start => store.start
  | .existingOrders ids => store.existingOrders ids >>= fun _ => pure ()
  | .existingItems ids => store.existingItems ids >>= fun _ => pure ()
  | .fetchStock ids => store.fetchStock ids >>= fun _ => pure ()
  | .decrementStock ds => store.decrementStock ds
  | .insertOrders orders => store.insertOrders orders
  | .insertItems items => store.insertItems items
  | .fetchOrders ids => store.fetchOrders ids >>= fun _ => pure ()
  | .commit => store.commit
  | .rollback => store.rollback

/-- A call of a store, and how it failed, if it did. -/
structure Entry where
  call : Call
  failure : Option StoreError
  deriving DecidableEq

/-- What a store with a journal remembers. -/
structure Journaled (σ : Type) where
  inner : σ
  entries : List Entry

namespace Store

/-- Passes an action on, and writes down how it went. -/
def note (call : Call) (action : StoreAction σ α) : StoreAction (Journaled σ) α := do
  let (answer, inner) := action.perform (← get).inner
  modify fun j => ⟨inner, j.entries ++ [⟨call, failure? answer⟩]⟩
  answer

/-- The store, keeping a journal. -/
def journaled (store : Store σ) : Store (Journaled σ) where
  start := note .start store.start
  existingOrders ids := note (.existingOrders ids) (store.existingOrders ids)
  existingItems ids := note (.existingItems ids) (store.existingItems ids)
  fetchStock ids := note (.fetchStock ids) (store.fetchStock ids)
  decrementStock ds := note (.decrementStock ds) (store.decrementStock ds)
  insertOrders orders := note (.insertOrders orders) (store.insertOrders orders)
  insertItems items := note (.insertItems items) (store.insertItems items)
  fetchOrders ids := note (.fetchOrders ids) (store.fetchOrders ids)
  commit := note .commit store.commit
  rollback := note .rollback store.rollback

end Store

open StoreAction Store

/-- The first failure in a journal. -/
def firstFailure (entries : List Entry) : Option StoreError := entries.findSome? (·.failure)

@[simp] theorem firstFailure_append (entries new : List Entry) :
    firstFailure (entries ++ new) = (firstFailure entries).or (firstFailure new) := by
  simp [firstFailure, List.findSome?_append]

@[simp] theorem firstFailure_singleton (entry : Entry) :
    firstFailure [entry] = entry.failure := by
  cases h : entry.failure <;> simp [firstFailure, h]

theorem perform_note (call : Call) (action : StoreAction σ α) (j : Journaled σ) :
    perform (note call action) j =
      ((perform action j.inner).1,
        ⟨(perform action j.inner).2,
          j.entries ++ [⟨call, failure? (perform action j.inner).1⟩]⟩) := by
  unfold note
  rw [perform_get_bind, perform_bind_of_ok (perform_modify _ _)]
  rcases perform action j.inner with ⟨_ | _, _⟩ <;> rfl

/-! ## Journals of composed actions -/

/-- One action does what another does and adds to the journal; the answer is the first failure that
it adds. -/
def Records (noted : StoreAction (Journaled σ) α) (plain : StoreAction σ α) : Prop :=
  ∀ j, ∃ new,
    perform noted j =
      ((perform plain j.inner).1, ⟨(perform plain j.inner).2, j.entries ++ new⟩) ∧
    firstFailure new = failure? (perform plain j.inner).1

namespace Records

theorem pure (a : α) : Records (σ := σ) (pure a) (pure a) := by
  intro j
  exact ⟨[], by simp, rfl⟩

theorem note (call : Call) (action : StoreAction σ α) : Records (note call action) action := by
  intro j
  exact ⟨_, perform_note call action j, firstFailure_singleton _⟩

theorem bind {x : StoreAction (Journaled σ) α} {y : StoreAction σ α}
    {f : α → StoreAction (Journaled σ) β} {g : α → StoreAction σ β} (hxy : Records x y)
    (hfg : ∀ a, Records (f a) (g a)) : Records (x >>= f) (y >>= g) := by
  intro j
  obtain ⟨new, hx, hnew⟩ := hxy j
  rcases hy : perform y j.inner with ⟨e | a, t⟩
  -- the second action does not come to be if the first one fails
  · rw [hy] at hx hnew
    exact ⟨new, by rw [perform_bind_of_error hx, perform_bind_of_error hy],
      by rw [perform_bind_of_error hy]; exact hnew⟩
  · rw [hy] at hx hnew
    obtain ⟨more, hf, hmore⟩ := hfg a ⟨t, j.entries ++ new⟩
    refine ⟨new ++ more, ?_, ?_⟩
    · rw [perform_bind_of_ok hx, perform_bind_of_ok hy, hf, List.append_assoc]
    · rw [perform_bind_of_ok hy, firstFailure_append, hnew, hmore]
      rfl

end Records

/-- Keeping a journal links a store to itself. -/
theorem journaled_linked (store : Store σ) : Linked store.journaled store Records where
  pure := Records.pure
  bind := Records.bind
  existingOrders _ := .note _ _
  existingItems _ := .note _ _
  fetchStock _ := .note _ _
  decrementStock _ := .note _ _
  insertOrders _ := .note _ _
  insertItems _ := .note _ _
  fetchOrders _ := .note _ _

/-- **The journal of a transaction.** The transaction goes as it does without a journal, and fails
as the first of the calls in its journal that failed. -/
theorem transact_records (store : Store σ) (requests : List Request) :
    Records (Batch.transact store.journaled requests) (Batch.transact store requests) := by
  intro j
  rw [Batch.perform_transact, Batch.perform_transact]
  obtain ⟨opening, hstart, hopening⟩ := Records.note .start store.start j
  rw [show perform store.journaled.start j = _ from hstart]
  rcases hs : perform store.start j.inner with ⟨e | _, t⟩ <;> rw [hs] at hopening
  · exact ⟨opening, rfl, hopening⟩
  obtain ⟨body, hsettle, hbody⟩ :=
    (journaled_linked store).settle requests ⟨t, j.entries ++ opening⟩
  dsimp only at hsettle hbody ⊢
  rw [hsettle]
  rcases hb : perform (Batch.settle store requests) t with ⟨e | settlement, u⟩ <;> rw [hb] at hbody
  -- the journal goes on with the rollback, but the first failure is already in it
  · refine ⟨opening ++ body ++ [⟨.rollback, failure? (perform store.rollback u).1⟩], ?_, ?_⟩
    · show (_, (perform (Store.note .rollback store.rollback) _).2) = _
      rw [perform_note]
      simp
    · rw [firstFailure_append, firstFailure_append, hopening, hbody]
      rfl
  obtain ⟨closing, hcommit, hclosing⟩ :=
    Records.note .commit store.commit ⟨u, j.entries ++ opening ++ body⟩
  dsimp only at hcommit hclosing ⊢
  rw [show perform store.journaled.commit _ = _ from hcommit]
  refine ⟨opening ++ body ++ closing, ?_, ?_⟩
  · rcases perform store.commit u with ⟨_ | _, v⟩ <;> simp
  · rw [firstFailure_append, firstFailure_append, hopening, hbody, hclosing]
    rcases perform store.commit u with ⟨_ | _, v⟩ <;> rfl

/-- **The journal of a batch.** Keeping a journal changes neither the deliveries nor what the store
behind it remembers, and the first failure in the journal is that of the transaction. -/
theorem process_journaled {ρ : Type} (store : Store σ) {batch : List (Pending ρ)}
    (h : (Batch.screen ∅ ∅ batch).2 ≠ []) (j : Journaled σ) :
    ∃ new, (Batch.process store.journaled batch).run j =
        (((Batch.process store batch).run j.inner).1,
          ⟨((Batch.process store batch).run j.inner).2, j.entries ++ new⟩) ∧
      firstFailure new = failure? (perform
        (Batch.transact store ((Batch.screen ∅ ∅ batch).2.map (·.request))) j.inner).1 := by
  obtain ⟨new, hperform, hfailure⟩ :=
    transact_records store ((Batch.screen ∅ ∅ batch).2.map (·.request)) j
  refine ⟨new, ?_, hfailure⟩
  rw [Batch.process_of_kept _ _ h, Batch.process_of_kept _ _ h]
  dsimp only
  rw [hperform]

end Checkout
