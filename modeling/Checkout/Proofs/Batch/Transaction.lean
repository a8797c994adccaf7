import Checkout.Batch
import Checkout.Proofs.Store.Action

/-!
# The transaction of a batch, on any store

What a batch does is composed of the actions of its store, and of nothing else. So what relates
two stores action by action relates all that happens between opening and closing a transaction
(`Store.Linked.settle`). Opening and closing are laid open by `perform_transact`, and
`process_of_kept` says what a whole batch does with the outcome of its transaction.
-/

namespace Checkout

variable {σ τ ρ α β : Type}

/-- The questions and changes of one store are related to those of another. The relation holds
between actions that do nothing, and goes from two actions to whatever is done with their
answers. -/
structure Store.Linked (A : Store σ) (B : Store τ)
    (R : ∀ {α : Type}, StoreAction σ α → StoreAction τ α → Prop) : Prop where
  pure : ∀ {α : Type} (a : α), R (pure a) (pure a)
  bind : ∀ {α β : Type} {x : StoreAction σ α} {y : StoreAction τ α} {f : α → StoreAction σ β}
    {g : α → StoreAction τ β}, R x y → (∀ a, R (f a) (g a)) → R (x >>= f) (y >>= g)
  existingOrders : ∀ ids, R (A.existingOrders ids) (B.existingOrders ids)
  existingItems : ∀ ids, R (A.existingItems ids) (B.existingItems ids)
  fetchStock : ∀ ids, R (A.fetchStock ids) (B.fetchStock ids)
  decrementStock : ∀ ds, R (A.decrementStock ds) (B.decrementStock ds)
  insertOrders : ∀ orders, R (A.insertOrders orders) (B.insertOrders orders)
  insertItems : ∀ items, R (A.insertItems items) (B.insertItems items)
  fetchOrders : ∀ ids, R (A.fetchOrders ids) (B.fetchOrders ids)

namespace Store.Linked

open Batch

variable {A : Store σ} {B : Store τ} {R : ∀ {α : Type}, StoreAction σ α → StoreAction τ α → Prop}

theorem persistedClashes (h : Linked A B R) (requests : List Request) :
    R (persistedClashes A requests) (persistedClashes B requests) := by
  unfold Batch.persistedClashes
  refine h.bind (h.existingOrders _) fun orders => ?_
  refine h.bind (h.existingItems _) fun items => ?_
  exact h.pure _

theorem persist (h : Linked A B R) (orders : List Order) :
    R (persist A orders) (persist B orders) := by
  unfold Batch.persist
  refine h.bind (h.insertOrders _) fun _ => ?_
  refine h.bind (h.insertItems _) fun _ => ?_
  split
  · exact h.pure _
  · exact h.fetchOrders _

/-- **What links two stores action by action links what a batch does in a transaction.** -/
theorem settle (h : Linked A B R) (requests : List Request) :
    R (settle A requests) (settle B requests) := by
  unfold Batch.settle
  refine h.bind (h.persistedClashes requests) fun rejected => ?_
  dsimp only
  split
  · exact h.pure _
  · refine h.bind (h.fetchStock _) fun stock => ?_
    refine h.bind (h.decrementStock _) fun _ => ?_
    refine h.bind (h.persist _) fun persisted => ?_
    exact h.pure _

end Store.Linked

namespace Batch

open StoreAction

/-- A transaction is opened, its inside is performed, and it is closed: committed if all went well,
otherwise rolled back, whatever comes of that. -/
theorem perform_transact (store : Store σ) (requests : List Request) (s : σ) :
    perform (transact store requests) s =
      match perform store.start s with
      | (.error e, t) => (.error e, t)
      | (.ok _, t) =>
        match perform (settle store requests) t with
        | (.error e, u) => (.error e, (perform store.rollback u).2)
        | (.ok settlement, u) =>
          match perform store.commit u with
          | (.error e, v) => (.error e, v)
          | (.ok _, v) => (.ok settlement, v) := by
  unfold transact
  rcases hs : perform store.start s with ⟨_ | _, t⟩
  · exact perform_bind_of_error hs
  · rw [perform_bind_of_ok hs, perform_bind_of_ok (perform_attempt _ _)]
    dsimp only
    rcases perform (settle store requests) t with ⟨e | settlement, u⟩
    · show perform (attempt store.rollback >>= fun _ => throw e) u = _
      rw [perform_bind_of_ok (perform_attempt _ _), perform_throw]
    · show perform (store.commit >>= fun _ => pure settlement) u = _
      rw [perform_bind]
      dsimp only
      rcases perform store.commit u with ⟨_ | _, v⟩ <;> rfl

/-! ## Whole batches -/

/-- What the requests that are kept are told. -/
def tell (kept : List (Pending ρ)) (settled : Except StoreError Settlement) : List (Delivery ρ) :=
  kept.map fun p => ⟨p.responder, settledOutcome settled p.request⟩

theorem process_of_none_kept (store : Store σ) {batch : List (Pending ρ)} (s : σ)
    (h : (screen ∅ ∅ batch).2 = []) :
    (process store batch).run s = ((screen ∅ ∅ batch).1, s) := by
  unfold process processWith
  rcases hk : screen ∅ ∅ batch with ⟨rejected, kept⟩
  obtain rfl : kept = [] := by rw [hk] at h; exact h
  rfl

theorem process_of_kept (store : Store σ) {batch : List (Pending ρ)} (s : σ)
    (h : (screen ∅ ∅ batch).2 ≠ []) :
    (process store batch).run s =
      let kept := (screen ∅ ∅ batch).2
      let settled := perform (transact store (kept.map (·.request))) s
      ((screen ∅ ∅ batch).1 ++ tell kept settled.1, settled.2) := by
  unfold process processWith
  rcases hk : screen ∅ ∅ batch with ⟨rejected, kept⟩
  cases kept with
  | nil => rw [hk] at h; exact absurd rfl h
  | cons p ps => rfl

/-- Without a request that is kept there is nothing to report. -/
theorem processIn_of_none_kept (mode : Mode) (store : Store σ) {batch : List (Pending ρ)} (s : σ)
    (h : (screen ∅ ∅ batch).2 = []) :
    (processIn mode store batch).run.run s = (some (screen ∅ ∅ batch).1, s) := by
  unfold processIn processWith
  rcases hk : screen ∅ ∅ batch with ⟨rejected, kept⟩
  obtain rfl : kept = [] := by rw [hk] at h; exact h
  rfl

/-- **What a report does to a batch.** In every mode a batch does the same to the store, and makes the
same deliveries unless the program stops over its report, for that comes first. -/
theorem processIn_of_kept (mode : Mode) (store : Store σ) {batch : List (Pending ρ)} (s : σ)
    (h : (screen ∅ ∅ batch).2 ≠ []) :
    (processIn mode store batch).run.run s =
      let kept := (screen ∅ ∅ batch).2
      let settled := (perform (transact store (kept.map (·.request))) s).1
      ((mode.report? kept.length settled).map fun _ => ((process store batch).run s).1,
        ((process store batch).run s).2) := by
  have hreport (outcome : Option Unit) (deliveries : List (Delivery ρ)) (t : σ) :
      (OptionT.mk (pure outcome) >>= fun _ => pure deliveries : OptionT (StateM σ) _).run.run t =
        (outcome.map fun _ => deliveries, t) := by
    rw [OptionT.run_bind]
    cases outcome <;> rfl
  rw [process_of_kept store s h]
  unfold processIn processWith
  rcases hk : screen ∅ ∅ batch with ⟨rejected, kept⟩
  cases kept with
  | nil => rw [hk] at h; exact absurd rfl h
  | cons p ps => exact hreport _ _ _

end Batch

end Checkout
