import Checkout.Proofs.Batch.Failure

/-!
# Bulk calls that fail

A bulk call of a transaction on the store in memory goes through its list and stops at the first
fault. What it did before stays in the working copy. So a call that fails inside its list has done
what the beginning of the list does on its own, and whatever happens from then on, the store comes
to keep what it would keep after that beginning (`failed_bulk_eq_beginning`). Only where the fault
is in front, or the call was told to fail, is nothing left behind
(`failed_bulk_with_trace` is a call that leaves something).
-/

namespace Checkout

open StoreAction

/-! ## Calls -/

namespace Call

/-- How many things the call changes. -/
def changes : Call → Nat
  | .decrementStock ds => ds.length
  | .insertOrders orders => orders.length
  | .insertItems items => items.length
  | _ => 0

/-- The call changes a list of things. -/
def isBulk : Call → Bool
  | .decrementStock _ | .insertOrders _ | .insertItems _ => true
  | _ => false

/-- The call for the first `n` of the things that it changes. -/
def beginning (n : Nat) : Call → Call
  | .decrementStock ds => .decrementStock (ds.take n)
  | .insertOrders orders => .insertOrders (orders.take n)
  | .insertItems items => .insertItems (items.take n)
  | call => call

end Call

namespace Memory

namespace Session

variable {α : Type} {s t : Session} {e : StoreError}

/-! ## What happens to a transaction -/

/-- Something that happens while a transaction is open: it makes a call, or something happens to the
store behind it. -/
inductive Move where
  | call (call : Call)
  | outside {ρ : Type} (event : Event ρ)

/-- What a move makes of the session, however it goes. -/
def move (s : Session) : Move → Session
  | .call call => (perform (call.carryOut store) s).2
  | .outside event => { s with memory := s.memory.step event }

/-- What moves make of the session, one after the other. -/
def run (s : Session) (moves : List Move) : Session := moves.foldl move s

theorem core_step_congr {ρ : Type} {m m' : Memory} (event : Event ρ) (h : m.core = m'.core) :
    (m.step event).core = (m'.step event).core := by
  have hcontents : m.contents = m'.contents := congrArg (·.1) h
  have hfailing : m.failing = m'.failing := congrArg (·.2.1) h
  have hcommitted : m.committed = m'.committed := congrArg (·.2.2) h
  cases event with
  | setStock product quantity =>
      show (m.contents.setStock product quantity, m.failing, m.committed) = _
      rw [hcontents, hfailing, hcommitted]
      rfl
  | failOn operation =>
      show (m.contents, operation :: m.failing, m.committed) = _
      rw [hcontents, hfailing, hcommitted]
      rfl
  | clearFailures =>
      rw [show m.step (.clearFailures : Event ρ) = m.clearFailures from rfl, core_clearFailures,
        hcontents, hcommitted]
      rfl
  | process batch => exact (Batch.processInMemory_congr batch h).2

/-- A steady call keeps sessions alike. -/
theorem Steady.alike {x : StoreAction Session α} (h : Steady x x) (hst : Alike s t) :
    Alike (perform x s).2 (perform x t).2 :=
  (h s t hst).2.1

theorem Alike.carryOut (h : Alike s t) (call : Call) :
    Alike (perform (call.carryOut store) s).2 (perform (call.carryOut store) t).2 := by
  have hask {β : Type} {x : StoreAction Session β} (hx : Steady x x) :
      Alike (perform (x >>= fun _ => (pure () : StoreAction Session Unit)) s).2
        (perform (x >>= fun _ => (pure () : StoreAction Session Unit)) t).2 :=
    (hx.bind fun _ => .pure ()).alike h
  cases call with
  | start =>
      show Alike (perform store.start s).2 (perform store.start t).2
      rw [perform_start, perform_start, h.failing_eq]
      split
      · exact h
      · exact .opened h.core_eq
  | commit =>
      show Alike (perform store.commit s).2 (perform store.commit t).2
      rw [perform_commit, perform_commit, h.failing_eq]
      split
      · exact h
      · exact h.closed
  | rollback => exact h
  | existingOrders ids => exact hask (store_linked.existingOrders ids)
  | existingItems ids => exact hask (store_linked.existingItems ids)
  | fetchStock ids => exact hask (store_linked.fetchStock ids)
  | fetchOrders ids => exact hask (store_linked.fetchOrders ids)
  | decrementStock ds => exact (store_linked.decrementStock ds).alike h
  | insertOrders orders => exact (store_linked.insertOrders orders).alike h
  | insertItems items => exact (store_linked.insertItems items).alike h

theorem Alike.move (h : Alike s t) (m : Move) : Alike (s.move m) (t.move m) := by
  cases m with
  | call call => exact h.carryOut call
  | outside event => exact ⟨core_step_congr event h.core_eq, h.working_eq⟩

/-- **Sessions that are alike stay alike**, whatever happens to them. -/
theorem Alike.run (h : Alike s t) (moves : List Move) : Alike (s.run moves) (t.run moves) := by
  induction moves generalizing s t with
  | nil => exact h
  | cons m moves ih => exact ih (h.move m)

/-! ## Bulk changes -/

/-- A bulk change that fails has gone through all its elements before some place, and fails at the
one in that place. -/
theorem applyAll_of_error {change : Contents → α → Except MemoryFault Contents} {as : List α}
    (h : perform (applyAll change as) s = (.error e, t)) :
    ∃ n < as.length, perform (applyAll change (as.take n)) s = (.ok (), t) ∧
      (perform (applyAll change (as.take (n + 1))) s).1 = .error e := by
  induction as generalizing s with
  | nil => cases h
  | cons a as ih =>
      unfold applyAll at h
      rw [perform_get_bind] at h
      cases hchange : change s.working a with
      | error fault =>
          rw [hchange] at h
          cases h
          refine ⟨0, Nat.succ_pos _, rfl, ?_⟩
          rw [List.take_succ_cons]
          unfold applyAll
          rw [perform_get_bind, hchange]
          rfl
      | ok c =>
          rw [hchange] at h
          obtain ⟨n, hn, hdone, hfault⟩ := ih h
          refine ⟨n + 1, Nat.succ_lt_succ hn, ?_, ?_⟩
          all_goals
            rw [List.take_succ_cons]
            unfold applyAll
            rw [perform_get_bind, hchange]
            assumption

/-- How a bulk call is made: it checks whether it has been told to fail, writes down what it is
asked to do, and goes through its list. -/
def bulk (operation : Operation) (note : List α → Session → Session)
    (change : Contents → α → Except MemoryFault Contents) (as : List α) :
    StoreAction Session Unit := do
  check operation
  modify (note as)
  applyAll change as

theorem perform_bulk (operation : Operation) (note : List α → Session → Session)
    (change : Contents → α → Except MemoryFault Contents) (as : List α) (s : Session) :
    perform (bulk operation note change as) s =
      if operation ∈ s.memory.failing then (.error operation.failure, s)
      else perform (applyAll change as) (note as s) := by
  unfold bulk
  rw [perform_bind, perform_check]
  by_cases h : operation ∈ s.memory.failing
  · rw [if_pos h, if_pos h]
  · rw [if_neg h, if_neg h]
    exact perform_bind_of_ok (perform_modify _ _)

/-- A bulk call that fails was told to, or leaves what its beginning leaves. -/
theorem bulk_of_error (operation : Operation) (note : List α → Session → Session)
    (change : Contents → α → Except MemoryFault Contents) (as : List α)
    (hnote : ∀ as, Alike (note as s) s)
    (h : (perform (bulk operation note change as) s).1 = .error e) :
    operation ∈ s.memory.failing ∧ e = operation.failure ∧
        (perform (bulk operation note change as) s).2 = s ∨
      ∃ n < as.length,
        (perform (bulk operation note change (as.take n)) s).1 = .ok () ∧
        (perform (bulk operation note change (as.take (n + 1))) s).1 = .error e ∧
        Alike (perform (bulk operation note change as) s).2
          (perform (bulk operation note change (as.take n)) s).2 ∧
        (n = 0 → Alike (perform (bulk operation note change as) s).2 s) := by
  simp only [perform_bulk] at h ⊢
  by_cases hfails : operation ∈ s.memory.failing
  · left
    rw [if_pos hfails] at h ⊢
    exact ⟨hfails, (Except.error.inj h).symm, rfl⟩
  simp only [if_neg hfails] at h ⊢
  -- what is written down differs, but makes no difference
  have hsame (bs : List α) : Alike (note as s) (note bs s) :=
    ⟨(hnote as).core_eq.trans (hnote bs).core_eq.symm,
      (hnote as).working_eq.trans (hnote bs).working_eq.symm⟩
  have hsteady (bs : List α) (m : Nat) :=
    Steady.applyAll change (as.take m) (note as s) (note bs s) (hsame bs)
  obtain ⟨n, hn, hdone, hfault⟩ := applyAll_of_error (Prod.ext h rfl)
  refine .inr ⟨n, hn, ?_, ?_, ?_, ?_⟩
  · rw [← (hsteady (as.take n) n).1, hdone]
  · rw [← (hsteady (as.take (n + 1)) (n + 1)).1, hfault]
  · have halike := (hsteady (as.take n) n).2.1
    rwa [hdone] at halike
  · rintro rfl
    have hnone : note as s = (perform (applyAll change as) (note as s)).2 := congrArg (·.2) hdone
    rw [← hnone]
    exact hnote as

theorem call_of_error {call : Call} (hbulk : call.isBulk)
    (h : (perform (call.carryOut store) s).1 = .error e) :
    (∃ operation ∈ s.memory.failing, e = operation.failure ∧ s.move (.call call) = s) ∨
      ∃ n < call.changes,
        (perform ((call.beginning n).carryOut store) s).1 = .ok () ∧
        (perform ((call.beginning (n + 1)).carryOut store) s).1 = .error e ∧
        Alike (s.move (.call call)) (s.move (.call (call.beginning n))) ∧
        (n = 0 → Alike (s.move (.call call)) s) := by
  cases call with
  | decrementStock ds =>
      rcases bulk_of_error .decrementStock
          (fun ds s => { s with memory.decrementLog := s.memory.decrementLog ++ [ds] })
          Contents.decrement ds (fun _ => ⟨rfl, rfl⟩) h with hfails | hrest
      · exact .inl ⟨_, hfails⟩
      · exact .inr hrest
  | insertOrders orders =>
      rcases bulk_of_error .insertOrders (fun _ s => s) Contents.insertOrder orders
          (fun _ => ⟨rfl, rfl⟩) h with hfails | hrest
      · exact .inl ⟨_, hfails⟩
      · exact .inr hrest
  | insertItems items =>
      rcases bulk_of_error .insertItems (fun _ s => s) Contents.insertItem items
          (fun _ => ⟨rfl, rfl⟩) h with hfails | hrest
      · exact .inl ⟨_, hfails⟩
      · exact .inr hrest
  | _ => cases hbulk

/-- **A bulk call that fails leaves what its beginning leaves.** If it was told to fail, nothing has
changed. Otherwise there is a first thing that it cannot change: the call for the things before it
goes through, the call for one thing more fails in the same way, and the working copy is the one
that the former leaves. So, whatever happens from then on, the store keeps what it would keep after
the former call. Where the fault is in front, it keeps what it would keep without any call. -/
theorem failed_bulk_eq_beginning (s : Session) (call : Call) {e : StoreError}
    (hbulk : call.isBulk) (h : (perform (call.carryOut store) s).1 = .error e) :
    (∃ operation ∈ s.memory.failing, e = operation.failure ∧ s.move (.call call) = s) ∨
      ∃ n < call.changes,
        (perform ((call.beginning n).carryOut store) s).1 = .ok () ∧
        (perform ((call.beginning (n + 1)).carryOut store) s).1 = .error e ∧
        (s.move (.call call)).working = (s.move (.call (call.beginning n))).working ∧
        (∀ moves, (s.run (.call call :: moves)).memory.contents =
          (s.run (.call (call.beginning n) :: moves)).memory.contents) ∧
        (n = 0 → (s.move (.call call)).working = s.working ∧
          ∀ moves, (s.run (.call call :: moves)).memory.contents =
            (s.run moves).memory.contents) := by
  have hkeeps {t u : Session} (halike : Alike t u) (moves : List Move) :
      (t.run moves).memory.contents = (u.run moves).memory.contents :=
    congrArg (·.1) (halike.run moves).core_eq
  rcases call_of_error hbulk h with hfails | ⟨n, hn, hdone, hfault, halike, hfront⟩
  · exact .inl hfails
  · refine .inr ⟨n, hn, hdone, hfault, halike.working_eq, hkeeps halike, fun hzero => ?_⟩
    exact ⟨(hfront hzero).working_eq, hkeeps (hfront hzero)⟩

/-! ## A call that leaves something

Of product 1 there are five pieces and of product 2 three. Two of the former and nine of the latter
are taken in one call. -/

/-- A transaction on a store with two products. -/
def twoProducts : Session :=
  opened (Memory.empty.setStocks [⟨Sample.firstProduct, 5⟩, ⟨Sample.secondProduct, 3⟩])

/-- A call that takes more of the second product than there is. -/
def takesTooMuch : Call :=
  .decrementStock [⟨Sample.firstProduct, 2⟩, ⟨Sample.secondProduct, 9⟩]

theorem failed_bulk_eq_beginning_sample :
    (perform (takesTooMuch.carryOut store) twoProducts).1 =
        .error (.operationFailed (MemoryFault.negativeStock Sample.secondProduct).message) ∧
      ∃ n < 2,
        (perform ((takesTooMuch.beginning n).carryOut store) twoProducts).1 = .ok () ∧
        (twoProducts.move (.call takesTooMuch)).working =
          (twoProducts.move (.call (takesTooMuch.beginning n))).working := by
  have herror : (perform (takesTooMuch.carryOut store) twoProducts).1 =
      .error (.operationFailed (MemoryFault.negativeStock Sample.secondProduct).message) := by
    decide
  rcases failed_bulk_eq_beginning twoProducts takesTooMuch rfl herror with
    ⟨operation, hfails, -⟩ | ⟨n, hn, hdone, -, hworking, -⟩
  · cases hfails
  · exact ⟨herror, n, hn, hdone, hworking⟩

/-- **A bulk call that fails leaves something behind**, and a commit keeps it: two pieces are
gone. -/
theorem failed_bulk_with_trace :
    (perform (takesTooMuch.carryOut store) twoProducts).1 =
        .error (.operationFailed (MemoryFault.negativeStock Sample.secondProduct).message) ∧
      (twoProducts.move (.call takesTooMuch)).working ≠ twoProducts.working ∧
      (twoProducts.run [.call takesTooMuch, .call .commit]).memory.contents.stock?
        Sample.firstProduct = some 3 ∧
      (twoProducts.run [.call .commit]).memory.contents.stock? Sample.firstProduct = some 5 := by
  decide

end Session

end Memory

end Checkout
