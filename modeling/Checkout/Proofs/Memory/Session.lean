import Checkout.Proofs.Batch.Transaction

/-!
# Sessions with the store in memory

Every operation of the store in memory first checks whether it has been told to fail, and then asks
the working copy something or changes it. Two things follow for whatever is composed of them.

`Steady` says that only the committed contents, the failing operations and the working copy matter,
and that nothing is committed on the way: sessions that are alike in these stay alike and give the
same answers. `Achieves` is a contract between working copies: the action either brings them from
the one condition to the other, or fails as an operation that was told to.
-/

namespace Checkout

open StoreAction

/-- How an operation fails that has been told to. -/
def Operation.failure (operation : Operation) : StoreError :=
  .operationFailed (MemoryFault.injected operation).message

namespace Memory

/-- What matters of a store: its contents, which operations fail, and how often was committed. What
else it counts and logs is only looked at from outside. -/
def core (m : Memory) : Contents × List Operation × Nat := (m.contents, m.failing, m.committed)

theorem core_clearFailures (m : Memory) :
    m.clearFailures.core = (m.contents, [], m.committed) := rfl

namespace Session

variable {α β : Type}

/-! ## The operations -/

/-- Asks the working copy. -/
def ask (f : Contents → α) : StoreAction Session α := get >>= fun s => pure (f s.working)

/-- Writes down what a decrement is asked to do. -/
def log (ds : List Decrement) : StoreAction Session Unit :=
  modify fun s => { s with memory.decrementLog := s.memory.decrementLog ++ [ds] }

theorem perform_check (operation : Operation) (s : Session) :
    perform (check operation) s =
      if operation ∈ s.memory.failing then (.error operation.failure, s) else (.ok (), s) := by
  unfold check
  rw [perform_get_bind]
  split <;> rfl

theorem existingOrders_eq (ids : List OrderId) :
    store.existingOrders ids =
      check .existingOrders >>= fun _ => ask fun c => ids.filter fun id => (c.header? id).isSome :=
  rfl

theorem existingItems_eq (ids : List ItemId) :
    store.existingItems ids =
      check .existingItems >>= fun _ => ask fun c => ids.filter c.hasItem := rfl

theorem fetchStock_eq (ids : List ProductId) :
    store.fetchStock ids =
      check .fetchStock >>= fun _ => ask fun c =>
        ids.filterMap fun id => (c.stock? id).map (⟨id, ·⟩) := rfl

theorem decrementStock_eq (ds : List Decrement) :
    store.decrementStock ds =
      check .decrementStock >>= fun _ => log ds >>= fun _ => applyAll Contents.decrement ds := rfl

theorem insertOrders_eq (orders : List Order) :
    store.insertOrders orders =
      check .insertOrders >>= fun _ => applyAll Contents.insertOrder orders := rfl

theorem insertItems_eq (items : List Item) :
    store.insertItems items =
      check .insertItems >>= fun _ => applyAll Contents.insertItem items := rfl

theorem fetchOrders_eq (ids : List OrderId) :
    store.fetchOrders ids =
      check .fetchOrders >>= fun _ => ask fun c => ids.filterMap c.order? := rfl

/-- A session in which a transaction has just been opened. -/
def opened (m : Memory) : Session := ⟨{ m with begun := m.begun + 1 }, m.contents⟩

theorem perform_start (s : Session) :
    perform store.start s =
      if .start ∈ s.memory.failing then (.error (Operation.failure .start), s)
      else (.ok (), opened s.memory) := by
  show perform (check .start >>= fun _ => modify _) s = _
  rw [perform_bind, perform_check]
  by_cases h : .start ∈ s.memory.failing
  · rw [if_pos h, if_pos h]
  · rw [if_neg h, if_neg h]
    rfl

/-- A session in which the transaction has just been committed. -/
def closed (s : Session) : Session :=
  { s with memory.contents := s.working, memory.committed := s.memory.committed + 1 }

theorem perform_commit (s : Session) :
    perform store.commit s =
      if .commit ∈ s.memory.failing then (.error (Operation.failure .commit), s)
      else (.ok (), closed s) := by
  show perform (check .commit >>= fun _ => modify _) s = _
  rw [perform_bind, perform_check]
  by_cases h : .commit ∈ s.memory.failing
  · rw [if_pos h, if_pos h]
  · rw [if_neg h, if_neg h]
    rfl

/-! ## What matters of a session -/

/-- The sessions agree in all that matters. -/
structure Alike (s t : Session) : Prop where
  core_eq : s.memory.core = t.memory.core
  working_eq : s.working = t.working

theorem Alike.failing_eq {s t : Session} (h : Alike s t) : s.memory.failing = t.memory.failing :=
  congrArg (·.2.1) h.core_eq

theorem Alike.opened {m m' : Memory} (h : m.core = m'.core) : Alike (opened m) (opened m') :=
  ⟨h, congrArg (·.1) h⟩

theorem Alike.closed {s t : Session} (h : Alike s t) : Alike (closed s) (closed t) := by
  have hcommitted : s.memory.committed = t.memory.committed := congrArg (·.2.2) h.core_eq
  refine ⟨?_, h.working_eq⟩
  show (s.working, s.memory.failing, s.memory.committed + 1) = _
  rw [h.working_eq, h.failing_eq, hcommitted]
  rfl

/-- Sessions that are alike get the same answer and stay alike, and nothing is committed. -/
def Steady (x y : StoreAction Session α) : Prop :=
  ∀ s t, Alike s t → (perform x s).1 = (perform y t).1 ∧
    Alike (perform x s).2 (perform y t).2 ∧ (perform x s).2.memory.core = s.memory.core

namespace Steady

theorem pure (a : α) : Steady (pure a) (pure a) := by
  intro s t h
  exact ⟨rfl, h, rfl⟩

theorem bind {x y : StoreAction Session α} {f g : α → StoreAction Session β} (hxy : Steady x y)
    (hfg : ∀ a, Steady (f a) (g a)) : Steady (x >>= f) (y >>= g) := by
  intro s t h
  obtain ⟨hanswer, halike, hcore⟩ := hxy s t h
  rw [perform_bind, perform_bind]
  rcases hx : perform x s with ⟨e | a, s'⟩ <;> rcases hy : perform y t with ⟨e' | a', t'⟩ <;>
    rw [hx, hy] at hanswer halike <;> rw [hx] at hcore <;> cases hanswer
  · exact ⟨rfl, halike, hcore⟩
  · obtain ⟨hanswer', halike', hcore'⟩ := hfg a s' t' halike
    exact ⟨hanswer', halike', hcore'.trans hcore⟩

theorem check (operation : Operation) : Steady (check operation) (check operation) := by
  intro s t h
  rw [perform_check, perform_check, h.failing_eq]
  split
  · exact ⟨rfl, h, rfl⟩
  · exact ⟨rfl, h, rfl⟩

theorem ask (f : Contents → α) : Steady (ask f) (ask f) := by
  intro s t h
  exact ⟨congrArg (fun c => Except.ok (f c)) h.working_eq, h, rfl⟩

theorem log (ds : List Decrement) : Steady (log ds) (log ds) := by
  intro s t h
  exact ⟨rfl, ⟨h.core_eq, h.working_eq⟩, rfl⟩

theorem applyAll (change : Contents → α → Except MemoryFault Contents) (as : List α) :
    Steady (applyAll change as) (applyAll change as) := by
  induction as with
  | nil => exact Steady.pure ()
  | cons a as ih =>
      intro s t h
      unfold Session.applyAll
      rw [perform_get_bind, perform_get_bind, h.working_eq]
      split
      · exact ⟨rfl, h, rfl⟩
      · next c _ =>
        exact ih { s with working := c } { t with working := c } ⟨h.core_eq, rfl⟩

end Steady

/-- All that a batch does between opening and closing its transaction is steady. -/
theorem store_linked : Store.Linked store store Steady where
  pure := Steady.pure
  bind := Steady.bind
  existingOrders ids := by
    rw [existingOrders_eq]
    exact (Steady.check _).bind fun _ => .ask _
  existingItems ids := by
    rw [existingItems_eq]
    exact (Steady.check _).bind fun _ => .ask _
  fetchStock ids := by
    rw [fetchStock_eq]
    exact (Steady.check _).bind fun _ => .ask _
  decrementStock _ := (Steady.check _).bind fun _ => (Steady.log _).bind fun _ => .applyAll _ _
  insertOrders _ := (Steady.check _).bind fun _ => .applyAll _ _
  insertItems _ := (Steady.check _).bind fun _ => .applyAll _ _
  fetchOrders ids := by
    rw [fetchOrders_eq]
    exact (Steady.check _).bind fun _ => .ask _

/-! ## Contracts between working copies -/

/-- While `failing` are the operations that fail, the action brings a working copy that satisfies
`P` to an answer and a working copy that satisfy `Q`, or it fails as one of those operations. -/
def Achieves (failing : List Operation) (P : Contents → Prop) (action : StoreAction Session α)
    (Q : α → Contents → Prop) : Prop :=
  ∀ s, s.memory.failing = failing → P s.working →
    match perform action s with
    | (.ok a, t) => t.memory.failing = failing ∧ Q a t.working
    | (.error e, _) => ∃ operation ∈ failing, e = operation.failure

namespace Achieves

variable {failing : List Operation} {P : Contents → Prop}

theorem pure {Q : α → Contents → Prop} (a : α) (h : ∀ c, P c → Q a c) :
    Achieves failing P (pure a) Q := by
  intro s hs hp
  exact ⟨hs, h _ hp⟩

theorem bind {Q : α → Contents → Prop} {R : β → Contents → Prop} {x : StoreAction Session α}
    {f : α → StoreAction Session β} (hx : Achieves failing P x Q)
    (hf : ∀ a, Achieves failing (Q a) (f a) R) : Achieves failing P (x >>= f) R := by
  intro s hs hp
  have hanswer := hx s hs hp
  rw [perform_bind]
  rcases h : perform x s with ⟨e | a, t⟩ <;> rw [h] at hanswer
  · exact hanswer
  · exact hf a t hanswer.1 hanswer.2

theorem mono {Q Q' : α → Contents → Prop} {action : StoreAction Session α}
    (h : Achieves failing P action Q) (hq : ∀ a c, Q a c → Q' a c) :
    Achieves failing P action Q' := by
  intro s hs hp
  have hanswer := h s hs hp
  rcases hx : perform action s with ⟨e | a, t⟩ <;> rw [hx] at hanswer
  · exact hanswer
  · exact ⟨hanswer.1, hq a _ hanswer.2⟩

/-- A contract for each working copy is one for all of them. -/
theorem of_forall {Q : α → Contents → Prop} {action : StoreAction Session α}
    (h : ∀ c, P c → Achieves failing (· = c) action Q) : Achieves failing P action Q := by
  intro s hs hp
  exact h s.working hp s hs rfl

theorem check (operation : Operation) :
    Achieves failing P (check operation) (fun _ => P) := by
  intro s hs hp
  rw [perform_check]
  by_cases h : operation ∈ s.memory.failing
  · rw [if_pos h]
    exact ⟨operation, hs ▸ h, rfl⟩
  · rw [if_neg h]
    exact ⟨hs, hp⟩

theorem ask (f : Contents → α) :
    Achieves failing P (ask f) (fun a c => P c ∧ a = f c) := by
  intro s hs hp
  exact ⟨hs, hp, rfl⟩

theorem log (ds : List Decrement) : Achieves failing P (log ds) (fun _ => P) := by
  intro s hs hp
  exact ⟨hs, hp⟩

/-- A bulk change goes through if all its single changes do. -/
theorem applyAll {change : Contents → α → Except MemoryFault Contents} {as : List α}
    {Q : Contents → Prop} (h : ∀ c, P c → ∃ c', as.foldlM change c = .ok c' ∧ Q c') :
    Achieves failing P (applyAll change as) (fun _ => Q) := by
  intro s hs hp
  obtain ⟨c', hc', hq⟩ := h s.working hp
  -- the bulk change in the session is the one on contents, change by change
  suffices hrun : perform (Session.applyAll change as) s = (.ok (), { s with working := c' }) by
    rw [hrun]
    exact ⟨hs, hq⟩
  clear hs hp hq h
  induction as generalizing s with
  | nil =>
      cases hc'
      rfl
  | cons a as ih =>
      rw [List.foldlM_cons] at hc'
      unfold Session.applyAll
      rw [perform_get_bind]
      cases hchange : change s.working a with
      | error fault =>
          rw [hchange] at hc'
          cases hc'
      | ok c =>
          rw [hchange] at hc'
          exact ih { s with working := c } hc'

end Achieves

end Session

end Memory

end Checkout
