import Checkout.Proofs.Batch.Transaction
import Checkout.Sql.Store

/-!
# What is sent over a connection

Every action on a connection comes down to single statements (`perform_query`, `perform_start`,
`perform_finish`). `Database.recorded` is a database that writes down the statements it is sent and
does otherwise what another database does. So "the statements that an action sends" can be spoken
of, whatever the database answers.
-/

namespace Checkout.Sql

open StoreAction Connection

variable {π α β : Type}

/-! ## Single statements -/

theorem perform_send (db : Database π) (s : Statement) (c : Connection π) :
    perform (ExceptT.lift (send db s)) c =
      (.ok ((db s).run c.remembered).1, { c with remembered := ((db s).run c.remembered).2 }) :=
  rfl

/-- What a refused statement comes to. -/
def refusal (context : String) (e : ServerError) : StoreError :=
  (DatabaseError.query s!"{context}: {e.describe}").toStoreError

theorem perform_query (db : Database π) (context : String) (s : Statement) (c : Connection π) :
    perform (query db context s) c =
      match (db s).run c.remembered with
      | (.ok rows, t) => (.ok rows, { c with remembered := t })
      | (.error e, t) => (.error (refusal context e), { c with remembered := t }) := by
  show perform (ExceptT.lift (send db s) >>= _) c = _
  rw [perform_bind_of_ok (perform_send db s c)]
  rcases (db s).run c.remembered with ⟨_ | _, t⟩ <;> rfl

/-- Why a transaction was not opened. -/
def startRefusal (text : String) : StoreError :=
  (DatabaseError.connection s!"トランザクション開始に失敗しました: {text}").toStoreError

theorem perform_start (db : Database π) (c : Connection π) :
    perform (start db) c =
      if c.isClosed then (.error (startRefusal closedText), c)
      else
        match (db .start).run c.remembered with
        | (.ok _, t) => (.ok (), { c with remembered := t, isOpen := true })
        | (.error e, t) => (.error (startRefusal e.describe), { c with remembered := t }) := by
  unfold start
  dsimp only
  rw [perform_get_bind]
  split
  · rfl
  · show perform (ExceptT.lift (send db .start) >>= _) c = _
    rw [perform_bind_of_ok (perform_send db .start c)]
    rcases (db .start).run c.remembered with ⟨_ | _, t⟩ <;> rfl

theorem run_release (db : Database π) (c : Connection π) :
    (release db).run c =
      if c.isOpen then
        ((), { c with remembered := ((db .rollback).run c.remembered).2, isOpen := false })
      else ((), c) := by
  rcases c with ⟨t, _ | _, closed⟩ <;> rfl

theorem perform_finish (db : Database π) (context : String) (s : Statement) (c : Connection π) :
    perform (finish db context s) c =
      match (db s).run c.remembered with
      | (.ok _, t) => (.ok (), { c with remembered := t, isOpen := false })
      | (.error e, t) =>
        (.error (refusal context e), ((release db).run { c with remembered := t }).2) := by
  show perform (ExceptT.lift (send db s) >>= _) c = _
  rw [perform_bind_of_ok (perform_send db s c)]
  rcases (db s).run c.remembered with ⟨_ | _, t⟩ <;> rfl

/-! ## Records -/

/-- What a database with a record remembers. -/
structure Recorded (π : Type) where
  inner : π
  sent : List Statement

/-- The database, keeping a record of what it is sent. -/
def Database.recorded (db : Database π) : Database (Recorded π) := fun s r =>
  let (answer, inner) := (db s).run r.inner
  (answer, ⟨inner, r.sent ++ [s]⟩)

/-- The connection, if the database at its other end has kept a record. -/
def Connection.recording (c : Connection π) (sent : List Statement) : Connection (Recorded π) :=
  ⟨⟨c.remembered, sent⟩, c.isOpen, c.isClosed⟩

theorem run_recorded (db : Database π) (s : Statement) (c : Connection π) (sent : List Statement) :
    (db.recorded s).run (c.recording sent).remembered =
      (((db s).run c.remembered).1, ⟨((db s).run c.remembered).2, sent ++ [s]⟩) :=
  rfl

/-- One action does on a database with a record what another does without, and all statements that
it sends are allowed. -/
def Sends (allowed : Statement → Prop) (noted : StoreAction (Connection (Recorded π)) α)
    (plain : StoreAction (Connection π) α) : Prop :=
  ∀ c sent, ∃ new,
    perform noted (c.recording sent) =
      ((perform plain c).1, (perform plain c).2.recording (sent ++ new)) ∧
    ∀ s ∈ new, allowed s

namespace Sends

variable {allowed : Statement → Prop}

theorem pure (a : α) : Sends (π := π) allowed (pure a) (pure a) :=
  fun _ _ => ⟨[], by simp, by simp⟩

theorem throw (e : StoreError) :
    Sends allowed (throw e : StoreAction (Connection (Recorded π)) α) (throw e) :=
  fun _ _ => ⟨[], by simp, by simp⟩

theorem bind {x : StoreAction (Connection (Recorded π)) α} {y : StoreAction (Connection π) α}
    {f : α → StoreAction (Connection (Recorded π)) β} {g : α → StoreAction (Connection π) β}
    (hxy : Sends allowed x y) (hfg : ∀ a, Sends allowed (f a) (g a)) :
    Sends allowed (x >>= f) (y >>= g) := by
  intro c sent
  obtain ⟨new, hx, hnew⟩ := hxy c sent
  rcases hy : perform y c with ⟨e | a, d⟩ <;> rw [hy] at hx
  · exact ⟨new, by rw [perform_bind_of_error hx, perform_bind_of_error hy], hnew⟩
  · obtain ⟨more, hf, hmore⟩ := hfg a d (sent ++ new)
    refine ⟨new ++ more, ?_, ?_⟩
    · rw [perform_bind_of_ok hx, perform_bind_of_ok hy, hf, List.append_assoc]
    · intro s hs
      rcases List.mem_append.mp hs with hs | hs
      · exact hnew s hs
      · exact hmore s hs

theorem attempt {x : StoreAction (Connection (Recorded π)) α} {y : StoreAction (Connection π) α}
    (h : Sends allowed x y) : Sends allowed (attempt x) (attempt y) := by
  intro c sent
  obtain ⟨new, hx, hnew⟩ := h c sent
  refine ⟨new, ?_, hnew⟩
  rw [perform_attempt, perform_attempt, hx]

theorem answer (a : Decoding α) :
    Sends allowed (answer a : StoreAction (Connection (Recorded π)) α) (answer a) := by
  cases a with
  | ok a => exact .pure a
  | error e => exact .throw _

/-- A single statement is recorded, however it is answered. -/
theorem query (db : Database π) (context : String) {s : Statement} (h : allowed s) :
    Sends allowed (Connection.query db.recorded context s) (Connection.query db context s) := by
  intro c sent
  refine ⟨[s], ?_, by simpa using h⟩
  rw [perform_query, perform_query, run_recorded]
  rcases (db s).run c.remembered with ⟨_ | _, t⟩ <;> rfl

theorem start (db : Database π) (h : allowed .start) :
    Sends allowed (Connection.start db.recorded) (Connection.start db) := by
  intro c sent
  rw [perform_start, perform_start, run_recorded]
  by_cases hclosed : c.isClosed
  · have hclosed' : (c.recording sent).isClosed := hclosed
    refine ⟨[], ?_, by simp⟩
    rw [if_pos hclosed, if_pos hclosed', List.append_nil]
  · have hopen : ¬ (c.recording sent).isClosed := hclosed
    refine ⟨[.start], ?_, by simpa using h⟩
    rw [if_neg hclosed, if_neg hopen]
    rcases (db .start).run c.remembered with ⟨_ | _, t⟩ <;> rfl

/-- If the end of a transaction is refused, the transaction is rolled back. -/
theorem finish (db : Database π) (context : String) {s : Statement} (h : allowed s)
    (hrollback : allowed .rollback) :
    Sends allowed (Connection.finish db.recorded context s) (Connection.finish db context s) := by
  intro c sent
  rw [perform_finish, perform_finish, run_recorded]
  rcases (db s).run c.remembered with ⟨e | _, t⟩
  · dsimp only
    rw [run_release, run_release]
    by_cases hopen : c.isOpen
    · have hopen' : (c.recording sent).isOpen := hopen
      refine ⟨[s, .rollback], ?_, by simp [h, hrollback]⟩
      rw [if_pos hopen, if_pos hopen', List.append_cons sent s [.rollback]]
      rfl
    · have hdone : ¬ (c.recording sent).isOpen := hopen
      refine ⟨[s], ?_, by simpa using h⟩
      rw [if_neg hopen, if_neg hdone]
      rfl
  · exact ⟨[s], rfl, by simpa using h⟩

end Sends

end Checkout.Sql
