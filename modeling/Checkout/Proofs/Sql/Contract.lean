import Checkout.Proofs.Sql.Connection
import Checkout.Proofs.Sql.Server

/-!
# Contracts with a relational server

`Yields` is a contract between the tables that a transaction has before an action and those it has
after it. The server keeps it as long as no statement has too many parameters; so the contract is
about connections that record what is sent, and lets anything happen once an overlong statement has
been sent. A transaction of a batch keeps the contract of its inside, and commits the tables that it
comes to (`transact_yields`).
-/

namespace Checkout.Sql

open Batch StoreAction Connection

variable {π α β : Type} {db : Database π} {view : π → Server} {t t₀ : Tables}
  {c : Connection (Recorded π)}

/-- A statement has been sent that has too many parameters. -/
def Overlong (c : Connection (Recorded π)) : Prop :=
  ∃ s ∈ c.remembered.sent, parameterLimit < s.parameters.length

/-- What has been sent has been sent. -/
theorem Overlong.of_sent {d : Connection (Recorded π)} {new : List Statement} (h : Overlong c)
    (hsent : d.remembered.sent = c.remembered.sent ++ new) : Overlong d := by
  obtain ⟨s, hs, hlong⟩ := h
  exact ⟨s, hsent ▸ List.mem_append_left _ hs, hlong⟩

theorem Sends.overlong {allowed : Statement → Prop}
    {noted : StoreAction (Connection (Recorded π)) α} {plain : StoreAction (Connection π) α}
    (h : Sends allowed noted plain) (hc : Overlong c) : Overlong (perform noted c).2 := by
  obtain ⟨new, hperform, -⟩ := h ⟨c.remembered.inner, c.isOpen, c.isClosed⟩ c.remembered.sent
  exact hc.of_sent (congrArg (fun r => r.2.remembered.sent) hperform)

/-- A transaction is open that was opened on the tables `t₀`, and its own satisfy the condition. -/
def Inside (view : π → Server) (t₀ : Tables) (P : Tables → Prop) (c : Connection (Recorded π)) :
    Prop :=
  c.isClosed = false ∧ ∃ t, view c.remembered.inner = ⟨t₀, some t⟩ ∧ P t

/-- No transaction is open, and the tables satisfy the condition. -/
def Idle (view : π → Server) (P : Tables → Prop) (c : Connection (Recorded π)) : Prop :=
  c.isClosed = false ∧ ∃ t, view c.remembered.inner = ⟨t, none⟩ ∧ P t

/-- Inside a transaction, the action brings tables that satisfy `P` to an answer and tables that
satisfy `Q`, unless an overlong statement is sent. -/
def Yields (view : π → Server) (t₀ : Tables) (P : Tables → Prop)
    (action : StoreAction (Connection (Recorded π)) α) (Q : α → Tables → Prop) : Prop :=
  ∀ c, Overlong c ∨ Inside view t₀ P c →
    match perform action c with
    | (.ok a, d) => Overlong d ∨ Inside view t₀ (Q a) d
    | (.error _, d) => Overlong d

namespace Yields

variable {P : Tables → Prop} {Q : α → Tables → Prop}
  {action : StoreAction (Connection (Recorded π)) α}

theorem pure (a : α) (h : ∀ t, P t → Q a t) : Yields view t₀ P (pure a) Q := by
  intro c hc
  refine hc.imp_right ?_
  rintro ⟨hclosed, t, hview, hp⟩
  exact ⟨hclosed, t, hview, h t hp⟩

theorem bind {R : β → Tables → Prop} {f : α → StoreAction (Connection (Recorded π)) β}
    (hx : Yields view t₀ P action Q) (hf : ∀ a, Yields view t₀ (Q a) (f a) R) :
    Yields view t₀ P (action >>= f) R := by
  intro c hc
  have hanswer := hx c hc
  rw [perform_bind]
  rcases h : perform action c with ⟨e | a, d⟩ <;> rw [h] at hanswer
  · exact hanswer
  · exact hf a d hanswer

theorem mono {P' : Tables → Prop} (h : Yields view t₀ P action Q) (hp : ∀ t, P' t → P t) :
    Yields view t₀ P' action Q := by
  intro c hc
  refine h c (hc.imp_right ?_)
  rintro ⟨hclosed, t, hview, hp'⟩
  exact ⟨hclosed, t, hview, hp t hp'⟩

theorem answer {x : Decoding α} (h : ∀ t, P t → ∃ a, x = .ok a ∧ Q a t) :
    Yields view t₀ P (answer x) Q := by
  intro c hc
  rcases hc with hlong | ⟨hclosed, t, hview, hp⟩
  · cases x with
    | ok a => exact .inl hlong
    | error e => exact hlong
  · obtain ⟨a, rfl, hq⟩ := h t hp
    exact .inr ⟨hclosed, t, hview, hq⟩

/-- An admissible statement is answered as it means. -/
theorem query (hdb : Relational db view) (context : String) {s : Statement}
    {Q : List s.Row → Tables → Prop}
    (h : ∀ t, P t → s.Admissible t ∧
      ∀ rows v, Server.Step s ⟨t₀, some t⟩ rows v → ∃ t', v = ⟨t₀, some t'⟩ ∧ Q rows t') :
    Yields view t₀ P (query db.recorded context s) Q := by
  intro c hc
  have hrun : (db.recorded s).run c.remembered =
      (((db s).run c.remembered.inner).1,
        ⟨((db s).run c.remembered.inner).2, c.remembered.sent ++ [s]⟩) := rfl
  rw [perform_query, hrun]
  by_cases hlong : Overlong c ∨ parameterLimit < s.parameters.length
  · have hsent : ∃ s' ∈ c.remembered.sent ++ [s], parameterLimit < s'.parameters.length := by
      rcases hlong with ⟨s', hs', hlong⟩ | hlong
      · exact ⟨s', List.mem_append_left _ hs', hlong⟩
      · exact ⟨s, List.mem_append_right _ List.mem_cons_self, hlong⟩
    rcases (db s).run c.remembered.inner with ⟨_ | rows, p⟩
    · exact hsent
    · exact .inl hsent
  · obtain ⟨hnot, hshort⟩ := not_or.mp hlong
    obtain ⟨hclosed, t, hview, hp⟩ := hc.resolve_left hnot
    obtain ⟨hadmissible, hmeans⟩ := h t hp
    obtain ⟨rows, hrows, hstep⟩ := hdb s c.remembered.inner (Nat.le_of_not_lt hshort) (by
      rw [hview]
      exact hadmissible)
    rw [hview] at hstep
    obtain ⟨t', hview', hq⟩ := hmeans rows _ hstep
    rw [hrows]
    exact .inr ⟨hclosed, t', hview', hq⟩

end Yields

/-! ## Transactions -/

theorem perform_start_idle (hdb : Relational db view) (h : Idle view (· = t) c) :
    ∃ d, perform (start db.recorded) c = (.ok (), d) ∧ Inside view t (· = t) d := by
  obtain ⟨hclosed, t', hview, ht⟩ := h
  rw [show t' = t from ht] at hview
  obtain ⟨rows, hrows, hstep⟩ := hdb .start c.remembered.inner (Nat.zero_le _) trivial
  have hrun : (db.recorded .start).run c.remembered =
      (.ok rows, ⟨((db .start).run c.remembered.inner).2, c.remembered.sent ++ [.start]⟩) :=
    congrArg (·, _) hrows
  refine ⟨⟨⟨((db .start).run c.remembered.inner).2, c.remembered.sent ++ [.start]⟩, true,
    c.isClosed⟩, ?_, hclosed, t, ?_, rfl⟩
  · rw [perform_start, if_neg (by simp [hclosed]), hrun]
  · rw [hview] at hstep
    exact hstep

theorem perform_commit_inside (hdb : Relational db view) {P : Tables → Prop}
    (h : Inside view t₀ P c) (context : String) :
    ∃ d, perform (finish db.recorded context .commit) c = (.ok (), d) ∧ Idle view P d := by
  obtain ⟨hclosed, t, hview, hp⟩ := h
  obtain ⟨rows, hrows, hstep⟩ := hdb .commit c.remembered.inner (Nat.zero_le _) trivial
  have hrun : (db.recorded .commit).run c.remembered =
      (.ok rows, ⟨((db .commit).run c.remembered.inner).2, c.remembered.sent ++ [.commit]⟩) :=
    congrArg (·, _) hrows
  refine ⟨⟨⟨((db .commit).run c.remembered.inner).2, c.remembered.sent ++ [.commit]⟩, false,
    c.isClosed⟩, ?_, hclosed, t, ?_, hp⟩
  · rw [perform_finish, hrun]
  · rw [hview] at hstep
    exact hstep

/-- **A transaction commits what its inside comes to.** -/
theorem transact_yields (hdb : Relational db view) {requests : List Request}
    {Q : Settlement → Tables → Prop}
    (hsettle : Yields view t (· = t) (settle (store db.recorded) requests) Q)
    (h : Idle view (· = t) c) :
    match perform (transact (store db.recorded) requests) c with
    | (.ok s, d) => Overlong d ∨ Idle view (Q s) d
    | (.error _, d) => Overlong d := by
  have hends (context : String) (s : Statement) {d : Connection (Recorded π)} (hd : Overlong d) :
      Overlong (perform (finish db.recorded context s) d).2 := by
    have hsends : Sends (fun _ => True) (finish db.recorded context s) (finish db context s) :=
      .finish db context trivial trivial
    exact hsends.overlong hd
  obtain ⟨d, hstart, hinside⟩ := perform_start_idle hdb h
  rw [perform_transact, show perform (store db.recorded).start c = _ from hstart]
  dsimp only
  have hanswer := hsettle d (.inr hinside)
  rcases hsettled : perform (settle (store db.recorded) requests) d with ⟨e | s, u⟩ <;>
    rw [hsettled] at hanswer
  · exact hends _ _ hanswer
  · dsimp only at hanswer ⊢
    rcases hanswer with hlong | hinside
    · have hlong' : Overlong (perform (store db.recorded).commit u).2 := hends _ _ hlong
      rcases hcommit : perform (store db.recorded).commit u with ⟨e | _, v⟩ <;>
        rw [hcommit] at hlong'
      · exact hlong'
      · exact .inl hlong'
    · obtain ⟨v, hcommit, hidle⟩ := perform_commit_inside hdb hinside "コミットに失敗しました"
      rw [show perform (store db.recorded).commit u = _ from hcommit]
      exact .inr hidle

end Checkout.Sql
