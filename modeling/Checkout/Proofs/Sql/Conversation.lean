import Checkout.Proofs.Sql.Actions
import Checkout.Proofs.Sql.Silence
import Checkout.Proofs.Sql.Wording
import Checkout.Proofs.Store.Journal

/-!
# Bulk calls in full

`Database.transcribed` is a database that writes down what it is sent together with its answer. Of a
bulk call, a list is cut into parts, and a statement is sent for each part. The transcript tells
that the statements say just what the parts have to say, in their sequence; that a refused one is
the last; and that all parts come to be sent if every statement is accepted
(`asked_in_full`). The rows that answer a question for identifiers are read before the next
statement is sent, so there acceptance alone is not enough (`cut_off_unread`).
-/

namespace Checkout

open StoreAction

namespace Call

/-! ## Parts of a call -/

/-- The call is one that has a list of rows. -/
def hasRows : Call → Bool
  | .start | .commit | .rollback => false
  | _ => true

/-- A long list of the call is cut up. -/
def isLimited : Call → Bool
  | .existingOrders _ | .existingItems _ | .insertOrders _ | .insertItems _ => true
  | _ => false

/-- The parts are calls for consecutive pieces of a call's list. None is for nothing. Where a long
list is cut up, only the last part may be shorter than the others, and elsewhere there is but one. -/
structure Cut (call : Call) (parts : List Call) : Prop where
  name : ∀ part ∈ parts, part.name = call.name
  rows : parts.flatMap Call.rows = call.rows
  ne_nil : ∀ part ∈ parts, part.rows ≠ []
  length_le : call.isLimited → ∀ part ∈ parts, part.rows.length ≤ 1000
  full : call.isLimited → ∀ part ∈ parts.dropLast, part.rows.length = 1000
  single : call.isLimited = false → parts.length ≤ 1

end Call

namespace Sql

open Connection Statement Wording

variable {π α β : Type}

/-! ## Pieces of a list -/

theorem chunks_map (f : α → β) (l : List α) : chunks (l.map f) = (chunks l).map (·.map f) := by
  fun_induction chunks l with
  | case1 =>
      unfold chunks
      rfl
  | case2 a as ih =>
      rw [List.map_drop] at ih
      rw [List.map_cons, chunks, ← List.map_cons, ih]
      show _ = ((a :: as).take rowsPerStatement).map f :: _
      rw [List.map_take]

theorem length_of_mem_dropLast_chunks {l part : List α} (h : part ∈ (chunks l).dropLast) :
    part.length = rowsPerStatement := by
  fun_induction chunks l with
  | case1 => cases h
  | case2 a as ih =>
      by_cases hrest : chunks ((a :: as).drop rowsPerStatement) = []
      · rw [hrest] at h
        cases h
      rw [List.dropLast_cons_of_ne_nil hrest] at h
      rcases List.mem_cons.mp h with rfl | h
      · -- something is left, so the first piece is full
        refine List.length_take_of_le (Nat.le_of_not_lt fun hshort => hrest ?_)
        rw [List.drop_of_length_le (Nat.le_of_lt hshort)]
        unfold chunks
        rfl
      · exact ih h

/-- A list that is cut up. -/
theorem cut_chunks {make : List α → Call} {row : α → List Parameter} (l : List α)
    (hname : ∀ l l', (make l).name = (make l').name) (hrows : ∀ l, (make l).rows = l.map row)
    (hlimited : (make l).isLimited) : (make l).Cut ((chunks l).map make) where
  name part hpart := by
    obtain ⟨piece, -, rfl⟩ := List.mem_map.mp hpart
    exact hname _ _
  rows := by
    rw [List.flatMap_map, hrows]
    simp only [hrows]
    rw [List.flatMap_def, ← List.map_flatten, flatten_chunks]
  ne_nil part hpart := by
    obtain ⟨piece, hpiece, rfl⟩ := List.mem_map.mp hpart
    rw [hrows]
    exact fun hnil => ne_nil_of_mem_chunks hpiece (List.map_eq_nil_iff.mp hnil)
  length_le _ part hpart := by
    obtain ⟨piece, hpiece, rfl⟩ := List.mem_map.mp hpart
    rw [hrows, List.length_map]
    exact length_le_of_mem_chunks hpiece
  full _ part hpart := by
    rw [← List.map_dropLast] at hpart
    obtain ⟨piece, hpiece, rfl⟩ := List.mem_map.mp hpart
    rw [hrows, List.length_map]
    exact length_of_mem_dropLast_chunks hpiece
  single h := by
    rw [hlimited] at h
    cases h

/-- A list that is not cut up. -/
theorem cut_whole {make : List α → Call} {row : α → List Parameter} (l : List α)
    (hrows : (make l).rows = l.map row) (hlimited : (make l).isLimited = false) :
    (make l).Cut (if l.isEmpty then [] else [make l]) := by
  have hone : ∀ part ∈ (if l.isEmpty then [] else [make l]), part = make l ∧ l ≠ [] := by
    intro part hpart
    split at hpart
    · cases hpart
    next hne => exact ⟨List.mem_singleton.mp hpart, fun hnil => hne (List.isEmpty_iff.mpr hnil)⟩
  refine ⟨fun part hpart => by rw [(hone part hpart).1], ?_, fun part hpart => ?_,
    fun h => ?_, fun h => ?_, fun _ => ?_⟩
  · split
    next hnil =>
      rw [hrows, List.isEmpty_iff.mp hnil]
      rfl
    · exact List.flatMap_singleton _ _
  · obtain ⟨rfl, hne⟩ := hone part hpart
    rw [hrows]
    exact fun hnil => hne (List.map_eq_nil_iff.mp hnil)
  · rw [hlimited] at h
    cases h
  · rw [hlimited] at h
    cases h
  · split <;> simp

/-! ## Transcripts -/

/-- A statement, and what it was answered. -/
structure Exchange where
  statement : Statement
  answer : Except ServerError (List statement.Row)

namespace Exchange

/-- The statement was refused. -/
def Refused (x : Exchange) : Prop := ∃ e, x.answer = .error e

/-- If the rows are identifiers, they can be read. Other rows may be anything. -/
def Readable : (s : Statement) → List s.Row → Prop
  | .selectIds _ _, cells => ∀ c ∈ cells, c.text?.isSome
  | _, _ => True

/-- The statement was accepted, and the identifiers that answer it can be read. -/
def Understood (x : Exchange) : Prop := ∃ rows, x.answer = .ok rows ∧ Readable x.statement rows

/-- What the statement said, if it had exactly one parameter for each of its places. -/
def said? (x : Exchange) : Option Wording := x.statement.filled?

theorem Refused.not_understood {x : Exchange} (h : x.Refused) : ¬ x.Understood := by
  obtain ⟨e, he⟩ := h
  rintro ⟨rows, hrows, -⟩
  rw [he] at hrows
  cases hrows

end Exchange

/-- What a database with a transcript remembers. -/
structure Transcribed (π : Type) where
  inner : π
  exchanges : List Exchange

/-- The database, writing down what it is sent and what it answers. -/
def Database.transcribed (db : Database π) : Database (Transcribed π) := fun s t =>
  let (answer, inner) := (db s).run t.inner
  (answer, ⟨inner, t.exchanges ++ [⟨s, answer⟩]⟩)

/-- The connection, if the database at its other end has written a transcript. -/
def Connection.transcribing (c : Connection π) (past : List Exchange) :
    Connection (Transcribed π) :=
  ⟨⟨c.remembered, past⟩, c.isOpen, c.isClosed⟩

/-- Exchanges in which one thing after the other is said, until a statement is not understood. -/
inductive Conversation : List Wording → List Exchange → Prop where
  | done : Conversation [] []
  | next {w : Wording} {ws : List Wording} {x : Exchange} {xs : List Exchange}
      (said : x.said? = some w) (understood : x.Understood) (rest : Conversation ws xs) :
      Conversation (w :: ws) (x :: xs)
  | stopped {w : Wording} {x : Exchange} (ws : List Wording) (said : x.said? = some w)
      (misunderstood : ¬ x.Understood) : Conversation (w :: ws) [x]

namespace Conversation

variable {ws : List Wording} {xs : List Exchange}

theorem said_eq (h : Conversation ws xs) : ∀ x ∈ xs, ∃ w, x.said? = some w := by
  induction h with
  | done => exact fun x hx => nomatch hx
  | next said _ _ ih => exact List.forall_mem_cons.mpr ⟨⟨_, said⟩, ih⟩
  | stopped ws said _ => exact List.forall_mem_singleton.mpr ⟨_, said⟩

theorem said_prefix (h : Conversation ws xs) : xs.map (·.said?) <+: ws.map some := by
  induction h with
  | done => exact List.nil_prefix
  | next said _ _ ih => exact List.cons_prefix_cons.mpr ⟨said, ih⟩
  | stopped ws said _ => exact List.cons_prefix_cons.mpr ⟨said, List.nil_prefix⟩

theorem eq_nil_of_refused {before after : List Exchange} {x : Exchange} (h : Conversation ws xs)
    (hxs : xs = before ++ x :: after) (hx : x.Refused) : after = [] := by
  induction h generalizing before with
  | done => simp at hxs
  | next _ understood _ ih =>
      cases before with
      | nil =>
          cases hxs
          exact absurd understood hx.not_understood
      | cons y before => exact ih (List.cons.inj hxs).2
  | stopped ws _ _ =>
      cases before with
      | nil => exact (List.cons.inj hxs).2.symm
      | cons y before => simp at hxs

theorem said_of_understood (h : Conversation ws xs) (hxs : ∀ x ∈ xs, x.Understood) :
    xs.map (·.said?) = ws.map some := by
  induction h with
  | done => rfl
  | next said _ _ ih =>
      obtain ⟨-, hrest⟩ := List.forall_mem_cons.mp hxs
      rw [List.map_cons, List.map_cons, said, ih hrest]
  | stopped ws _ misunderstood => exact absurd (hxs _ List.mem_cons_self) misunderstood

end Conversation

/-- One action does on a database with a transcript what another does without, and its part of the
transcript is a conversation in which the given things are said. -/
def Converses (ws : List Wording) (noted : StoreAction (Connection (Transcribed π)) α)
    (plain : StoreAction (Connection π) α) : Prop :=
  ∀ c past, ∃ new,
    perform noted (c.transcribing past) =
      ((perform plain c).1, (perform plain c).2.transcribing (past ++ new)) ∧
    Conversation ws new

namespace Converses

variable {ws : List Wording}

theorem pure (a : α) : Converses (π := π) [] (pure a) (pure a) :=
  fun _ _ => ⟨[], by simp, .done⟩

theorem throw (e : StoreError) :
    Converses [] (throw e : StoreAction (Connection (Transcribed π)) α) (throw e) :=
  fun _ _ => ⟨[], by simp, .done⟩

theorem answer (a : Decoding α) :
    Converses [] (answer a : StoreAction (Connection (Transcribed π)) α) (answer a) := by
  cases a with
  | ok a => exact .pure a
  | error e => exact .throw _

/-- What follows says nothing more. -/
theorem bind {x : StoreAction (Connection (Transcribed π)) α} {y : StoreAction (Connection π) α}
    {f : α → StoreAction (Connection (Transcribed π)) β} {g : α → StoreAction (Connection π) β}
    (hxy : Converses ws x y) (hfg : ∀ a, Converses [] (f a) (g a)) :
    Converses ws (x >>= f) (y >>= g) := by
  intro c past
  obtain ⟨new, hx, hnew⟩ := hxy c past
  rcases hy : perform y c with ⟨e | a, d⟩ <;> rw [hy] at hx
  · exact ⟨new, by rw [perform_bind_of_error hx, perform_bind_of_error hy], hnew⟩
  · obtain ⟨more, hf, hmore⟩ := hfg a d (past ++ new)
    cases hmore
    rw [List.append_nil] at hf
    exact ⟨new, by rw [perform_bind_of_ok hx, perform_bind_of_ok hy, hf], hnew⟩

/-- A statement, and what is made of its rows. If they can be read, other things may be said. -/
theorem query_bind (db : Database π) (context : String) {s : Statement} {w : Wording}
    {f : List s.Row → StoreAction (Connection (Transcribed π)) β}
    {g : List s.Row → StoreAction (Connection π) β} (hsaid : s.filled? = some w)
    (hread : ∀ rows, Exchange.Readable s rows → Converses ws (f rows) (g rows))
    (hstop : ∀ rows, ¬ Exchange.Readable s rows → Converses [] (f rows) (g rows)) :
    Converses (w :: ws) (query db.transcribed context s >>= f) (query db context s >>= g) := by
  intro c past
  have hnoted : (db.transcribed s).run (c.transcribing past).remembered =
      (((db s).run c.remembered).1,
        ⟨((db s).run c.remembered).2, past ++ [⟨s, ((db s).run c.remembered).1⟩]⟩) := rfl
  have hx := perform_query db.transcribed context s (c.transcribing past)
  have hy := perform_query db context s c
  rcases hrun : (db s).run c.remembered with ⟨e | rows, t⟩ <;> rw [hnoted, hrun] at hx <;>
    rw [hrun] at hy
  · refine ⟨[⟨s, .error e⟩], ?_, .stopped ws hsaid ?_⟩
    · rw [perform_bind_of_error hx, perform_bind_of_error hy]
      rfl
    · exact Exchange.Refused.not_understood ⟨e, rfl⟩
  · rw [perform_bind_of_ok hx, perform_bind_of_ok hy]
    by_cases hrows : Exchange.Readable s rows
    · obtain ⟨more, hf, hmore⟩ :=
        hread rows hrows { c with remembered := t } (past ++ [⟨s, .ok rows⟩])
      refine ⟨⟨s, .ok rows⟩ :: more, ?_, .next hsaid ⟨rows, rfl, hrows⟩ hmore⟩
      rw [List.append_cons past _ more]
      exact hf
    · obtain ⟨more, hf, hmore⟩ :=
        hstop rows hrows { c with remembered := t } (past ++ [⟨s, .ok rows⟩])
      cases hmore
      rw [List.append_nil] at hf
      refine ⟨[⟨s, .ok rows⟩], hf, .stopped ws hsaid ?_⟩
      rintro ⟨rows', hok, hread'⟩
      cases hok
      exact hrows hread'

/-! ## What the actions of the store say -/

variable (db : Database π)

theorem sendAll (context : String) {say : α → Statement} {word : α → Wording}
    (hsaid : ∀ a, (say a).filled? = some (word a))
    (hread : ∀ a rows, Exchange.Readable (say a) rows) (as : List α) :
    Converses (as.map word) (sendAll db.transcribed context (as.map say))
      (sendAll db context (as.map say)) := by
  induction as with
  | nil => exact .pure _
  | cons a as ih =>
      refine query_bind db context (hsaid a) ?_ ?_
      · intro rows hrows
        exact ih
      · intro rows hrows
        exact absurd (hread a rows) hrows

/-- A question of which the rows are read at the end. -/
theorem ask (context : String) {s : Statement} {w : Wording} (hsaid : s.filled? = some w)
    (hread : ∀ rows, Exchange.Readable s rows) (read : List s.Row → Decoding α) :
    Converses [w] (query db.transcribed context s >>= fun rows => Sql.answer (read rows))
      (query db context s >>= fun rows => Sql.answer (read rows)) := by
  refine query_bind db context hsaid ?_ ?_
  · intro rows hrows
    exact .answer _
  · intro rows hrows
    exact absurd (hread rows) hrows

end Converses

/-- Cells are read as texts, or the first that is none is the failure. -/
theorem mapM_text (context : String) (cells : List Cell) :
    (∃ texts, cells.mapM (fun c => decoded context c.text?) = .ok texts ∧
        ∀ c ∈ cells, c.text?.isSome) ∨
      (cells.mapM (fun c => decoded context c.text?) = .error (.decode context) ∧
        ¬ ∀ c ∈ cells, c.text?.isSome) := by
  induction cells with
  | nil => exact .inl ⟨[], rfl, fun c hc => nomatch hc⟩
  | cons c cells ih =>
      rw [List.mapM_cons, List.forall_mem_cons]
      cases c.text? with
      | none => exact .inr ⟨rfl, by simp⟩
      | some text =>
          rcases ih with ⟨texts, htexts, hall⟩ | ⟨hfault, hnot⟩
          · exact .inl ⟨text :: texts, by rw [htexts]; rfl, rfl, hall⟩
          · exact .inr ⟨by rw [hfault]; rfl, fun h => hnot h.2⟩

namespace Converses

variable (db : Database π) {kind : Kind}

/-- The rows of each statement are read before the next statement is sent. -/
theorem existingTexts (table : Table) {word : List (Identifier kind) → Wording}
    (hsaid : ∀ ids, (selectIds table (ids.map toString)).filled? = some (word ids))
    (parts : List (List (Identifier kind))) :
    Converses (parts.map word)
      (existingTexts db.transcribed table (parts.map (·.map toString)))
      (existingTexts db table (parts.map (·.map toString))) := by
  induction parts with
  | nil => exact .pure _
  | cons ids parts ih =>
      refine query_bind db _ (hsaid ids) ?_ ?_
      all_goals
        intro cells hcells
        rcases mapM_text "既存IDの取得に失敗しました" cells with
          ⟨texts, htexts, hall⟩ | ⟨hfault, hnot⟩
      · rw [htexts]
        show Converses _ (Sql.existingTexts _ _ _ >>= _) (Sql.existingTexts _ _ _ >>= _)
        exact bind ih fun more => .pure _
      · exact absurd hcells hnot
      · exact absurd hall hcells
      · rw [hfault]
        exact .throw _

theorem existingIds (table : Table) (context : String) {word : List (Identifier kind) → Wording}
    (hsaid : ∀ ids, (selectIds table (ids.map toString)).filled? = some (word ids))
    (ids : List (Identifier kind)) :
    Converses ((chunks ids).map word) (existingIds db.transcribed table context ids)
      (existingIds db table context ids) := by
  unfold Sql.existingIds
  rw [chunks_map]
  exact bind (existingTexts db table hsaid _) fun texts => .answer _

end Converses

/-! ## Bulk calls -/

/-- Of every bulk call, the parts are said one after the other. -/
theorem converses_of_call (db : Database π) {call : Call} (h : call.hasRows) :
    ∃ parts, call.Cut parts ∧ Converses (parts.map Call.wording)
      (call.carryOut (store db.transcribed)) (call.carryOut (store db)) := by
  have hasked (table : Table) (head : String) (hhead : '?' ∉ head.toList)
      (htext : s!"SELECT id FROM {table.name} WHERE id IN " = head) (context : String)
      {kind : Kind} (ids : List (Identifier kind)) :=
    Converses.bind (g := fun _ => Pure.pure ())
      (Converses.existingIds db table context (filled?_selectIds hhead htext) ids)
      fun _ => .pure ()
  cases call with
  | existingOrders ids =>
      refine ⟨_, cut_chunks ids (fun _ _ => rfl) (fun _ => rfl) rfl, ?_⟩
      rw [List.map_map]
      exact hasked .orders _ (by decide) rfl _ ids
  | existingItems ids =>
      refine ⟨_, cut_chunks ids (fun _ _ => rfl) (fun _ => rfl) rfl, ?_⟩
      rw [List.map_map]
      exact hasked .orderItems _ (by decide) rfl _ ids
  | fetchStock ids =>
      refine ⟨_, cut_whole ids rfl rfl, ?_⟩
      show Converses _ ((if ids.isEmpty then _ else _) >>= _) ((if ids.isEmpty then _ else _) >>= _)
      split
      · exact Converses.bind (.pure _) fun _ => .pure _
      · exact Converses.bind (.ask db _ (filled?_selectStock ids) (fun _ => trivial) _)
          fun _ => .pure _
  | fetchOrders ids =>
      refine ⟨_, cut_whole ids rfl rfl, ?_⟩
      show Converses _ ((if ids.isEmpty then _ else _) >>= _) ((if ids.isEmpty then _ else _) >>= _)
      split
      · exact Converses.bind (.pure _) fun _ => .pure _
      · exact Converses.bind (.ask db _ (filled?_selectOrders ids) (fun _ => trivial) _)
          fun _ => .pure _
  | decrementStock ds =>
      refine ⟨_, cut_whole ds rfl rfl, ?_⟩
      have hall := Converses.sendAll db "在庫の更新に失敗しました" filled?_decrementStock
        (fun _ _ => trivial) (if ds.isEmpty then [] else [ds])
      rw [apply_ite (List.map _), apply_ite (List.map _)] at hall
      rwa [apply_ite (List.map _)]
  | insertOrders orders =>
      refine ⟨_, cut_chunks orders (fun _ _ => rfl) (fun _ => rfl) rfl, ?_⟩
      rw [List.map_map]
      exact Converses.sendAll db _ filled?_insertOrders (fun _ _ => trivial) (chunks orders)
  | insertItems items =>
      refine ⟨_, cut_chunks items (fun _ _ => rfl) (fun _ => rfl) rfl, ?_⟩
      rw [List.map_map]
      exact Converses.sendAll db _ filled?_insertItems (fun _ _ => trivial) (chunks items)
  | _ => cases h

/-- **A bulk call is asked in full**, whatever its list and whatever the database. The list is cut
into parts. Every statement that is sent has as many places as parameters, and with these in its
places it says what one of the parts says: the first statement what the first part says, and so on.
For an empty list nothing is sent, and behind a refused statement nothing is. If every statement is
accepted, and the identifiers in the answers can be read, all parts come to be said. -/
theorem asked_in_full (db : Database π) (call : Call) (h : call.hasRows) (c : Connection π)
    (past : List Exchange) :
    ∃ parts new, call.Cut parts ∧
      perform (call.carryOut (store db.transcribed)) (c.transcribing past) =
        ((perform (call.carryOut (store db)) c).1,
          (perform (call.carryOut (store db)) c).2.transcribing (past ++ new)) ∧
      (∀ x ∈ new, x.statement.chars.count '?' = x.statement.parameters.length) ∧
      new.map (·.said?) <+: parts.map (some ·.wording) ∧
      (call.rows = [] → new = []) ∧
      (∀ before x after, new = before ++ x :: after → x.Refused → after = []) ∧
      ((∀ x ∈ new, x.Understood) → new.map (·.said?) = parts.map (some ·.wording)) := by
  obtain ⟨parts, hcut, hconverses⟩ := converses_of_call db h
  obtain ⟨new, hperform, hnew⟩ := hconverses c past
  have hwords : (parts.map Call.wording).map some = parts.map (some ·.wording) := List.map_map ..
  have hprefix := hnew.said_prefix
  rw [hwords] at hprefix
  refine ⟨parts, new, hcut, hperform, ?_, hprefix, ?_, ?_, ?_⟩
  · intro x hx
    obtain ⟨w, hw⟩ := hnew.said_eq x hx
    exact count_of_filled? hw
  · intro hrows
    have hparts : parts = [] := by
      have hall := hcut.rows
      rw [hrows, List.flatMap_eq_nil_iff] at hall
      exact List.eq_nil_iff_forall_not_mem.mpr fun part hpart =>
        hcut.ne_nil part hpart (hall part hpart)
    rw [hparts, List.map_nil, List.prefix_nil, List.map_eq_nil_iff] at hprefix
    exact hprefix
  · intro before x after
    exact hnew.eq_nil_of_refused
  · intro hunderstood
    rw [hnew.said_of_understood hunderstood, hwords]

/-- Two pieces of one product are taken, and one of another. -/
def takesTwo : Call := .decrementStock [⟨Sample.firstProduct, 2⟩, ⟨Sample.secondProduct, 1⟩]

/-- The exchanges of a call on a database that follows a script. -/
def exchangesOf (call : Call) (replies : List Reply) : List Exchange :=
  (perform (call.carryOut (store Script.database.transcribed))
    (.transcribing (.new ⟨replies, []⟩) [])).2.remembered.exchanges

theorem asked_in_full_sample :
    takesTwo.hasRows ∧ ∃ parts, takesTwo.Cut parts ∧
      (exchangesOf takesTwo []).map (·.said?) = parts.map (some ·.wording) := by
  obtain ⟨parts, new, hcut, hperform, -, -, -, -, hall⟩ :=
    asked_in_full Script.database takesTwo rfl (.new ⟨[], []⟩) []
  have hnew : exchangesOf takesTwo [] = new := congrArg (·.2.remembered.exchanges) hperform
  refine ⟨rfl, parts, hcut, ?_⟩
  rw [hnew]
  refine hall ?_
  rw [← hnew]
  exact List.forall_mem_singleton.mpr ⟨[], rfl, trivial⟩

/-! ### A question that is not asked in full

Of 1001 orders it is asked whether they exist. The first statement is accepted, and answered with a
number instead of an identifier. -/

/-- More orders than go into one statement. -/
def manyOrders : List OrderId := (List.finRange 1001).map (Sample.crowdId (by decide))

theorem length_manyOrders : manyOrders.length = 1001 := by
  unfold manyOrders
  rw [List.length_map, List.length_finRange]

/-- One row, with a number in it. -/
def numberedReply : Reply := .rows [("id", .int)] [[.integer 5]]

theorem exchangesOf_numbered {ids : List OrderId} (h : ids ≠ []) :
    exchangesOf (.existingOrders ids) [numberedReply] =
      [⟨.selectIds .orders ((ids.map toString).take rowsPerStatement),
        .ok [⟨.int, .integer 5⟩]⟩] := by
  cases ids with
  | nil => exact absurd rfl h
  | cons id ids =>
      unfold exchangesOf Call.carryOut
      dsimp only [store]
      unfold existingIds
      rw [List.map_cons, chunks]
      rfl

/-- **An answer that cannot be read cuts a call off**: no statement is refused, but one identifier
is not asked for. -/
theorem cut_off_unread :
    (∀ x ∈ exchangesOf (.existingOrders manyOrders) [numberedReply], ¬ x.Refused) ∧
      manyOrders.length = 1001 ∧
      ((exchangesOf (.existingOrders manyOrders) [numberedReply]).flatMap
        (·.statement.parameters)).length = 1000 := by
  have hne : manyOrders ≠ [] := by
    rw [← List.length_pos_iff, length_manyOrders]
    decide
  rw [exchangesOf_numbered hne]
  refine ⟨List.forall_mem_singleton.mpr ?_, length_manyOrders, ?_⟩
  · rintro ⟨e, he⟩
    cases he
  · rw [List.flatMap_singleton, length_parameters_selectIds, List.length_take, List.length_map,
      length_manyOrders]
    rfl

end Sql

end Checkout
