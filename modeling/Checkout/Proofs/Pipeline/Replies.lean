import Checkout.Proofs.Pipeline.Flow

/-!
# Replies are true

Each call of the gateway is told one outcome at most, and keeps it. What it is told is true of its
request: an order is in the store; a request that was turned away is in no batch; and a request that
failed was processed in just one batch, which answered so and added nothing for it (`Truthful`).
This holds at any time after the reply, whatever else happens (`replies_truthful`).
-/

namespace Checkout

open Batch

namespace Memory

variable {ρ : Type} {m : Memory} {events : List (Event ρ)}

/-- An answer is given by one of the batches of the history. -/
theorem exists_batch_of_mem_answers {a : Answer ρ} (h : a ∈ m.answers events) :
    ∃ before batch after, events = before ++ .process batch :: after ∧
      a ∈ Batch.answers batch (m.run before) := by
  induction events generalizing m with
  | nil => cases h
  | cons event events ih =>
      rcases List.mem_append.mp h with h | h
      · cases event with
        | process batch => exact ⟨[], batch, events, rfl, h⟩
        | setStock product quantity => cases h
        | failOn operation => cases h
        | clearFailures => cases h
      · obtain ⟨before, batch, after, rfl, ha⟩ := ih h
        exact ⟨event :: before, batch, after, rfl, ha⟩

/-- What a batch of the history answers is an answer of the history. -/
theorem mem_answers_of_batch {before after : List (Event ρ)} {batch : List (Pending ρ)}
    (heq : events = before ++ .process batch :: after) {a : Answer ρ}
    (h : a ∈ Batch.answers batch (m.run before)) : a ∈ m.answers events := by
  rw [heq, answers_append]
  exact List.mem_append_right _ (List.mem_append_left _ h)

theorem isOfBatch_of_answers (h : m.Reachable) {p : Pending ρ} {e : CheckoutError}
    (hmem : (p, .error e) ∈ m.answers events) : e.isOfBatch := by
  obtain ⟨before, batch, after, -, ha⟩ := exists_batch_of_mem_answers hmem
  exact isOfBatch_of_answer (h.run before).sound ha

end Memory

namespace Pipeline

variable {m : Memory} {p q : Pipeline} {past events : List (Event Nat)}
  {told written : List (Delivery Nat)}

/-! ## Replies are final -/

theorem Change.leads (h : Change p events written q) : p.gateway.Leads q.gateway := by
  cases h with
  | conditions now isOffered isCancelled => exact .of_eq rfl
  | callers g hmoves => exact hmoves.leads
  | outside event hevent => exact .of_eq rfl
  | deliver place d hd => exact p.gateway.leads_answer p.now d
  | schedule nextTick hopen => exact .of_eq rfl
  | collect request queue hqueue => exact .of_eq rfl
  | handOver hne => exact .of_eq rfl
  | close hopen => exact p.gateway.leads_close p.now
  | drained _ _ _ => exact .of_eq rfl
  | stopped _ _ _ => exact .of_eq rfl

/-- **Calls go forward** through every run. -/
theorem leads_run (p : Pipeline) (actions : List Action) :
    p.gateway.Leads (p.run actions).gateway := by
  have hkeep : ∀ {p' events written q}, p.gateway.Leads p'.gateway →
      Change p' events written q → p.gateway.Leads q.gateway :=
    fun hlead hchange => hlead.trans hchange.leads
  exact (p.run_course actions).keeps_state hkeep (.of_eq rfl)

/-- **A reply is final.** -/
theorem reply_final {number : Nat} {t : Ticket} {time : Nat} {outcome : Outcome}
    (ht : p.gateway.tickets[number]? = some t) (hstage : t.stage = .answered time outcome)
    (actions : List Action) :
    ∃ t', (p.run actions).gateway.tickets[number]? = some t' ∧ t'.request = t.request ∧
      t'.stage = .answered time outcome := by
  obtain ⟨t', ht', hlead⟩ := p.leads_run actions number t ht
  have hsettled : t.stage.isLive = false := by simp [hstage]
  exact ⟨t', ht', hlead.request, (hlead.stage hsettled).trans hstage⟩

/-! ## Replies and answers -/

namespace Flow

variable {number : Nat} {request : Request} {outcome : Outcome}

/-- An outcome that was delivered is the answer to the request of its number. -/
theorem mem_answers_of_told (h : Flow m past told p)
    (haccepted : ⟨request, number⟩ ∈ p.gateway.accepted) (htold : ⟨number, outcome⟩ ∈ told) :
    (⟨request, number⟩, outcome) ∈ m.answers past := by
  obtain ⟨⟨r, outcome'⟩, ha, heq⟩ :=
    List.mem_map.mp (h.delivered.subset (List.mem_append_left p.outbox htold))
  obtain ⟨hresponder, rfl⟩ : r.responder = number ∧ outcome' = outcome :=
    ⟨congrArg (·.responder) heq, congrArg (·.outcome) heq⟩
  have hr : r = ⟨request, number⟩ :=
    List.inj_on_of_nodup_map h.calls.responders_nodup (h.mem_accepted ha) haccepted hresponder
  rw [← hr]
  exact ha

/-- What a call was told comes of one of three things: it was turned away, it gave up after it had
been accepted, or it was told the answer to its request. -/
theorem reply_cases (h : Flow m past told p) {t : Ticket} {time : Nat}
    (ht : p.gateway.tickets[number]? = some t) (hstage : t.stage = .answered time outcome) :
    ((outcome = .error .admissionTimeout ∨ outcome = .error .shuttingDown) ∧
      number ∉ p.gateway.accepted.map (·.responder)) ∨
    (outcome = .error .processingTimeout ∧ ⟨t.request, number⟩ ∈ p.gateway.accepted) ∨
    (⟨t.request, number⟩, outcome) ∈ m.answers past := by
  have hjust := h.calls.justified number t ht
  rw [hstage] at hjust
  cases hjust with
  | turnedAway he hnew =>
      left
      rcases he with rfl | rfl
      · exact ⟨.inl rfl, hnew⟩
      · exact ⟨.inr rfl, hnew⟩
  | gaveUp hmem => exact .inr (.inl ⟨rfl, hmem⟩)
  | told hmem hwritten => exact .inr (.inr (h.mem_answers_of_told hmem hwritten))

theorem responders_batches_nodup (h : Flow m past told p) :
    (p.batches.flatten.map (·.responder)).Nodup := by
  have hsub : p.batches.flatten.Sublist p.gateway.accepted := by
    rw [← h.accepted, List.append_assoc]
    exact List.sublist_append_left _ _
  exact h.calls.responders_nodup.sublist (hsub.map _)

/-- Who was never accepted is in no batch. -/
theorem not_mem_batch (h : Flow m past told p)
    (hnew : number ∉ p.gateway.accepted.map (·.responder)) :
    ∀ batch ∈ p.batches, ∀ r ∈ batch, r.responder ≠ number := by
  rintro batch hbatch r hr rfl
  apply hnew
  rw [← h.accepted, List.append_assoc, List.map_append]
  exact List.mem_append_left _ (List.mem_map_of_mem (List.mem_flatten.mpr ⟨batch, hbatch, hr⟩))

/-- **A call is answered once.** -/
theorem answer_unique (h : Flow m past told p) {a b : Answer Nat} (ha : a ∈ m.answers past)
    (hb : b ∈ m.answers past) (hnumber : a.1.responder = b.1.responder) : a = b := by
  have hnodup : ((m.answers past).map (·.1.responder)).Nodup := by
    have hperm := (m.answers_perm_run past).map (·.responder)
    rw [List.map_map] at hperm
    refine hperm.symm.nodup ?_
    rw [← h.batches]
    exact h.responders_batches_nodup
  exact List.inj_on_of_nodup_map hnodup ha hb hnumber

/-- A request that was answered is in the batches once. -/
theorem count_batches (h : Flow m past told p) {a : Answer Nat} (ha : a ∈ m.answers past) :
    (p.batches.flatten.map (·.responder)).count a.1.responder = 1 :=
  List.count_eq_one_of_mem h.responders_batches_nodup (List.mem_map_of_mem (h.mem_batches ha))

end Flow

/-! ## What replies say -/

/-- The request `p` was answered with the outcome in a batch of the history, and all that this batch
took from stock and added was sold to others. -/
def RefusedIn (m : Memory) (history : List (Event Nat)) (p : Pending Nat) (outcome : Outcome) :
    Prop :=
  ∃ before batch after orders, history = before ++ .process batch :: after ∧
    (p, outcome) ∈ Batch.answers batch (m.run before) ∧
    (m.run before).contents.Sale orders (processInMemory batch (m.run before)).2.contents ∧
    ∀ o ∈ orders, ∃ r, r.responder ≠ p.responder ∧ (r, .ok o) ∈ Batch.answers batch (m.run before)

/-- What the call of `p` was told is true, after the store has gone from `m` through `history`. -/
inductive Truthful (m : Memory) (history : List (Event Nat)) (q : Pipeline) (p : Pending Nat) :
    Outcome → Prop
  /-- An order is in the store, and it is what was asked for or a part of it. -/
  | committed {o : Order} (hfound : q.memory.contents.order? p.request.order = some o)
      (hheader : o.toHeader = p.request.header) (hne : o.items ≠ [])
      (hasked : o.items.Sublist p.request.items)
      (honce : (q.batches.flatten.map (·.responder)).count p.responder = 1) :
      Truthful m history q p (.ok o)
  /-- Who was turned away is in no batch. -/
  | turnedAway {e : CheckoutError} (he : e = .admissionTimeout ∨ e = .shuttingDown)
      (hnone : ∀ batch ∈ q.batches, ∀ r ∈ batch, r.responder ≠ p.responder) :
      Truthful m history q p (.error e)
  /-- Who was told a failure of its batch is in one batch only, and nothing was added for it. -/
  | refused {e : CheckoutError} (he : e.isOfBatch)
      (honce : (q.batches.flatten.map (·.responder)).count p.responder = 1)
      (hrefused : RefusedIn m history p (.error e)) : Truthful m history q p (.error e)
  /-- Who gave up waiting for the outcome was accepted, and is in one batch at most. -/
  | gaveUp (haccepted : p ∈ q.gateway.accepted)
      (honce : (q.batches.flatten.map (·.responder)).count p.responder ≤ 1) :
      Truthful m history q p (.error .processingTimeout)

namespace Flow

theorem refusedIn (h : Flow m past told p) (hreachable : m.Reachable) {r : Pending Nat}
    {e : CheckoutError} (ha : (r, .error e) ∈ m.answers past) :
    RefusedIn m past r (.error e) := by
  obtain ⟨before, batch, after, heq, hanswer⟩ := Memory.exists_batch_of_mem_answers ha
  have hsale := sale_of_answers (hreachable.run before).sound batch
  refine ⟨before, batch, after, _, heq, hanswer, hsale, fun o ho => ?_⟩
  obtain ⟨s, hs⟩ := Answer.mem_orders.mp ho
  refine ⟨s, fun hresponder => ?_, hs⟩
  -- the request is answered once, and not with an order
  have hsame := h.answer_unique (Memory.mem_answers_of_batch heq hs) ha hresponder
  cases hsame

theorem truthful_of_answer (h : Flow m past told p) (hreachable : m.Reachable) {r : Pending Nat}
    {outcome : Outcome} (ha : (r, outcome) ∈ m.answers past) : Truthful m past p r outcome := by
  have honce := h.count_batches ha
  cases outcome with
  | ok o =>
      obtain ⟨-, hfound, hheader, hne, hasked⟩ := Memory.order_of_answers hreachable.sound ha
      rw [Order.id_eq_order hheader, ← h.memory] at hfound
      exact .committed hfound hheader hne hasked honce
  | error e =>
      exact .refused (Memory.isOfBatch_of_answers hreachable ha) honce (h.refusedIn hreachable ha)

/-- **A reply is true** at any time. -/
theorem truthful (h : Flow m past told p) (hreachable : m.Reachable) {number : Nat} {t : Ticket}
    {time : Nat} {outcome : Outcome} (ht : p.gateway.tickets[number]? = some t)
    (hstage : t.stage = .answered time outcome) :
    Truthful m past p ⟨t.request, number⟩ outcome := by
  rcases h.reply_cases ht hstage with ⟨rfl | rfl, hnew⟩ | ⟨rfl, haccepted⟩ | hanswer
  · exact .turnedAway (.inl rfl) (h.not_mem_batch hnew)
  · exact .turnedAway (.inr rfl) (h.not_mem_batch hnew)
  · refine .gaveUp haccepted ?_
    exact List.nodup_iff_count_le_one.mp h.responders_batches_nodup number
  · exact h.truthful_of_answer hreachable hanswer

end Flow

/-- **Replies are true.** Calls are made, wait, give up and go away, the windower collects and hands
over, failures come and go, and the pipeline may be shut down at any time, all in any sequence. If
a call has been told an outcome, then whatever happens after that, it keeps this outcome and is told
no other, and the outcome is true of its request. -/
theorem replies_truthful (h : m.Reachable) (config : PipelineConfig) (actions more : List Action)
    {number : Nat} {t : Ticket} {time : Nat} {outcome : Outcome}
    (ht : ((new config m).run actions).gateway.tickets[number]? = some t)
    (hstage : t.stage = .answered time outcome) :
    let later := (new config m).run (actions ++ more)
    (∃ t', later.gateway.tickets[number]? = some t' ∧ t'.request = t.request ∧
      t'.stage = .answered time outcome) ∧
    Truthful m ((new config m).history (actions ++ more)) later ⟨t.request, number⟩ outcome := by
  have hflow := run_flow config m (actions ++ more)
  have hfinal := reply_final ht hstage more
  rw [← run_append] at hfinal
  refine ⟨hfinal, ?_⟩
  obtain ⟨t', ht', hrequest, hstage'⟩ := hfinal
  rw [← hrequest]
  exact hflow.truthful h ht' hstage'

/-- The second call has been told after eight actions that nothing is left for it. -/
theorem replies_truthful_sample :
    let actions := Sample.actions.take 8
    let later := Sample.pipeline.run (actions ++ Sample.actions.drop 8)
    (Sample.pipeline.run actions).gateway.tickets[1]? =
      some ⟨Sample.second, 100, .answered 0 (.error .outOfStock)⟩ ∧
    (∃ t', later.gateway.tickets[1]? = some t' ∧ t'.request = Sample.second ∧
      t'.stage = .answered 0 (.error .outOfStock)) ∧
    Truthful Sample.store (Sample.pipeline.history (actions ++ Sample.actions.drop 8)) later
      ⟨Sample.second, 1⟩ (.error .outOfStock) := by
  intro actions later
  have ht : (Sample.pipeline.run actions).gateway.tickets[1]? =
      some ⟨Sample.second, 100, .answered 0 (.error .outOfStock)⟩ := by rfl
  exact ⟨ht, replies_truthful Sample.store_reachable ⟨2, 100, 10, some 2⟩ actions
    (Sample.actions.drop 8) ht rfl⟩

end Pipeline

end Checkout
