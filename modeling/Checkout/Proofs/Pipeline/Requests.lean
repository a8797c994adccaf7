import Checkout.Proofs.Pipeline.Replies

/-!
# Requests and their calls

A request that is accepted is the one of the call whose number it bears (`Gateway.Registered`), also
if the caller has gone away. So whatever happens before and after a call, all that is answered under
its number is answered to the request of this call (`request_of_answer`). If no calls are taken any
more, there will never be a call of that number at all.
-/

namespace Checkout

namespace Gateway

variable {g g' : Gateway}

/-- Every request that was accepted is the one of the call of its number. -/
def Registered (g : Gateway) : Prop :=
  ∀ p ∈ g.accepted, ∃ t, g.tickets[p.responder]? = some t ∧ t.request = p.request

namespace Registered

theorem new (capacity timeout : Nat) : Registered (.new capacity timeout) :=
  fun _ h => absurd h List.not_mem_nil

/-- Calls that go forward keep their requests. -/
theorem leads (h : g.Registered) (hleads : g.Leads g') (haccepted : g'.accepted = g.accepted) :
    g'.Registered := by
  intro p hp
  obtain ⟨t, ht, hrequest⟩ := h p (haccepted ▸ hp)
  obtain ⟨t', ht', hlead⟩ := hleads p.responder t ht
  exact ⟨t', ht', hlead.request.trans hrequest⟩

/-- A request is accepted under the number of its call. -/
theorem enqueue (h : g.Registered) (hleads : g.Leads g') {p : Pending Nat}
    (haccepted : g'.accepted = g.accepted ++ [p]) {t : Ticket}
    (ht : g'.tickets[p.responder]? = some t) (hrequest : t.request = p.request) :
    g'.Registered := by
  intro q hq
  rw [haccepted] at hq
  rcases List.mem_append.mp hq with hq | hq
  · obtain ⟨t', ht', hrequest'⟩ := h q hq
    obtain ⟨t'', ht'', hlead⟩ := hleads q.responder t' ht'
    exact ⟨t'', ht'', hlead.request.trans hrequest'⟩
  · rw [List.mem_singleton.mp hq]
    exact ⟨t, ht, hrequest⟩

theorem moves (h : g.Registered) (hmoves : g.Moves g') : g'.Registered := by
  have hleads := hmoves.leads
  cases hmoves with
  | stay => exact h
  | refuse t hstage => exact h.leads hleads rfl
  | wait t hopen hstage => exact h.leads hleads rfl
  | enter t hopen hstage =>
      exact h.enqueue hleads rfl List.getElem?_concat_length rfl
  | letIn number t hopen ht hstage =>
      refine h.enqueue (t := { t with stage := .accepted }) hleads rfl ?_ rfl
      show (g.tickets.modify number _)[number]? = _
      simp [ht]
  | giveUp number change hgives => exact h.leads hleads rfl

end Registered

theorem length_letIn (g : Gateway) : g.letIn.tickets.length = g.tickets.length := by
  unfold letIn
  split
  · rfl
  · split
    · rfl
    · split
      · exact List.length_modify ..
      · rfl

theorem length_onTicket (g : Gateway) (number : Nat) (change : Ticket → Ticket) :
    (g.onTicket number change).tickets.length = g.tickets.length := List.length_modify ..

end Gateway

namespace Pipeline

open Batch

variable {m : Memory} {p q : Pipeline} {past events : List (Event Nat)}
  {told written : List (Delivery Nat)}

/-! ## The requests that are accepted -/

theorem Change.registered (h : p.gateway.Registered) (hchange : Change p events written q) :
    q.gateway.Registered := by
  have hleads := hchange.leads
  cases hchange with
  | callers g hmoves => exact h.moves hmoves
  | _ => exact h.leads hleads rfl

theorem run_registered (config : PipelineConfig) (m : Memory) (actions : List Action) :
    ((new config m).run actions).gateway.Registered :=
  (run_course (new config m) actions).keeps_state Change.registered (.new _ _)

/-! ## When no calls are taken any more -/

theorem gateway_flush (p : Pipeline) : p.flush.gateway = p.gateway := by
  unfold flush
  split <;> rfl

theorem isOffered_flush (p : Pipeline) : p.flush.isOffered = p.isOffered := by
  unfold flush
  split <;> rfl

/-- No calls are taken, and there are so many. -/
structure Withdrawn (calls : Nat) (p : Pipeline) : Prop where
  isOffered : p.isOffered = false
  length : p.gateway.tickets.length = calls

namespace Withdrawn

variable {calls : Nat}

theorem flush (h : p.Withdrawn calls) : p.flush.Withdrawn calls :=
  ⟨p.isOffered_flush.trans h.isOffered, by rw [gateway_flush]; exact h.length⟩

theorem collect (h : p.Withdrawn calls) : p.collect.Withdrawn calls := by
  unfold Pipeline.collect Gateway.take?
  cases p.gateway.queue with
  | nil => exact h
  | cons request queue => exact ⟨h.isOffered, h.length⟩

/-- **No action makes a call any more.** -/
theorem step (h : p.Withdrawn calls) (action : Action) : (p.step action).Withdrawn calls := by
  cases action with
  | call request =>
      simp only [Pipeline.step, h.isOffered]
      exact h
  | letIn => exact ⟨h.isOffered, p.gateway.length_letIn.trans h.length⟩
  | expire number => exact ⟨h.isOffered, (p.gateway.length_onTicket _ _).trans h.length⟩
  | abandon number => exact ⟨h.isOffered, (p.gateway.length_onTicket _ _).trans h.length⟩
  | deliver place =>
      simp only [Pipeline.step, deliver]
      split
      · exact h
      · exact ⟨h.isOffered, (p.gateway.length_onTicket _ _).trans h.length⟩
  | start =>
      simp only [Pipeline.step, start]
      split
      · exact ⟨h.isOffered, h.length⟩
      · exact h
  | tick =>
      simp only [Pipeline.step, tick]
      split
      · split
        · exact ⟨h.flush.isOffered, h.flush.length⟩
        · exact h
      · exact h
  | receive =>
      simp only [Pipeline.step, receive]
      split
      · split
        · exact ⟨h.collect.flush.isOffered, h.collect.flush.length⟩
        · exact h.collect
      · exact h
  | stop =>
      simp only [Pipeline.step, stop]
      split
      · split
        · exact ⟨h.isOffered, (List.length_map _).trans h.length⟩
        · exact h
      · exact h
  | drain =>
      simp only [Pipeline.step, drain]
      split
      · split
        · exact ⟨h.flush.isOffered, h.flush.length⟩
        · exact h.collect
      · exact h
  | finish =>
      simp only [Pipeline.step, finish]
      split
      · split
        · exact ⟨h.isOffered, h.length⟩
        · exact h
      · exact h
  | withdraw => exact ⟨rfl, h.length⟩
  | cancel | setStock | failOn | clearFailures | wait => exact ⟨h.isOffered, h.length⟩

theorem run (h : p.Withdrawn calls) (actions : List Action) : (p.run actions).Withdrawn calls := by
  induction actions generalizing p with
  | nil => exact h
  | cons action actions ih => exact ih (h.step action)

end Withdrawn

/-! ## What is answered under a number -/

/-- The call that is made next bears the request, and it does so ever after. -/
theorem request_of_ticket (p : Pipeline) (request : Request) (actions : List Action) {t : Ticket}
    (ht : (p.run (.call request :: actions)).gateway.tickets[p.gateway.tickets.length]? = some t) :
    t.request = request := by
  by_cases hoffered : p.isOffered
  · have hcalled : ∃ new : Ticket,
        (p.step (.call request)).gateway.tickets[p.gateway.tickets.length]? = some new ∧
          new.request = request := by
      simp only [step, hoffered, if_true, Gateway.call]
      exact ⟨_, List.getElem?_concat_length, rfl⟩
    obtain ⟨new, hnew, hrequest⟩ := hcalled
    obtain ⟨t', ht', hlead⟩ := (p.step (.call request)).leads_run actions _ new hnew
    obtain rfl : t = t' := Option.some_inj.mp (ht.symm.trans ht')
    exact hlead.request.trans hrequest
  · -- there is no such call
    have hwithdrawn : p.Withdrawn p.gateway.tickets.length :=
      ⟨Bool.eq_false_iff.mpr hoffered, rfl⟩
    obtain ⟨hlt, -⟩ := List.getElem?_eq_some_iff.mp ht
    rw [(hwithdrawn.run (.call request :: actions)).length] at hlt
    exact absurd hlt (Nat.lt_irrefl _)

/-- **Whoever is answered under the number of a call** is the request of this call. -/
theorem request_of_answer (config : PipelineConfig) (m : Memory) (before after : List Action)
    (request : Request) {a : Answer Nat}
    (ha : a ∈ m.answers ((new config m).history (before ++ .call request :: after)))
    (hnumber : a.1.responder = ((new config m).run before).gateway.tickets.length) :
    a.1.request = request := by
  have hflow := run_flow config m (before ++ .call request :: after)
  obtain ⟨t, ht, hrequest⟩ := run_registered config m _ a.1 (hflow.mem_accepted ha)
  rw [hnumber, run_append] at ht
  exact hrequest.symm.trans (request_of_ticket _ request after ht)

end Pipeline

end Checkout
