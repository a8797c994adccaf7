import Checkout.Http.Exchange
import Checkout.Proofs.Http.Service
import Checkout.Proofs.Pipeline.Requests

/-!
# Responses are honest

An exchange is a run of the pipeline in which at most one call is made for the request
(`serve_eq_run`). Whatever happens before and after: nothing is added to the store on behalf of
anybody but the user whom the request names, and every response tells the truth about what was added
(`responses_honest`).
-/

namespace Checkout

open Batch Pipeline

/-- All that a batch of a history does is to sell the orders that it answers with. -/
theorem Memory.sale_of_process {ρ : Type} {m : Memory} (h : m.Reachable) (past : List (Event ρ))
    (batch : List (Pending ρ)) :
    (m.run past).contents.Sale (Answer.orders (Batch.answers batch (m.run past)))
      (m.run (past ++ [.process batch])).contents := by
  rw [Memory.run_append]
  exact sale_of_answers (h.run past).sound batch

/-! ## Exchanges are runs -/

namespace Pipeline

theorem settleWithin_eq_run (fuel : Nat) (p : Pipeline) :
    ∃ actions, settleWithin fuel p = p.run actions := by
  induction fuel generalizing p with
  | zero => exact ⟨[], rfl⟩
  | succ fuel ih =>
      unfold settleWithin
      split
      · exact ⟨[], rfl⟩
      next action _ =>
        obtain ⟨actions, hactions⟩ := ih (p.step action)
        exact ⟨action :: actions, hactions⟩

theorem settle_eq_run (p : Pipeline) : ∃ actions, p.settle = p.run actions :=
  settleWithin_eq_run _ p

theorem awaitWithin_eq_run (fuel : Nat) (p : Pipeline) :
    ∃ actions, awaitWithin fuel p = p.run actions := by
  induction fuel generalizing p with
  | zero => exact ⟨[], rfl⟩
  | succ fuel ih =>
      unfold awaitWithin
      split
      · exact ⟨[], rfl⟩
      · split
        · exact ⟨[], rfl⟩
        next time _ =>
          obtain ⟨settled, hsettled⟩ := (p.waitUntil time).settle_eq_run
          obtain ⟨rest, hrest⟩ := ih (p.waitUntil time).settle
          refine ⟨.wait (time - p.now) :: (settled ++ rest), ?_⟩
          rw [hrest, hsettled, ← run_append]
          rfl

theorem awaitCalls_eq_run (p : Pipeline) : ∃ actions, p.awaitCalls = p.run actions :=
  awaitWithin_eq_run _ p

end Pipeline

namespace Reception

/-- The calls that are made for what is received. -/
def actions : Reception → List Action
  | .response _ => []
  | .checkout request => [.call request]

/-- What is waited for, if the next call has the number. -/
def wait (number : Nat) : Reception → Exchange.Wait
  | .response r => .over r
  | .checkout _ => .call number

/-- **An exchange is a run** that begins with the calls for what is received. -/
theorem serve_eq_run (p : Pipeline) (reception : Reception) :
    ∃ after, Exchange.serve none p [reception] =
      ([Exchange.response? (p.run (reception.actions ++ after))
          (reception.wait p.gateway.tickets.length)],
        none, p.run (reception.actions ++ after)) := by
  cases reception with
  | response response =>
      obtain ⟨after, hafter⟩ := p.awaitCalls_eq_run
      refine ⟨after, ?_⟩
      show ([some response], none, p.awaitCalls) = _
      rw [hafter]
      rfl
  | checkout request =>
      obtain ⟨settled, hsettled⟩ := (p.step (.call request)).settle_eq_run
      obtain ⟨rest, hrest⟩ := (p.act (.call request)).awaitCalls_eq_run
      refine ⟨settled ++ rest, ?_⟩
      show ([Exchange.response? (p.act (.call request)).awaitCalls _], none,
        (p.act (.call request)).awaitCalls) = _
      have hrun : (p.act (.call request)).awaitCalls =
          p.run ((Reception.checkout request).actions ++ (settled ++ rest)) := by
        rw [hrest]
        unfold act
        rw [hsettled, ← run_append]
        rfl
      rw [hrun]
      rfl

end Reception

namespace Exchange

variable {m : Memory} {q : Pipeline} {history : List (Event Nat)} {number : Nat}
  {response : HttpResponse}

/-! ## What a response should tell -/

/-- The order was added to the store for the request that waits: in one of the batches, the request
of its call was answered with the order. -/
def AddedFor (m : Memory) (history : List (Event Nat)) (o : Order) : Wait → Prop
  | .over _ => False
  | .call number => ∃ p : Pending Nat, p.responder = number ∧ (p, .ok o) ∈ m.answers history

/-- The response tells the truth about what was added for the request that waits, after the store
has come from `m` to `contents` through the history. -/
structure Honest (m : Memory) (history : List (Event Nat)) (contents : Contents) (wait : Wait)
    (response : HttpResponse) : Prop where
  /-- Who is told that an order was created finds it in the store, and it is the only one. -/
  created : response.status = .created → ∃ o, (∀ o', AddedFor m history o' wait ↔ o' = o) ∧
    contents.order? o.id = some o ∧ response.IsReceiptOf o
  /-- For a request that is at fault itself nothing was added. -/
  refused : response.IsClientError → ∀ o, ¬ AddedFor m history o wait
  statusCode : response.RepeatsStatus

/-! ## Responses of calls -/

/-- A response is that to the outcome of the call. -/
theorem exists_of_response? (h : response? q (.call number) = some response) :
    ∃ t time outcome, q.gateway.tickets[number]? = some t ∧ t.stage = .answered time outcome ∧
      response = .ofOutcome outcome := by
  obtain ⟨t, ht, hresponse⟩ := Option.bind_eq_some_iff.mp h
  cases hstage : t.stage with
  | answered time outcome =>
      rw [hstage] at hresponse
      cases hresponse
      exact ⟨t, time, outcome, ht, hstage, rfl⟩
  | blocked | accepted | abandoned =>
      rw [hstage] at hresponse
      cases hresponse

theorem response?_of_stage {t : Ticket} {time : Nat} {outcome : Outcome}
    (ht : q.gateway.tickets[number]? = some t) (hstage : t.stage = .answered time outcome) :
    response? q (.call number) = some (.ofOutcome outcome) := by
  unfold response?
  simp [ht, hstage]

/-- **A response is final.** -/
theorem response?_final {wait : Wait} (h : response? q wait = some response)
    (more : List Action) : response? (q.run more) wait = some response := by
  rcases wait with r | number
  · exact h
  · obtain ⟨t, time, outcome, ht, hstage, rfl⟩ := exists_of_response? h
    obtain ⟨t', ht', -, hstage'⟩ := reply_final ht hstage more
    exact response?_of_stage ht' hstage'

theorem honest_of_failure {status : Status} {message code : String}
    (hstatus : status = .badRequest ∨ status = .unauthorized) (contents : Contents) :
    Honest m history contents (.over (.failure status message code))
      (.failure status message code) where
  created h := by
    have hcreated : status = .created := h
    rcases hstatus with rfl | rfl <;> exact absurd hcreated (by decide)
  refused _ _ hadded := hadded
  statusCode := HttpResponse.repeatsStatus_failure _ _ _

/-- A call that was told a failure which does not lie with the caller is promised nothing. -/
theorem honest_of_not_isClientError {e : CheckoutError} (he : e.isClientError = false)
    (contents : Contents) (wait : Wait) : Honest m history contents wait (.ofError e) where
  created h := absurd h (HttpResponse.ofError_ne_created e)
  refused h := by
    rw [HttpResponse.isClientError_of_ofError h] at he
    cases he
  statusCode := HttpResponse.repeatsStatus_failure _ _ _

variable {told : List (Delivery Nat)} {request : Request}

/-- An answer is told honestly. -/
theorem honest_of_answer (hreachable : m.Reachable) (hflow : Flow m history told q)
    (hbounded : request.IsBounded) {outcome : Outcome}
    (ha : (⟨request, number⟩, outcome) ∈ m.answers history) :
    Honest m history q.memory.contents (.call number) (.ofOutcome outcome) := by
  cases outcome with
  | ok o =>
      obtain ⟨-, hfound, -, -, hasked⟩ := Memory.order_of_answers hreachable.sound ha
      obtain ⟨hstatus, hreceipt⟩ := hbounded.ofOutcome_ok hasked
      refine ⟨fun _ => ⟨o, fun o' => ⟨?_, ?_⟩, ?_, hreceipt⟩, fun hclient => ?_,
        HttpResponse.repeatsStatus_ofOutcome _⟩
      · rintro ⟨p, hnumber, hanswer⟩
        cases hflow.answer_unique hanswer ha hnumber
        rfl
      · rintro rfl
        exact ⟨_, rfl, ha⟩
      · rw [hflow.memory]
        exact hfound
      · unfold HttpResponse.IsClientError at hclient
        rw [hstatus] at hclient
        exact absurd hclient.1 (by decide)
  | error e =>
      refine ⟨fun hcreated => absurd hcreated (HttpResponse.ofError_ne_created e), ?_,
        HttpResponse.repeatsStatus_ofOutcome _⟩
      rintro - o ⟨p, hnumber, hanswer⟩
      cases hflow.answer_unique hanswer ha hnumber

/-! ## Calls in the course of a run -/

section

variable (config : PipelineConfig) (before after : List Action)

/-- **What is added for a call** has the header of its request. -/
theorem header_of_addedFor (hreachable : m.Reachable) {o : Order}
    (h : AddedFor m ((new config m).history (before ++ .call request :: after)) o
      (.call ((new config m).run before).gateway.tickets.length)) :
    o.toHeader = request.header := by
  obtain ⟨p, hnumber, hanswer⟩ := h
  obtain ⟨-, -, hheader, -⟩ := Memory.order_of_answers hreachable.sound hanswer
  have hrequest : p.request = request :=
    request_of_answer config m before after request hanswer hnumber
  rw [hheader, hrequest]

/-- **What a call is told is told honestly.** -/
theorem honest_of_call (hreachable : m.Reachable) (hbounded : request.IsBounded)
    (h : response? ((new config m).run (before ++ .call request :: after))
      (.call ((new config m).run before).gateway.tickets.length) = some response) :
    Honest m ((new config m).history (before ++ .call request :: after))
      ((new config m).run (before ++ .call request :: after)).memory.contents
      (.call ((new config m).run before).gateway.tickets.length) response := by
  have hflow := run_flow config m (before ++ .call request :: after)
  obtain ⟨t, time, outcome, ht, hstage, rfl⟩ := exists_of_response? h
  have hrequest : t.request = request := by
    rw [run_append] at ht
    exact request_of_ticket _ request after ht
  rcases hflow.reply_cases ht hstage with ⟨rfl | rfl, -⟩ | ⟨rfl, -⟩ | hanswer
  · exact honest_of_not_isClientError rfl _ _
  · exact honest_of_not_isClientError rfl _ _
  · exact honest_of_not_isClientError rfl _ _
  · rw [hrequest] at hanswer
    exact honest_of_answer hreachable hflow hbounded hanswer

end

end Exchange

/-! ## Receptions -/

namespace HttpRequest

open Exchange

variable {r : HttpRequest} {trace : Uuid} {supply : Body.Supply}

/-- **How a checkout is received**: it is answered at once as the fault of the caller, or what is
asked for is asked for by the user whom the request names. -/
theorem receive_cases (hmethod : r.method = "POST")
    (hroute : Route.ofPath? r.path = some .checkout) (trace : Uuid) (supply : Body.Supply) :
    (∃ status message code,
      r.receive trace supply = .response (.failure status message code) ∧
      (status = .badRequest ∨ status = .unauthorized) ∧
      (¬ r.NamesUser → status = .unauthorized)) ∨
    ∃ request, r.receive trace supply = .checkout request ∧ r.NamesUser ∧
      r.user? = some request.header.user ∧ request.IsBounded := by
  cases hcheckout : r.checkout trace supply with
  | error response =>
      obtain ⟨status, message, code, rfl, hstatus⟩ := failure_of_checkout hcheckout
      refine .inl ⟨status, message, code, ?_, hstatus, fun hunknown => ?_⟩
      · simp [receive, hroute, hmethod, hcheckout]
      · rw [checkout_of_user?_none (user?_of_not_namesUser hunknown)] at hcheckout
        cases hcheckout
        rfl
  | ok request =>
      obtain ⟨huser, hbounded⟩ := of_checkout hcheckout
      refine .inr ⟨request, ?_, ?_, huser, hbounded⟩
      · simp [receive, hroute, hmethod, hcheckout]
      · by_contra hunknown
        rw [user?_of_not_namesUser hunknown] at huser
        cases huser

end HttpRequest

/-! ## A sample

User 7 asks for two pieces of product 1. The body does not name the user. -/

namespace Sample

def purchase : HttpRequest where
  method := "POST"
  target := "/orders/checkout?dry"
  headers :=
    [ ("X-User-Id", " 00000000-0000-0000-0000-000000000007 "),
      ("Content-Type", "application/json") ]
  body := String.toUTF8 ("\x7b\"order_items\":[\x7b\"price\":\"1.50\",\"quantity\":2," ++
    "\"product_id\":\"00000000-0000-0000-0000-000000000001\"\x7d]\x7d")

def fresh : Body.Supply := ⟨second.order, fun _ => single.id, .epoch⟩

end Sample

namespace Exchange

open HttpRequest

/-- **Responses are honest, and nobody acts for another user.** A checkout is requested, with any
headers and any body, from a pipeline to which anything may have happened and anything may happen
afterwards. All that batches do to the store is to sell the orders that they answer with. If the
request does not name a user by a UUID, it is told so at once, and no call is made for it. All that
is added for the request is added for the user whom it names. Every response is final. One that
tells of a new order is the receipt of just the order that was added; one that finds fault with the
request says that nothing was added for it; and all of them repeat their status in their body. -/
theorem responses_honest (h : m.Reachable) (config : PipelineConfig) (before after : List Action)
    {r : HttpRequest} (hmethod : r.method = "POST")
    (hroute : Route.ofPath? r.path = some .checkout) (trace : Uuid) (supply : Body.Supply) :
    let reception := r.receive trace supply
    let wait := reception.wait ((new config m).run before).gateway.tickets.length
    let actions := before ++ (reception.actions ++ after)
    let history := (new config m).history actions
    let q := (new config m).run actions
    q.memory = m.run history ∧
    (∀ past batch rest, history = past ++ .process batch :: rest →
      (m.run past).contents.Sale (Answer.orders (Batch.answers batch (m.run past)))
        (m.run (past ++ [.process batch])).contents) ∧
    (¬ r.NamesUser → reception.actions = [] ∧
      ∃ response, reception = .response response ∧ response.status = .unauthorized) ∧
    (∀ o, AddedFor m history o wait → r.user? = some o.user) ∧
    ∀ response, response? q wait = some response →
      Honest m history q.memory.contents wait response ∧
      ∀ more, response? (q.run more) wait = some response := by
  rcases receive_cases hmethod hroute trace supply with
    ⟨status, message, code, hreceive, hstatus, hunknown⟩ |
    ⟨request, hreceive, hnames, huser, hbounded⟩
  · rw [hreceive]
    refine ⟨(run_flow config m _).memory,
      fun past batch _ _ => Memory.sale_of_process h past batch,
      fun hnot => ⟨rfl, _, rfl, hunknown hnot⟩, fun o hadded => hadded.elim, ?_⟩
    intro response hresponse
    cases hresponse
    exact ⟨honest_of_failure hstatus _, fun _ => rfl⟩
  · rw [hreceive]
    refine ⟨(run_flow config m _).memory,
      fun past batch _ _ => Memory.sale_of_process h past batch,
      fun hnot => absurd hnames hnot, fun o hadded => ?_, ?_⟩
    · rw [huser, ← header_of_addedFor config before after h hadded]
    · intro response hresponse
      exact ⟨honest_of_call config before after h hbounded hresponse, response?_final hresponse⟩

/-- The order of the sample is created while nobody else asks for anything. -/
theorem responses_honest_sample :
    let reception := Sample.purchase.receive .zero Sample.fresh
    let wait := reception.wait 0
    let actions := [.start] ++ (reception.actions ++ [.receive, .deliver 0])
    let history := (new ⟨2, 100, 10, some 1⟩ Sample.store).history actions
    let q := (new ⟨2, 100, 10, some 1⟩ Sample.store).run actions
    Sample.purchase.method = "POST" ∧ Route.ofPath? Sample.purchase.path = some .checkout ∧
    (∀ o, AddedFor Sample.store history o wait → Sample.purchase.user? = some o.user) ∧
    ∃ response, response? q wait = some response ∧ response.status = .created ∧
      Honest Sample.store history q.memory.contents wait response ∧
      ∀ more, response? (q.run more) wait = some response := by
  intro reception wait actions history q
  have hroute : Route.ofPath? Sample.purchase.path = some .checkout := by decide +kernel
  have hcreated : (response? q wait).map (·.status) = some .created := by decide +kernel
  obtain ⟨response, hresponse, hstatus⟩ := Option.map_eq_some_iff.mp hcreated
  obtain ⟨-, -, -, huser, hhonest⟩ := responses_honest Sample.store_reachable
    ⟨2, 100, 10, some 1⟩ [.start] [.receive, .deliver 0] rfl hroute .zero Sample.fresh
  exact ⟨rfl, hroute, huser, response, hresponse, hstatus, hhonest response hresponse⟩

end Exchange

end Checkout
