import Checkout.Pipeline.Basic
import Checkout.Proofs.Gateway.Tickets
import Checkout.Proofs.Memory.History

/-!
# The course of a pipeline

`Pipeline.history` is what happens to the store while a pipeline runs, and `Pipeline.written` are
the outcomes that it delivers on the way, each in sequence. Every action is made of a few single
changes (`Change`), one after the other; `run_course` says so for whole runs. So what every change
keeps, a pipeline keeps whatever is done with it (`Course.keeps`).
-/

namespace Checkout

/-- The batch that is processed, if the event is that one is. -/
def Event.batch? {ρ : Type} : Event ρ → Option (List (Pending ρ))
  | .process batch => some batch
  | .setStock _ _ | .failOn _ | .clearFailures => none

namespace Phase

/-- The queue is not closed yet. -/
def isOpen : Phase → Bool
  | .idle | .running _ => true
  | .draining | .finishing | .stopped _ => false

/-- The last batch has been handed over. -/
def isOver : Phase → Bool
  | .finishing | .stopped _ => true
  | .idle | .running _ | .draining => false

variable {phase : Phase}

theorem isOpen_of_running {nextTick : Nat} (h : phase = .running nextTick) : phase.isOpen := by
  rw [h]
  rfl

theorem isOpen_of_isOver (h : phase.isOver) : phase.isOpen = false := by
  cases phase with
  | idle => cases h
  | running nextTick => cases h
  | draining => rfl
  | finishing => rfl
  | stopped time => rfl

end Phase

namespace Pipeline

/-! ## What happens to the store, and what is delivered -/

/-- The batches that are handed over between two states. -/
def handedOver (p q : Pipeline) : List (Event Nat) :=
  (q.batches.drop p.batches.length).map .process

/-- What an action leads to in the store. -/
def events (p : Pipeline) : Action → List (Event Nat)
  | .setStock product quantity => [.setStock product quantity]
  | .failOn operation => [.failOn operation]
  | .clearFailures => [.clearFailures]
  | action => p.handedOver (p.step action)

/-- The outcome that an action delivers, if it does. -/
def writes (p : Pipeline) : Action → List (Delivery Nat)
  | .deliver place => (p.outbox[place]?).toList
  | _ => []

/-- All that happens to the store in the course of a run. -/
def history (p : Pipeline) : List Action → List (Event Nat)
  | [] => []
  | action :: actions => p.events action ++ (p.step action).history actions

/-- All outcomes that are delivered in the course of a run. -/
def written (p : Pipeline) : List Action → List (Delivery Nat)
  | [] => []
  | action :: actions => p.writes action ++ (p.step action).written actions

theorem run_append (p : Pipeline) (actions more : List Action) :
    p.run (actions ++ more) = (p.run actions).run more := List.foldl_append

theorem handedOver_of_eq {p q : Pipeline} (h : q.batches = p.batches) : p.handedOver q = [] := by
  unfold handedOver
  rw [h, List.drop_length]
  rfl

theorem handedOver_of_append {p q : Pipeline} {batch : List (Pending Nat)}
    (h : q.batches = p.batches ++ [batch]) : p.handedOver q = [.process batch] := by
  unfold handedOver
  rw [h, List.drop_left]
  rfl

/-! ## Single changes -/

/-- What the pipeline is after its buffer has been handed over. -/
def handOver (p : Pipeline) : Pipeline :=
  { p with
    buffer := []
    outbox := p.outbox ++ (Batch.processInMemory p.buffer p.memory).1
    batches := p.batches ++ [p.buffer]
    memory := (Batch.processInMemory p.buffer p.memory).2 }

theorem flush_of_nil {p : Pipeline} (h : p.buffer = []) : p.flush = p := by
  unfold flush
  rw [h]
  rfl

theorem flush_of_ne_nil {p : Pipeline} (h : p.buffer ≠ []) : p.flush = p.handOver := by
  unfold flush
  rw [if_neg (fun hnil => h (List.isEmpty_iff.mp hnil))]
  rfl

/-- A single change of a pipeline, with what it leads to in the store and what it delivers. -/
inductive Change (p : Pipeline) : List (Event Nat) → List (Delivery Nat) → Pipeline → Prop
  /-- Time passes, the windower is told to shut down, or no new calls will be made. -/
  | conditions (now : Nat) (isOffered isCancelled : Bool) :
      Change p [] [] { p with now, isOffered, isCancelled }
  | callers (g : Gateway) (h : p.gateway.Moves g) : Change p [] [] { p with gateway := g }
  /-- The store is changed from outside. -/
  | outside (event : Event Nat) (h : event.batch? = none) :
      Change p [event] [] { p with memory := p.memory.step event }
  | deliver (place : Nat) (d : Delivery Nat) (h : p.outbox[place]? = some d) :
      Change p [] [d]
        { p with outbox := p.outbox.eraseIdx place, gateway := p.gateway.answer p.now d }
  /-- The windower goes on collecting until the next tick. -/
  | schedule (nextTick : Nat) (h : p.phase.isOpen) :
      Change p [] [] { p with phase := .running nextTick }
  | collect (request : Pending Nat) (queue : List (Pending Nat))
      (h : p.gateway.queue = request :: queue) :
      Change p [] []
        { p with gateway := { p.gateway with queue }, buffer := p.buffer ++ [request] }
  | handOver (h : p.buffer ≠ []) : Change p [.process p.buffer] [] p.handOver
  | close (h : p.phase.isOpen) :
      Change p [] [] { p with phase := .draining, gateway := p.gateway.close p.now }
  /-- All that was accepted has been handed over. -/
  | drained (h : p.phase = .draining) (hqueue : p.gateway.queue = []) (hbuffer : p.buffer = []) :
      Change p [] [] { p with phase := .finishing }
  /-- All outcomes have been delivered. -/
  | stopped (time : Nat) (h : p.phase = .finishing) (houtbox : p.outbox = []) :
      Change p [] [] { p with phase := .stopped time }

/-- Changes one after the other. -/
inductive Course : Pipeline → List (Event Nat) → List (Delivery Nat) → Pipeline → Prop
  | nil (p : Pipeline) : Course p [] [] p
  | cons {p q r : Pipeline} {events more : List (Event Nat)} {written rest : List (Delivery Nat)}
      (h : Change p events written q) (hrest : Course q more rest r) :
      Course p (events ++ more) (written ++ rest) r

namespace Course

variable {p q r : Pipeline} {events more : List (Event Nat)} {written rest : List (Delivery Nat)}

theorem trans (h : Course p events written q) (h' : Course q more rest r) :
    Course p (events ++ more) (written ++ rest) r := by
  induction h with
  | nil => exact h'
  | cons hchange _ ih =>
      rw [List.append_assoc, List.append_assoc]
      exact .cons hchange (ih h')

theorem of_change (h : Change p events written q) : Course p events written q := by
  have hcons := Course.cons h (.nil q)
  rw [List.append_nil, List.append_nil] at hcons
  exact hcons

/-- **What every change keeps, a course keeps.** -/
theorem keeps {I : List (Event Nat) → List (Delivery Nat) → Pipeline → Prop}
    (hkeep : ∀ {past told p events written q}, I past told p → Change p events written q →
      I (past ++ events) (told ++ written) q)
    (h : Course p events written q) {past : List (Event Nat)} {told : List (Delivery Nat)}
    (hi : I past told p) : I (past ++ events) (told ++ written) q := by
  -- what happened before grows along the course, so it is general in the induction
  induction h generalizing past told with
  | nil =>
      rw [List.append_nil, List.append_nil]
      exact hi
  | cons hchange _ ih =>
      rw [← List.append_assoc, ← List.append_assoc]
      exact ih (hkeep hi hchange)

theorem keeps_state {I : Pipeline → Prop}
    (hkeep : ∀ {p events written q}, I p → Change p events written q → I q)
    (h : Course p events written q) (hi : I p) : I q := by
  induction h with
  | nil => exact hi
  | cons hchange _ ih => exact ih (hkeep hi hchange)

end Course

/-! ## Actions -/

variable {p q : Pipeline}

/-- A course on which nothing is handed over. -/
theorem Course.without_batch {written : List (Delivery Nat)} (h : Course p [] written q)
    (hbatches : q.batches = p.batches) : Course p (p.handedOver q) written q := by
  rw [handedOver_of_eq hbatches]
  exact h

theorem nil_course (p : Pipeline) : Course p (p.handedOver p) [] p :=
  (Course.nil p).without_batch rfl

theorem collect_course (p : Pipeline) :
    Course p [] [] p.collect ∧ p.collect.batches = p.batches := by
  unfold collect Gateway.take?
  cases h : p.gateway.queue with
  | nil => exact ⟨.nil p, rfl⟩
  | cons request queue => exact ⟨.of_change (.collect request queue h), rfl⟩

theorem flush_course (p : Pipeline) : Course p (p.handedOver p.flush) [] p.flush := by
  by_cases h : p.buffer = []
  · rw [flush_of_nil h]
    exact p.nil_course
  · rw [flush_of_ne_nil h, handedOver_of_append rfl]
    exact .of_change (.handOver h)

theorem phase_flush (p : Pipeline) : p.flush.phase = p.phase := by
  unfold flush
  split <;> rfl

/-- Handing over a batch and then setting the next tick. -/
theorem flush_schedule_course (nextTick : Nat) (h : p.phase.isOpen) :
    Course p (p.handedOver p.flush) [] { p.flush with phase := .running nextTick } := by
  have hopen : p.flush.phase.isOpen := by
    rw [phase_flush]
    exact h
  have hcourse := p.flush_course.trans (.of_change (.schedule nextTick hopen))
  rw [List.append_nil] at hcourse
  exact hcourse

theorem start_course (p : Pipeline) : Course p (p.handedOver p.start) [] p.start := by
  unfold start
  split
  next h =>
    have hopen : p.phase.isOpen := by rw [h]; rfl
    exact (Course.of_change (.schedule _ hopen)).without_batch rfl
  next => exact p.nil_course

theorem tick_course (p : Pipeline) : Course p (p.handedOver p.tick) [] p.tick := by
  unfold tick
  split
  next nextTick h =>
    split
    · exact flush_schedule_course _ (Phase.isOpen_of_running h)
    · exact p.nil_course
  next => exact p.nil_course

theorem receive_course (p : Pipeline) : Course p (p.handedOver p.receive) [] p.receive := by
  obtain ⟨hcollect, hbatches⟩ := p.collect_course
  unfold receive
  split
  next nextTick h =>
    dsimp only
    split
    · have hopen : p.collect.phase.isOpen := by
        have hphase : p.collect.phase = p.phase := by
          unfold collect
          split <;> rfl
        exact Phase.isOpen_of_running (hphase.trans h)
      have hcourse := hcollect.trans (flush_schedule_course p.followingTick hopen)
      -- what is handed over is the same before and after the request is collected
      have hover : p.handedOver p.collect.flush = p.collect.handedOver p.collect.flush := by
        unfold handedOver
        rw [hbatches]
      show Course p (p.handedOver p.collect.flush) [] _
      rw [hover]
      exact hcourse
    · exact hcollect.without_batch hbatches
  next => exact p.nil_course

theorem stop_course (p : Pipeline) : Course p (p.handedOver p.stop) [] p.stop := by
  unfold stop
  split
  next nextTick h =>
    split
    · exact (Course.of_change (.close (Phase.isOpen_of_running h))).without_batch rfl
    · exact p.nil_course
  next => exact p.nil_course

theorem drain_course (p : Pipeline) : Course p (p.handedOver p.drain) [] p.drain := by
  unfold drain
  split
  next h =>
    split
    next hempty =>
      have hqueue : p.gateway.queue = [] := List.isEmpty_iff.mp hempty
      have hflushed : p.flush.gateway.queue = [] ∧ p.flush.buffer = [] := by
        by_cases hnil : p.buffer = []
        · rw [flush_of_nil hnil]
          exact ⟨hqueue, hnil⟩
        · rw [flush_of_ne_nil hnil]
          exact ⟨hqueue, rfl⟩
      have hdrained : Change p.flush [] [] { p.flush with phase := .finishing } :=
        .drained (p.phase_flush.trans h) hflushed.1 hflushed.2
      have hcourse := p.flush_course.trans (.of_change hdrained)
      rw [List.append_nil] at hcourse
      exact hcourse
    next =>
      obtain ⟨hcollect, hbatches⟩ := p.collect_course
      exact hcollect.without_batch hbatches
  next => exact p.nil_course

theorem finish_course (p : Pipeline) : Course p (p.handedOver p.finish) [] p.finish := by
  unfold finish
  split
  next h =>
    split
    next hempty =>
      have houtbox : p.outbox = [] := List.isEmpty_iff.mp hempty
      exact (Course.of_change (.stopped _ h houtbox)).without_batch rfl
    next => exact p.nil_course
  next => exact p.nil_course

theorem deliver_course (p : Pipeline) (place : Nat) :
    Course p (p.handedOver (p.deliver place)) (p.outbox[place]?).toList (p.deliver place) := by
  unfold deliver
  cases h : p.outbox[place]? with
  | none => exact p.nil_course
  | some d => exact (Course.of_change (.deliver place d h)).without_batch rfl

/-- Callers hand nothing over. -/
theorem callers_course {g : Gateway} (h : p.gateway.Moves g) :
    Course p (p.handedOver { p with gateway := g }) [] { p with gateway := g } :=
  (Course.of_change (.callers g h)).without_batch rfl

theorem call_course (p : Pipeline) (request : Request) :
    Course p (p.handedOver (p.step (.call request))) [] (p.step (.call request)) := by
  unfold step
  dsimp only
  split
  · exact callers_course (p.gateway.moves_call p.now request)
  · exact p.nil_course

theorem conditions_course (p : Pipeline) (now : Nat) (isOffered isCancelled : Bool) :
    Course p (p.handedOver { p with now, isOffered, isCancelled }) []
      { p with now, isOffered, isCancelled } :=
  (Course.of_change (.conditions now isOffered isCancelled)).without_batch rfl

/-- **Every action is made of single changes.** -/
theorem step_course (p : Pipeline) (action : Action) :
    Course p (p.events action) (p.writes action) (p.step action) := by
  cases action with
  | call request => exact p.call_course request
  | letIn => exact callers_course p.gateway.moves_letIn
  | expire number => exact callers_course (p.gateway.moves_expire p.now number)
  | abandon number => exact callers_course (p.gateway.moves_abandon number)
  | deliver place => exact p.deliver_course place
  | start => exact p.start_course
  | tick => exact p.tick_course
  | receive => exact p.receive_course
  | stop => exact p.stop_course
  | drain => exact p.drain_course
  | finish => exact p.finish_course
  | cancel => exact p.conditions_course p.now p.isOffered true
  | withdraw => exact p.conditions_course p.now false p.isCancelled
  | setStock product quantity => exact .of_change (.outside (.setStock product quantity) rfl)
  | failOn operation => exact .of_change (.outside (.failOn operation) rfl)
  | clearFailures => exact .of_change (.outside .clearFailures rfl)
  | wait milliseconds => exact p.conditions_course (p.now + milliseconds) p.isOffered p.isCancelled

/-- **A run is made of single changes.** -/
theorem run_course (p : Pipeline) (actions : List Action) :
    Course p (p.history actions) (p.written actions) (p.run actions) := by
  induction actions generalizing p with
  | nil => exact .nil p
  | cons action actions ih => exact (p.step_course action).trans (ih (p.step action))

/-! ## While a batch is being processed

Handing over a batch is one change, but it takes time. What others do meanwhile does not depend on
it: they might as well have done it before. -/

/-- Something that callers do, or that is told to the windower. -/
def Action.isOfOthers : Action → Bool
  | .call _ | .letIn | .expire _ | .abandon _ | .cancel | .withdraw | .wait _ => true
  | _ => false

theorem flush_eq (p : Pipeline) : p.flush =
    { p with
      buffer := p.flush.buffer
      outbox := p.flush.outbox
      batches := p.flush.batches
      memory := p.flush.memory } := by
  unfold flush
  split <;> rfl

theorem flush_with (p : Pipeline) (now : Nat) (gateway : Gateway) (isOffered isCancelled : Bool) :
    Pipeline.flush { p with now, gateway, isOffered, isCancelled } =
      { p.flush with now, gateway, isOffered, isCancelled } := by
  unfold flush
  dsimp only
  split <;> rfl

/-- **Handing over a batch does not interfere with callers.** -/
theorem flush_step {action : Action} (h : action.isOfOthers) :
    (p.step action).flush = p.flush.step action := by
  rw [flush_eq p]
  cases action
  case call request =>
    unfold step
    dsimp only
    split
    · exact (p.flush_with _ _ _ _).trans (by rw [flush_eq p])
    · exact flush_eq p
  case letIn | expire | abandon | cancel | withdraw | wait =>
    exact (p.flush_with _ _ _ _).trans (by rw [flush_eq p]; rfl)
  all_goals cases h

end Pipeline

/-! ## A sample

The queue has room for two requests, and so the third call has to wait. The first two requests fill
a batch, and the third one is handed over when the windower shuts down. The last call comes too
late. -/

namespace Sample

def pipeline : Pipeline := .new ⟨2, 100, 10, some 2⟩ store

def actions : List Pipeline.Action :=
  [.start, .call first, .call second, .call first, .receive, .letIn, .receive, .deliver 1, .cancel,
    .stop, .call second, .drain, .drain, .deliver 0, .deliver 0, .wait 5, .finish]

end Sample

end Checkout
