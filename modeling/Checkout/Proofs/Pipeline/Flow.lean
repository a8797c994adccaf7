import Checkout.Proofs.Memory.Permanence
import Checkout.Proofs.Pipeline.Course
import Mathlib.Data.List.Perm.Basic

/-!
# Nothing is lost in a pipeline

At any time, every request that was accepted is in one of the batches, in the buffer or in the
queue, in this sequence, and each is there once. Every batch is processed in its turn, and of the
answers each is either delivered or waits to be. All this is `Flow`, which every change keeps
(`Flow.change`), and so every run (`run_flow`). `lossless` says what follows for a pipeline at any
time and in the end.
-/

namespace Checkout

open Batch

/-! ## Answers of whole histories -/

namespace Memory

variable {ρ : Type}

theorem answers_of_batch?_none (m : Memory) {event : Event ρ} (h : event.batch? = none) :
    m.answers [event] = [] := by
  cases event with
  | process batch => cases h
  | setStock product quantity => rfl
  | failOn operation => rfl
  | clearFailures => rfl

theorem answers_process (m : Memory) (batch : List (Pending ρ)) :
    m.answers [.process batch] = Batch.answers batch m := List.append_nil _

/-- Each request of each batch is answered once. -/
theorem answers_perm_run (m : Memory) (events : List (Event ρ)) :
    ((m.answers events).map (·.1)).Perm (events.filterMap (·.batch?)).flatten := by
  induction events generalizing m with
  | nil => exact .refl _
  | cons event events ih =>
      have hrest := ih (m.step event)
      show ((event.answers m ++ _).map _).Perm _
      rw [List.map_append]
      cases event with
      | setStock product quantity => exact hrest
      | failOn operation => exact hrest
      | clearFailures => exact hrest
      | process batch => exact (answers_perm batch m).append hrest

end Memory

namespace Pipeline

variable {m : Memory} {p q : Pipeline} {past events : List (Event Nat)}
  {told written : List (Delivery Nat)}

/-! ## What every change keeps -/

/-- Where all requests and all answers are, after the store has gone from `m` through `past` and the
outcomes `told` have been delivered. -/
structure Flow (m : Memory) (past : List (Event Nat)) (told : List (Delivery Nat))
    (p : Pipeline) : Prop where
  memory : p.memory = m.run past
  batches : p.batches = past.filterMap (·.batch?)
  batches_ne_nil : ∀ batch ∈ p.batches, batch ≠ []
  accepted : p.batches.flatten ++ p.buffer ++ p.gateway.queue = p.gateway.accepted
  delivered : (told ++ p.outbox).Perm ((m.answers past).map Answer.delivery)
  calls : p.gateway.Consistent told
  isOpen : p.gateway.isOpen = p.phase.isOpen
  emptied : p.phase.isOver → p.buffer = [] ∧ p.gateway.queue = []
  stopped : ∀ time, p.phase = .stopped time → p.outbox = []

namespace Flow

theorem new (config : PipelineConfig) (m : Memory) : Flow m [] [] (.new config m) where
  memory := rfl
  batches := rfl
  batches_ne_nil _ h := absurd h List.not_mem_nil
  accepted := rfl
  delivered := .refl _
  calls := .new _ _
  isOpen := rfl
  emptied h := by cases h
  stopped _ h := by cases h

theorem mem_batches (h : Flow m past told p) {a : Answer Nat} (ha : a ∈ m.answers past) :
    a.1 ∈ p.batches.flatten := by
  rw [h.batches]
  exact (m.answers_perm_run past).subset (List.mem_map_of_mem ha)

/-- Whatever is answered was accepted. -/
theorem mem_accepted (h : Flow m past told p) {a : Answer Nat} (ha : a ∈ m.answers past) :
    a.1 ∈ p.gateway.accepted := by
  rw [← h.accepted, List.append_assoc]
  exact List.mem_append_left _ (h.mem_batches ha)

/-- What waits to be delivered is for a request that was accepted. -/
theorem responder_of_outbox (h : Flow m past told p) {d : Delivery Nat} (hd : d ∈ p.outbox) :
    d.responder ∈ p.gateway.accepted.map (·.responder) := by
  have hmem := h.delivered.subset (List.mem_append_right told hd)
  obtain ⟨a, ha, rfl⟩ := List.mem_map.mp hmem
  exact List.mem_map_of_mem (h.mem_accepted ha)

theorem callers (h : Flow m past told p) {g : Gateway} (hmoves : p.gateway.Moves g) :
    Flow m past told { p with gateway := g } := by
  obtain ⟨new, hqueue, haccepted, hopen, hclosed⟩ := hmoves.queue
  refine ⟨h.memory, h.batches, h.batches_ne_nil, ?_, h.delivered, h.calls.moves hmoves,
    hopen.trans h.isOpen, ?_, h.stopped⟩
  · show p.batches.flatten ++ p.buffer ++ g.queue = g.accepted
    rw [hqueue, haccepted, ← h.accepted, List.append_assoc _ p.gateway.queue new]
  · intro hover
    obtain ⟨hbuffer, hempty⟩ := h.emptied hover
    -- nobody gets into a closed queue
    have hnew : new = [] := hclosed (h.isOpen.trans (Phase.isOpen_of_isOver hover))
    refine ⟨hbuffer, ?_⟩
    rw [hqueue, hempty, hnew]
    rfl

theorem outside (h : Flow m past told p) {event : Event Nat} (hevent : event.batch? = none) :
    Flow m (past ++ [event]) told { p with memory := p.memory.step event } := by
  refine ⟨?_, ?_, h.batches_ne_nil, h.accepted, ?_, h.calls, h.isOpen, h.emptied, h.stopped⟩
  · show p.memory.step event = m.run (past ++ [event])
    rw [Memory.run_append, h.memory]
    rfl
  · show p.batches = _
    rw [List.filterMap_append, h.batches, List.filterMap_cons_none hevent, List.filterMap_nil,
      List.append_nil]
  · rw [Memory.answers_append, Memory.answers_of_batch?_none _ hevent, List.append_nil]
    exact h.delivered

theorem deliver (h : Flow m past told p) {place : Nat} {d : Delivery Nat}
    (hd : p.outbox[place]? = some d) :
    Flow m past (told ++ [d])
      { p with outbox := p.outbox.eraseIdx place, gateway := p.gateway.answer p.now d } := by
  have hmem : d ∈ p.outbox := List.mem_of_getElem? hd
  refine ⟨h.memory, h.batches, h.batches_ne_nil, h.accepted, ?_,
    h.calls.answer p.now (h.responder_of_outbox hmem), h.isOpen, h.emptied, ?_⟩
  · obtain ⟨hlt, rfl⟩ := List.getElem?_eq_some_iff.mp hd
    have hperm := (List.getElem_cons_eraseIdx_perm hlt).append_left told
    rw [List.append_assoc]
    exact hperm.trans h.delivered
  · intro time hstopped
    rw [h.stopped time hstopped] at hmem
    cases hmem

theorem collect (h : Flow m past told p) {request : Pending Nat} {queue : List (Pending Nat)}
    (hqueue : p.gateway.queue = request :: queue) :
    Flow m past told
      { p with gateway := { p.gateway with queue }, buffer := p.buffer ++ [request] } := by
  refine ⟨h.memory, h.batches, h.batches_ne_nil, ?_, h.delivered, h.calls.take queue, h.isOpen, ?_,
    h.stopped⟩
  · show p.batches.flatten ++ (p.buffer ++ [request]) ++ queue = p.gateway.accepted
    rw [← h.accepted, hqueue]
    simp
  · intro hover
    obtain ⟨-, hempty⟩ := h.emptied hover
    rw [hqueue] at hempty
    cases hempty

theorem handOver (h : Flow m past told p) (hne : p.buffer ≠ []) :
    Flow m (past ++ [.process p.buffer]) told p.handOver := by
  have hnot : p.phase.isOver ≠ true := fun hover => hne (h.emptied hover).1
  refine ⟨?_, ?_, ?_, ?_, ?_, h.calls, h.isOpen, fun hover => absurd hover hnot, ?_⟩
  · show (processInMemory p.buffer p.memory).2 = m.run (past ++ [.process p.buffer])
    rw [Memory.run_append, h.memory]
    rfl
  · show p.batches ++ [p.buffer] = _
    rw [List.filterMap_append, h.batches]
    rfl
  · intro batch hbatch
    rcases List.mem_append.mp hbatch with hbatch | hbatch
    · exact h.batches_ne_nil batch hbatch
    · rw [List.mem_singleton.mp hbatch]
      exact hne
  · show (p.batches ++ [p.buffer]).flatten ++ [] ++ p.gateway.queue = p.gateway.accepted
    rw [← h.accepted]
    simp
  · show (told ++ (p.outbox ++ (processInMemory p.buffer p.memory).1)).Perm _
    rw [Memory.answers_append, Memory.answers_process, ← h.memory, List.map_append,
      ← deliveries_eq, ← List.append_assoc]
    exact h.delivered.append_right _
  · intro time hstopped
    have hphase : p.phase = .stopped time := hstopped
    rw [hphase] at hnot
    exact absurd rfl hnot

/-- The windower goes on to another phase, and the queue stays open or closed as it is. -/
theorem goOn (h : Flow m past told p) {phase : Phase} (hopen : p.phase.isOpen = phase.isOpen)
    (hemptied : phase.isOver → p.buffer = [] ∧ p.gateway.queue = [])
    (hstopped : ∀ time, phase = .stopped time → p.outbox = []) :
    Flow m past told { p with phase } :=
  ⟨h.memory, h.batches, h.batches_ne_nil, h.accepted, h.delivered, h.calls, h.isOpen.trans hopen,
    hemptied, hstopped⟩

theorem close (h : Flow m past told p) :
    Flow m past told { p with phase := .draining, gateway := p.gateway.close p.now } := by
  refine ⟨h.memory, h.batches, h.batches_ne_nil, h.accepted, h.delivered, h.calls.close p.now, rfl,
    ?_, ?_⟩
  · intro hover
    cases hover
  · intro time hstopped
    cases hstopped

/-- **No change loses anything.** -/
theorem change (h : Flow m past told p) (hchange : Change p events written q) :
    Flow m (past ++ events) (told ++ written) q := by
  -- where a change leads to nothing or delivers nothing, the list stays as it is
  cases hchange <;> simp only [List.append_nil]
  case conditions now isOffered isCancelled =>
    exact ⟨h.memory, h.batches, h.batches_ne_nil, h.accepted, h.delivered, h.calls, h.isOpen,
      h.emptied, h.stopped⟩
  case callers g hmoves => exact h.callers hmoves
  case outside event hevent => exact h.outside hevent
  case deliver place d hd => exact h.deliver hd
  case schedule nextTick hopen =>
    refine h.goOn hopen ?_ ?_
    · intro hover
      cases hover
    · intro time hstopped
      cases hstopped
  case collect request queue hqueue => exact h.collect hqueue
  case handOver hne => exact h.handOver hne
  case close hopen => exact h.close
  case drained hphase hqueue hbuffer =>
    have hopen : p.phase.isOpen = false := by rw [hphase]; rfl
    refine h.goOn hopen ?_ ?_
    · intro _
      exact ⟨hbuffer, hqueue⟩
    · intro time hstopped
      cases hstopped
  case stopped time hphase houtbox =>
    have hover : p.phase.isOver := by rw [hphase]; rfl
    refine h.goOn (Phase.isOpen_of_isOver hover) ?_ ?_
    · intro _
      exact h.emptied hover
    · intro _ _
      exact houtbox

end Flow

/-- **A run loses nothing.** -/
theorem run_flow (config : PipelineConfig) (m : Memory) (actions : List Action) :
    Flow m ((new config m).history actions) ((new config m).written actions)
      ((new config m).run actions) :=
  Course.keeps Flow.change (run_course (new config m) actions) (Flow.new config m)

/-! ## In the end -/

/-- When the windower has stopped, all that was ever accepted has been answered. -/
theorem Flow.answers_perm (h : Flow m past told p) (hover : p.phase.isOver) :
    ((m.answers past).map (·.1)).Perm p.gateway.accepted := by
  obtain ⟨hbuffer, hqueue⟩ := h.emptied hover
  rw [← h.accepted, hbuffer, hqueue, List.append_nil, List.append_nil, h.batches]
  exact m.answers_perm_run past

theorem Flow.told_perm (h : Flow m past told p) {time : Nat} (hstopped : p.phase = .stopped time) :
    told.Perm ((m.answers past).map Answer.delivery) := by
  have hperm := h.delivered
  rw [h.stopped time hstopped, List.append_nil] at hperm
  exact hperm

/-- The last batch has been handed over, and nothing more than `accepted` will be accepted. -/
structure Ended (accepted : List (Pending Nat)) (p : Pipeline) : Prop where
  isOver : p.phase.isOver
  closed : p.gateway.isOpen = false
  accepted : p.gateway.accepted = accepted

theorem Ended.change {accepted : List (Pending Nat)} (h : p.Ended accepted)
    (hchange : Change p events written q) : q.Ended accepted := by
  cases hchange with
  | conditions now isOffered isCancelled => exact ⟨h.isOver, h.closed, h.accepted⟩
  | callers g hmoves =>
      obtain ⟨new, -, hnew, hopen, hnone⟩ := hmoves.queue
      rw [hnone h.closed, List.append_nil] at hnew
      exact ⟨h.isOver, hopen.trans h.closed, hnew.trans h.accepted⟩
  | outside event hevent => exact ⟨h.isOver, h.closed, h.accepted⟩
  | deliver place d hd => exact ⟨h.isOver, h.closed, h.accepted⟩
  | schedule nextTick hopen =>
      rw [Phase.isOpen_of_isOver h.isOver] at hopen
      cases hopen
  | collect request queue hqueue => exact ⟨h.isOver, h.closed, h.accepted⟩
  | handOver hne => exact ⟨h.isOver, h.closed, h.accepted⟩
  | close hopen =>
      rw [Phase.isOpen_of_isOver h.isOver] at hopen
      cases hopen
  | drained _ _ _ => exact ⟨rfl, h.closed, h.accepted⟩
  | stopped time _ _ => exact ⟨rfl, h.closed, h.accepted⟩

theorem Flow.ended (h : Flow m past told p) (hover : p.phase.isOver) :
    p.Ended p.gateway.accepted :=
  ⟨hover, h.isOpen.trans (Phase.isOpen_of_isOver hover), rfl⟩

/-- No call waits for anything any more. -/
theorem Flow.isWaitedFor_eq_false (h : Flow m past told p) {time : Nat}
    (hstopped : p.phase = .stopped time) : p.gateway.isWaitedFor = false := by
  have hover : p.phase.isOver := by rw [hstopped]; rfl
  have hclosed := (h.ended hover).closed
  unfold Gateway.isWaitedFor
  rw [List.any_eq_false]
  intro t ht hlive
  obtain ⟨number, hnumber⟩ := List.getElem?_of_mem ht
  have hjust := h.calls.justified number t hnumber
  cases hstage : t.stage <;> rw [hstage] at hlive hjust
  case blocked =>
    -- nobody waits for room in a closed queue
    cases hjust with
    | blocked hopen _ => exact absurd (hclosed.symm.trans hopen) (by decide)
  case accepted =>
    -- an accepted request has been answered, and the answer has been delivered
    cases hjust with
    | accepted hmem hnone =>
        obtain ⟨a, ha, heq⟩ := List.mem_map.mp ((h.answers_perm hover).symm.subset hmem)
        have hdelivery := (h.told_perm hstopped).symm.subset (List.mem_map_of_mem ha)
        apply hnone
        rw [← heq]
        exact List.mem_map_of_mem hdelivery
  all_goals cases hlive

/-- **Nothing is lost, repeated or put out of sequence.** Whatever the settings, and whoever does
what when: the batches so far, the buffer and the queue are, one after the other, what was accepted,
and each request is there once. No batch is empty; an empty buffer is not handed over at all. The
store has gone through just these batches, in sequence, besides what was done to it from outside.
When the windower has stopped, buffer and queue are empty, nothing will be accepted any more, and of
every request ever accepted the result has been delivered, so that no call waits any more. -/
theorem lossless (config : PipelineConfig) (m : Memory) (actions : List Action) :
    let p := (new config m).run actions
    let history := (new config m).history actions
    p.batches.flatten ++ p.buffer ++ p.gateway.queue = p.gateway.accepted ∧
    (p.gateway.accepted.map (·.responder)).Nodup ∧
    (∀ batch ∈ p.batches, batch ≠ []) ∧
    (p.buffer = [] → p.flush = p) ∧
    p.batches = history.filterMap (·.batch?) ∧
    p.memory = m.run history ∧
    ∀ time, p.phase = .stopped time →
      p.buffer = [] ∧ p.gateway.queue = [] ∧
      (∀ more, (p.run more).gateway.accepted = p.gateway.accepted) ∧
      ((m.answers history).map (·.1)).Perm p.gateway.accepted ∧
      ((new config m).written actions).Perm ((m.answers history).map Answer.delivery) ∧
      p.gateway.isWaitedFor = false := by
  intro p history
  have hflow : Flow m history ((new config m).written actions) p := run_flow config m actions
  refine ⟨hflow.accepted, hflow.calls.responders_nodup, hflow.batches_ne_nil, flush_of_nil,
    hflow.batches, hflow.memory, ?_⟩
  intro time hstopped
  have hover : p.phase.isOver := by rw [hstopped]; rfl
  obtain ⟨hbuffer, hqueue⟩ := hflow.emptied hover
  refine ⟨hbuffer, hqueue, fun more => ?_, hflow.answers_perm hover, hflow.told_perm hstopped,
    hflow.isWaitedFor_eq_false hstopped⟩
  exact ((p.run_course more).keeps_state Ended.change (hflow.ended hover)).accepted

theorem lossless_sample :
    let p := Sample.pipeline.run Sample.actions
    let history := Sample.pipeline.history Sample.actions
    p.phase = .stopped 5 ∧ p.buffer = [] ∧ p.gateway.queue = [] ∧
    (∀ more, (p.run more).gateway.accepted = p.gateway.accepted) ∧
    ((Sample.store.answers history).map (·.1)).Perm p.gateway.accepted ∧
    (Sample.pipeline.written Sample.actions).Perm
      ((Sample.store.answers history).map Answer.delivery) ∧
    p.gateway.isWaitedFor = false := by
  have hstopped : (Sample.pipeline.run Sample.actions).phase = .stopped 5 := by rfl
  obtain ⟨-, -, -, -, -, -, hend⟩ := lossless ⟨2, 100, 10, some 2⟩ Sample.store Sample.actions
  exact ⟨hstopped, hend 5 hstopped⟩

example : (Sample.pipeline.run Sample.actions).batches.map (·.map (·.responder)) =
    [[0, 1], [2]] := by
  rfl

end Pipeline

end Checkout
