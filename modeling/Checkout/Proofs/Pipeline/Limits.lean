import Checkout.Proofs.Pipeline.Course
import Mathlib.Data.List.Induction

/-!
# How large batches get

A limit on batches bounds what is handed over at a tick and at a full buffer. When the windower
closes the queue, though, all that is left in buffer and queue goes into one last batch, however
many requests these are: up to one less than the limit, and as many as the queue has room for
(`batches_limited`). With a backlog in the queue this batch exceeds the limit
(`last_batch_too_large`).
-/

namespace Checkout

namespace Gateway

variable {g : Gateway}

/-! ## Room in the queue -/

/-- The queue holds no more requests than it has room for. -/
def WithinCapacity (g : Gateway) : Prop := g.queue.length ≤ g.capacity

namespace WithinCapacity

theorem enqueue (h : g.hasRoom) (p : Pending Nat) : (g.enqueue p).WithinCapacity := by
  have hlt : g.queue.length < g.capacity := of_decide_eq_true h
  show (g.queue ++ [p]).length ≤ g.capacity
  rw [List.length_append]
  exact hlt

theorem call (h : g.WithinCapacity) (now : Nat) (request : Request) :
    (g.call now request).WithinCapacity := by
  unfold Gateway.call
  dsimp only
  by_cases haccepted : (g.entry now).isAccepted
  · have hroom : g.hasRoom := by
      unfold entry at haccepted
      split at haccepted
      · cases haccepted
      · split at haccepted
        next hroom => exact (Bool.and_eq_true_iff.mp hroom).1
        next => cases haccepted
    rw [if_pos haccepted]
    exact enqueue hroom _
  · rw [if_neg haccepted]
    exact h

theorem letIn (h : g.WithinCapacity) : g.letIn.WithinCapacity := by
  unfold Gateway.letIn
  split
  · exact h
  split
  · exact h
  split
  next hroom => exact enqueue (Bool.and_eq_true_iff.mp hroom).2 _
  next => exact h

end WithinCapacity

/-- Moves of callers leave the room in the queue as it is. -/
theorem Moves.capacity {g' : Gateway} (h : g.Moves g') : g'.capacity = g.capacity := by
  cases h <;> rfl

end Gateway

namespace Pipeline

variable {p q : Pipeline} {most room : Nat} {action : Action}

/-! ## Actions beside the windower -/

/-- Something that the windower does. -/
def Action.isOfWindower : Action → Bool
  | .start | .tick | .receive | .stop | .drain | .finish => true
  | _ => false

/-- Something that the windower does only while the queue is open. -/
def Action.isOfOpen : Action → Bool
  | .start | .tick | .receive | .stop => true
  | _ => false

/-- Something that the windower does only after the queue is closed. -/
def Action.isOfClosed : Action → Bool
  | .drain | .finish => true
  | _ => false

theorem step_of_isOpen_eq_false (h : p.phase.isOpen = false) (haction : action.isOfOpen) :
    p.step action = p := by
  cases hphase : p.phase <;> rw [hphase] at h <;> cases h <;> cases action <;> cases haction <;>
    simp [step, start, tick, receive, stop, hphase]

theorem step_of_isOpen (h : p.phase.isOpen) (haction : action.isOfClosed) :
    p.step action = p := by
  cases hphase : p.phase <;> rw [hphase] at h <;> cases h <;> cases action <;> cases haction <;>
    simp [step, drain, finish, hphase]

/-- Requests may have come into the queue, if it is open. Of what concerns the windower nothing else
has changed. -/
structure Beside (p q : Pipeline) : Prop where
  config : q.config = p.config
  phase : q.phase = p.phase
  buffer : q.buffer = p.buffer
  batches : q.batches = p.batches
  isOpen : q.gateway.isOpen = p.gateway.isOpen
  queue : p.gateway.isOpen = false → q.gateway.queue = p.gateway.queue
  capacity : q.gateway.capacity = p.gateway.capacity
  within : p.gateway.WithinCapacity → q.gateway.WithinCapacity

namespace Beside

theorem refl (p : Pipeline) : Beside p p := ⟨rfl, rfl, rfl, rfl, rfl, fun _ => rfl, rfl, id⟩

theorem callers {g : Gateway} (h : p.gateway.Moves g)
    (hwithin : p.gateway.WithinCapacity → g.WithinCapacity) :
    Beside p { p with gateway := g } := by
  obtain ⟨new, hqueue, -, hopen, hclosed⟩ := h.queue
  refine ⟨rfl, rfl, rfl, rfl, hopen, fun hisClosed => ?_, h.capacity, hwithin⟩
  show g.queue = _
  rw [hqueue, hclosed hisClosed, List.append_nil]

end Beside

theorem step_beside (p : Pipeline) (h : action.isOfWindower = false) :
    Beside p (p.step action) := by
  cases action with
  | call request =>
      unfold step
      dsimp only
      split
      · exact .callers (p.gateway.moves_call _ _) fun hwithin => hwithin.call _ _
      · exact .refl p
  | letIn => exact .callers p.gateway.moves_letIn fun hwithin => hwithin.letIn
  | expire number => exact .callers (p.gateway.moves_expire _ _) id
  | abandon number => exact .callers (p.gateway.moves_abandon _) id
  | deliver place =>
      show Beside p (p.deliver place)
      unfold deliver
      split <;> exact ⟨rfl, rfl, rfl, rfl, rfl, fun _ => rfl, rfl, id⟩
  | start | tick | receive | stop | drain | finish => cases h
  | _ => exact ⟨rfl, rfl, rfl, rfl, rfl, fun _ => rfl, rfl, id⟩

/-- The first request of the queue is moved into the buffer, if there is one. -/
theorem collect_cases (p : Pipeline) :
    p.collect = p ∧ p.gateway.queue = [] ∨
      ∃ request queue, p.gateway.queue = request :: queue ∧
        p.collect =
          { p with gateway := { p.gateway with queue }, buffer := p.buffer ++ [request] } := by
  unfold collect Gateway.take?
  cases h : p.gateway.queue with
  | nil => exact .inl ⟨rfl, rfl⟩
  | cons request queue => exact .inr ⟨request, queue, rfl, rfl⟩

/-! ## While the queue is open -/

/-- No batch so far exceeds the limit, the buffer is below it, and the queue has room for `room`
requests and holds no more. -/
structure Limited (most room : Nat) (p : Pipeline) : Prop where
  config : p.config.maxBatch = some most
  batches : ∀ batch ∈ p.batches, batch.length ≤ most
  buffer : p.buffer.length < most
  capacity : p.gateway.capacity = room
  queue : p.gateway.WithinCapacity

namespace Limited

theorem beside (h : Limited most room p) (hbeside : Beside p q) : Limited most room q where
  config := hbeside.config ▸ h.config
  batches := hbeside.batches ▸ h.batches
  buffer := hbeside.buffer ▸ h.buffer
  capacity := hbeside.capacity.trans h.capacity
  queue := hbeside.within h.queue

/-- Handing over a buffer that is not above the limit. -/
theorem flush (hconfig : p.config.maxBatch = some most)
    (hbatches : ∀ batch ∈ p.batches, batch.length ≤ most) (hpos : 0 < most)
    (hbuffer : p.buffer.length ≤ most) (hcapacity : p.gateway.capacity = room)
    (hqueue : p.gateway.WithinCapacity) : Limited most room p.flush := by
  by_cases hnil : p.buffer = []
  · rw [flush_of_nil hnil]
    exact ⟨hconfig, hbatches, by rw [hnil]; exact hpos, hcapacity, hqueue⟩
  · rw [flush_of_ne_nil hnil]
    refine ⟨hconfig, fun batch hbatch => ?_, hpos, hcapacity, hqueue⟩
    rcases List.mem_append.mp hbatch with hbatch | hbatch
    · exact hbatches batch hbatch
    · rw [List.mem_singleton.mp hbatch]
      exact hbuffer

theorem goOn (h : Limited most room p) (phase : Phase) : Limited most room { p with phase } :=
  ⟨h.config, h.batches, h.buffer, h.capacity, h.queue⟩

theorem lt_of_not_isFull (hconfig : p.config.maxBatch = some most) (hpos : 0 < most)
    (h : p.isFull = false) : p.buffer.length < most := by
  unfold isFull at h
  rw [hconfig] at h
  simpa [hpos] using h

theorem receive (h : Limited most room p) : Limited most room p.receive := by
  have hpos : 0 < most := Nat.zero_lt_of_lt h.buffer
  unfold Pipeline.receive
  split
  next nextTick hphase =>
    obtain ⟨hconfig, hbatches, hbuffer, hcapacity, hqueue⟩ : p.collect.config.maxBatch = some most ∧
        (∀ batch ∈ p.collect.batches, batch.length ≤ most) ∧ p.collect.buffer.length ≤ most ∧
        p.collect.gateway.capacity = room ∧ p.collect.gateway.WithinCapacity := by
      rcases p.collect_cases with ⟨hsame, -⟩ | ⟨request, queue, hqueue, heq⟩
      · rw [hsame]
        exact ⟨h.config, h.batches, Nat.le_of_lt h.buffer, h.capacity, h.queue⟩
      · have hwithin := h.queue
        unfold Gateway.WithinCapacity at hwithin
        rw [hqueue] at hwithin
        rw [heq]
        refine ⟨h.config, h.batches, ?_, h.capacity, Nat.le_of_succ_le hwithin⟩
        show (p.buffer ++ [request]).length ≤ most
        rw [List.length_append]
        exact h.buffer
    dsimp only
    split
    next => exact (flush hconfig hbatches hpos hbuffer hcapacity hqueue).goOn _
    next hfull =>
      have hbelow := lt_of_not_isFull hconfig hpos (Bool.not_eq_true _ ▸ hfull)
      exact ⟨hconfig, hbatches, hbelow, hcapacity, hqueue⟩
  next => exact h

theorem tick (h : Limited most room p) : Limited most room p.tick := by
  have hflush : Limited most room p.flush :=
    flush h.config h.batches (Nat.zero_lt_of_lt h.buffer) (Nat.le_of_lt h.buffer) h.capacity h.queue
  unfold Pipeline.tick
  split
  next nextTick hphase =>
    split
    · exact hflush.goOn _
    · exact h
  next => exact h

theorem start (h : Limited most room p) : Limited most room p.start := by
  unfold Pipeline.start
  split
  · exact h.goOn _
  · exact h

end Limited

/-! ## After the queue is closed -/

/-- What a windower that has closed the queue hands over: all that was left, in one batch, if
anything was. -/
def lastBatch (left : List (Pending Nat)) : List (List (Pending Nat)) :=
  if left.isEmpty then [] else [left]

/-- The queue was closed after the batches `early`, and `left` was in buffer and queue then. -/
structure Closed (early : List (List (Pending Nat))) (left : List (Pending Nat)) (p : Pipeline) :
    Prop where
  isClosed : p.gateway.isOpen = false
  course :
    p.phase = .draining ∧ p.batches = early ∧ p.buffer ++ p.gateway.queue = left ∨
      p.phase.isOver ∧ p.batches = early ++ lastBatch left

namespace Closed

variable {early : List (List (Pending Nat))} {left : List (Pending Nat)}

theorem beside (h : Closed early left p) (hbeside : Beside p q) : Closed early left q := by
  refine ⟨hbeside.isOpen.trans h.isClosed, ?_⟩
  rw [hbeside.phase, hbeside.batches, hbeside.buffer, hbeside.queue h.isClosed]
  exact h.course

theorem drain (h : Closed early left p) : Closed early left p.drain := by
  unfold Pipeline.drain
  split
  next hphase =>
    obtain ⟨-, hbatches, hleft⟩ | ⟨hover, -⟩ := h.course
    · split
      next hempty =>
        rw [List.isEmpty_iff.mp hempty, List.append_nil] at hleft
        by_cases hnil : p.buffer = []
        · rw [flush_of_nil hnil]
          refine ⟨h.isClosed, .inr ⟨rfl, ?_⟩⟩
          rw [← hleft, hnil]
          exact hbatches.trans (List.append_nil _).symm
        · rw [flush_of_ne_nil hnil]
          refine ⟨h.isClosed, .inr ⟨rfl, ?_⟩⟩
          show p.batches ++ [p.buffer] = _
          rw [hbatches, hleft, lastBatch, if_neg (by simpa [← hleft] using hnil)]
      next hne =>
        rcases p.collect_cases with ⟨hsame, -⟩ | ⟨request, queue, hqueue, heq⟩
        · rw [hsame]
          exact h
        · rw [heq]
          refine ⟨h.isClosed, .inl ⟨hphase, hbatches, ?_⟩⟩
          show p.buffer ++ [request] ++ queue = left
          rw [← hleft, hqueue]
          simp
    · rw [hphase] at hover
      cases hover
  next => exact h

theorem finish (h : Closed early left p) : Closed early left p.finish := by
  unfold Pipeline.finish
  split
  next hphase =>
    split
    · obtain ⟨hdraining, -⟩ | ⟨-, hbatches⟩ := h.course
      · rw [hphase] at hdraining
        cases hdraining
      · exact ⟨h.isClosed, .inr ⟨rfl, hbatches⟩⟩
    · exact h
  next => exact h

theorem isOpen_eq_false (h : Closed early left p) : p.phase.isOpen = false := by
  obtain ⟨hphase, -⟩ | ⟨hover, -⟩ := h.course
  · rw [hphase]
    rfl
  · exact Phase.isOpen_of_isOver hover

/-- **A closed queue stays closed, and what was left makes the last batch.** -/
theorem step (h : Closed early left p) (action : Action) : Closed early left (p.step action) := by
  have hover := h.isOpen_eq_false
  cases haction : action.isOfWindower with
  | false => exact h.beside (p.step_beside haction)
  | true =>
      cases action with
      | drain => exact h.drain
      | finish => exact h.finish
      | start | tick | receive | stop =>
          rw [step_of_isOpen_eq_false hover rfl]
          exact h
      | _ => cases haction

end Closed

/-! ## Whole runs -/

theorem isOpen_receive (h : p.phase.isOpen) : p.receive.phase.isOpen := by
  have hcollect : p.collect.phase = p.phase := by
    rcases p.collect_cases with ⟨hsame, -⟩ | ⟨request, queue, -, heq⟩
    · rw [hsame]
    · rw [heq]
  unfold receive
  split
  · dsimp only
    split
    · rfl
    · rw [hcollect]
      exact h
  · exact h

/-- **While the queue is open, the limit is kept**; if the windower closes it, what is left in
buffer and queue then is what it will hand over last. -/
theorem Limited.step (h : Limited most room p) (hopen : p.phase.isOpen) (action : Action) :
    (p.step action).phase.isOpen ∧ Limited most room (p.step action) ∨
      action = .stop ∧ Closed p.batches (p.buffer ++ p.gateway.queue) (p.step action) := by
  cases haction : action.isOfWindower with
  | false =>
      have hbeside := p.step_beside haction
      exact .inl ⟨hbeside.phase ▸ hopen, h.beside hbeside⟩
  | true =>
      cases action with
      | start =>
          refine .inl ⟨?_, h.start⟩
          show p.start.phase.isOpen
          unfold Pipeline.start
          split
          · rfl
          · exact hopen
      | tick =>
          refine .inl ⟨?_, h.tick⟩
          show p.tick.phase.isOpen
          unfold Pipeline.tick
          split
          · split
            · rfl
            · exact hopen
          · exact hopen
      | receive => exact .inl ⟨isOpen_receive hopen, h.receive⟩
      | stop =>
          show p.stop.phase.isOpen ∧ Limited most room p.stop ∨ _ ∧ Closed _ _ p.stop
          unfold stop
          split
          · split
            · exact .inr ⟨rfl, rfl, .inl ⟨rfl, rfl, rfl⟩⟩
            · exact .inl ⟨hopen, h⟩
          · exact .inl ⟨hopen, h⟩
      | drain | finish =>
          rw [step_of_isOpen hopen rfl]
          exact .inl ⟨hopen, h⟩
      | _ => cases haction

theorem Limited.new {config : PipelineConfig} (m : Memory) (hmost : config.maxBatch = some most)
    (hpos : 0 < most) : Limited most (max config.capacity 1) (new config m) where
  config := hmost
  batches _ h := absurd h List.not_mem_nil
  buffer := hpos
  capacity := rfl
  queue := Nat.zero_le _

/-- In the course of a run, either the queue is open and the limit is kept, or the windower has
closed the queue at some time. -/
theorem limited_or_closed (hlimited : Limited most room p) (hopen : p.phase.isOpen)
    (actions : List Action) :
    (p.run actions).phase.isOpen ∧ Limited most room (p.run actions) ∨
      ∃ before after, actions = before ++ .stop :: after ∧ Limited most room (p.run before) ∧
        Closed (p.run before).batches ((p.run before).buffer ++ (p.run before).gateway.queue)
          (p.run actions) := by
  induction actions using List.reverseRecOn with
  | nil => exact .inl ⟨hopen, hlimited⟩
  | append_singleton actions action ih =>
      rw [run_append]
      rcases ih with ⟨hopen', hlimited'⟩ | ⟨before, after, rfl, hlimited', hclosed⟩
      · rcases hlimited'.step hopen' action with hstep | ⟨rfl, hclosed⟩
        · exact .inl hstep
        · exact .inr ⟨actions, [], rfl, hlimited', hclosed⟩
      · refine .inr ⟨before, after ++ [action], by simp, hlimited', ?_⟩
        exact hclosed.step action

theorem Closed.batches {early : List (List (Pending Nat))} {left : List (Pending Nat)}
    (h : Closed early left p) : p.batches = early ∨ p.batches = early ++ [left] := by
  obtain ⟨-, hbatches, -⟩ | ⟨-, hbatches⟩ := h.course
  · exact .inl hbatches
  · unfold lastBatch at hbatches
    split at hbatches
    · exact .inl (hbatches.trans (List.append_nil _))
    · exact .inr hbatches

/-- **The limit is kept until the queue is closed**, whatever the capacity and whoever does what
when. If the queue has not been closed, no batch exceeds the limit. Otherwise it was closed by some
action; none of the batches before exceeds the limit; and there is at most one batch after them, all
that was in the buffer, below the limit, and in the queue, up to its capacity. So the limit is kept
throughout if these were together not above it. -/
theorem batches_limited (config : PipelineConfig) (m : Memory) (actions : List Action)
    (hmost : config.maxBatch = some most) (hpos : 0 < most) :
    let p := (new config m).run actions
    (p.phase.isOpen ∧ ∀ batch ∈ p.batches, batch.length ≤ most) ∨
      ∃ before after, actions = before ++ .stop :: after ∧
        let q := (new config m).run before
        (∀ batch ∈ q.batches, batch.length ≤ most) ∧
        q.buffer.length < most ∧
        q.gateway.queue.length ≤ max config.capacity 1 ∧
        (p.batches = q.batches ∨ p.batches = q.batches ++ [q.buffer ++ q.gateway.queue]) ∧
        (q.buffer.length + q.gateway.queue.length ≤ most →
          ∀ batch ∈ p.batches, batch.length ≤ most) := by
  intro p
  rcases limited_or_closed (Limited.new m hmost hpos) rfl actions with
    ⟨hopen, hlimited⟩ | ⟨before, after, heq, hlimited, hclosed⟩
  · exact .inl ⟨hopen, hlimited.batches⟩
  refine .inr ⟨before, after, heq, hlimited.batches, hlimited.buffer, ?_, ?_⟩
  · rw [← hlimited.capacity]
    exact hlimited.queue
  refine ⟨hclosed.batches, fun hleft batch hbatch => ?_⟩
  rcases hclosed.batches with hsame | hlast
  · rw [show p.batches = _ from hsame] at hbatch
    exact hlimited.batches batch hbatch
  · rw [show p.batches = _ from hlast] at hbatch
    rcases List.mem_append.mp hbatch with hbatch | hbatch
    · exact hlimited.batches batch hbatch
    · rw [List.mem_singleton.mp hbatch, List.length_append]
      exact hleft

theorem batches_limited_sample :
    let p := Sample.pipeline.run Sample.actions
    p.phase.isOpen = false ∧
      ∃ before after, Sample.actions = before ++ .stop :: after ∧
        let q := Sample.pipeline.run before
        (∀ batch ∈ q.batches, batch.length ≤ 2) ∧ q.buffer.length < 2 ∧
        q.gateway.queue.length ≤ 2 ∧
        (p.batches = q.batches ∨ p.batches = q.batches ++ [q.buffer ++ q.gateway.queue]) := by
  have hclosed : (Sample.pipeline.run Sample.actions).phase.isOpen = false := by rfl
  rcases batches_limited ⟨2, 100, 10, some 2⟩ Sample.store Sample.actions rfl (by decide) with
    ⟨hopen, -⟩ | ⟨before, after, heq, hbatches, hbuffer, hqueue, hlast, -⟩
  · exact absurd (hopen.symm.trans hclosed) (by decide)
  · exact ⟨hclosed, before, after, heq, hbatches, hbuffer, hqueue, hlast⟩

/-! ## A batch that is too large

Two requests are in the queue when the windower is told to shut down, and a batch may have one. -/

/-- Calls that come before the windower is started, and the shutdown before it has read them. -/
def backlog : List Action :=
  [.call Sample.first, .call Sample.second, .cancel, .start, .stop, .drain, .drain, .drain]

/-- **The last batch exceeds the limit** when more is left than one batch may have. -/
theorem last_batch_too_large :
    (∃ batch ∈ ((new ⟨2, 100, 10, some 1⟩ Sample.store).run backlog).batches,
      1 < batch.length) ∧
    ((new ⟨2, 100, 10, some 1⟩ Sample.store).run backlog).batches.map (·.map (·.responder)) =
      [[0, 1]] := by
  have hbatches : ((new ⟨2, 100, 10, some 1⟩ Sample.store).run backlog).batches =
      [[⟨Sample.first, 0⟩, ⟨Sample.second, 1⟩]] := by rfl
  rw [hbatches]
  exact ⟨⟨_, List.mem_singleton_self _, by decide⟩, rfl⟩

end Pipeline

end Checkout
