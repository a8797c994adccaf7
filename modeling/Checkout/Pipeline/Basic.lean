import Checkout.Config.Service
import Checkout.Gateway.Basic

/-!
# The pipeline

Callers put requests into the queue of the gateway; the windower is the only one to take them out. It
collects them in a buffer and hands the buffer to the batch processor at every tick, or earlier when
the buffer is full. Told to shut down, or left without anybody who could send a request, it closes
the queue, collects what is still in it, hands over one last batch, waits until all outcomes are
delivered, and stops.

What happens is cut into small actions. `Pipeline.step` says what each of them does, and does nothing
where an action is not possible; so a list of actions describes a run, whoever chooses their
sequence.
-/

namespace Checkout

/-- What the windower is doing. -/
inductive Phase where
  /-- It has not been started. -/
  | idle
  /-- It collects requests until the next tick. -/
  | running (nextTick : Nat)
  /-- The queue is closed, and it collects what is left. -/
  | draining
  /-- The last batch is handed over, and it waits for the deliveries. -/
  | finishing
  | stopped (time : Nat)
  deriving DecidableEq

/-- The gateway, the windower, and the store in memory behind them. -/
structure Pipeline where
  config : PipelineConfig
  now : Nat
  gateway : Gateway
  /-- New calls can still be made. -/
  isOffered : Bool
  /-- The windower is told to shut down. -/
  isCancelled : Bool
  phase : Phase
  buffer : List (Pending Nat)
  /-- Outcomes that are still to be delivered. -/
  outbox : List (Delivery Nat)
  /-- All batches handed over so far. -/
  batches : List (List (Pending Nat))
  memory : Memory

namespace Pipeline

/-- A pipeline before anything happens. -/
def new (config : PipelineConfig) (memory : Memory) : Pipeline where
  config := config
  now := 0
  gateway := .new config.capacity config.timeout
  isOffered := true
  isCancelled := false
  phase := .idle
  buffer := []
  outbox := []
  batches := []
  memory := memory

/-! ### The windower -/

/-- The time of the next tick. Two ticks are at least a millisecond apart. -/
def followingTick (p : Pipeline) : Nat := p.now + max p.config.tick 1

/-- The buffer holds as many requests as a batch may have. A limit of zero is none. -/
def isFull (p : Pipeline) : Bool := p.config.maxBatch.any fun most => 0 < most && most ≤ p.buffer.length

/-- Hands the buffer to the batch processor, if there is anything in it. -/
def flush (p : Pipeline) : Pipeline :=
  if p.buffer.isEmpty then p
  else
    let (deliveries, memory) := Batch.processInMemory p.buffer p.memory
    { p with
      buffer := []
      outbox := p.outbox ++ deliveries
      batches := p.batches ++ [p.buffer]
      memory }

/-- Moves the first request of the queue into the buffer. -/
def collect (p : Pipeline) : Pipeline :=
  match p.gateway.take? with
  | none => p
  | some (request, gateway) => { p with gateway, buffer := p.buffer ++ [request] }

/-- Starts the windower. Its first tick comes at once, and nothing is done at it. -/
def start (p : Pipeline) : Pipeline :=
  match p.phase with
  | .idle => { p with phase := .running p.followingTick }
  | _ => p

/-- Hands over a batch if a tick is due. -/
def tick (p : Pipeline) : Pipeline :=
  match p.phase with
  | .running nextTick =>
    if nextTick ≤ p.now then { p.flush with phase := .running p.followingTick } else p
  | _ => p

/-- Collects a request. If that fills the buffer, hands it over and puts the next tick off. -/
def receive (p : Pipeline) : Pipeline :=
  match p.phase with
  | .running _ =>
    let p' := p.collect
    if p'.isFull then { p'.flush with phase := .running p.followingTick } else p'
  | _ => p

/-- There is a reason to shut down: the windower is told so, or no request is left or can come. -/
def shouldStop (p : Pipeline) : Bool :=
  p.isCancelled || (!p.isOffered && !p.gateway.isWaitedFor && p.gateway.queue.isEmpty)

/-- Closes the queue, if there is a reason to shut down. -/
def stop (p : Pipeline) : Pipeline :=
  match p.phase with
  | .running _ =>
    if p.shouldStop then { p with phase := .draining, gateway := p.gateway.close p.now } else p
  | _ => p

/-- Collects what is left in the closed queue, and hands over the last batch when all is
collected. -/
def drain (p : Pipeline) : Pipeline :=
  match p.phase with
  | .draining =>
    if p.gateway.queue.isEmpty then { p.flush with phase := .finishing } else p.collect
  | _ => p

/-- Stops when all outcomes are delivered. -/
def finish (p : Pipeline) : Pipeline :=
  match p.phase with
  | .finishing => if p.outbox.isEmpty then { p with phase := .stopped p.now } else p
  | _ => p

/-- Delivers one of the outcomes, given by its place in the outbox. -/
def deliver (p : Pipeline) (place : Nat) : Pipeline :=
  match p.outbox[place]? with
  | none => p
  | some d => { p with outbox := p.outbox.eraseIdx place, gateway := p.gateway.answer p.now d }

/-! ### Actions -/

/-- Something that happens in or to a pipeline. -/
inductive Action where
  /-- A call is made. -/
  | call (request : Request)
  /-- The call that has waited longest for room gets it. -/
  | letIn
  /-- A call gives up at its deadline. -/
  | expire (number : Nat)
  /-- The caller of a call goes away. -/
  | abandon (number : Nat)
  /-- An outcome is delivered. -/
  | deliver (place : Nat)
  | start
  | tick
  | receive
  | stop
  | drain
  | finish
  /-- The windower is told to shut down. -/
  | cancel
  /-- No new calls will be made. -/
  | withdraw
  /-- The store is changed from outside. -/
  | setStock (product : ProductId) (quantity : UInt32)
  | failOn (operation : Operation)
  | clearFailures
  /-- Time passes. -/
  | wait (milliseconds : Nat)

/-- What an action does; nothing, where it is not possible. -/
def step (p : Pipeline) : Action → Pipeline
  | .call request =>
    if p.isOffered then { p with gateway := p.gateway.call p.now request } else p
  | .letIn => { p with gateway := p.gateway.letIn }
  | .expire number => { p with gateway := p.gateway.expire p.now number }
  | .abandon number => { p with gateway := p.gateway.abandon number }
  | .deliver place => p.deliver place
  | .start => p.start
  | .tick => p.tick
  | .receive => p.receive
  | .stop => p.stop
  | .drain => p.drain
  | .finish => p.finish
  | .cancel => { p with isCancelled := true }
  | .withdraw => { p with isOffered := false }
  | .setStock product quantity => { p with memory := p.memory.setStock product quantity }
  | .failOn operation => { p with memory := p.memory.failOn operation }
  | .clearFailures => { p with memory := p.memory.clearFailures }
  | .wait milliseconds => { p with now := p.now + milliseconds }

/-- What a list of actions comes to. -/
def run (p : Pipeline) (actions : List Action) : Pipeline := actions.foldl step p

end Pipeline

end Checkout
