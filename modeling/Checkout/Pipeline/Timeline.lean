import Checkout.Pipeline.Basic

/-!
# A pipeline in time

Left to itself, a pipeline does at once whatever it can do, and time passes only when it cannot do
anything. The next thing to happen is then the earliest timer: a deadline of a call or a tick.
-/

namespace Checkout.Pipeline

/-! ### What happens at once -/

/-- What the windower can do now. Shutting down comes before a tick, and a tick before collecting. -/
def windowerReady? (p : Pipeline) : Option Action :=
  match p.phase with
  | .idle | .stopped _ => none
  | .running nextTick =>
    if p.isCancelled then some .stop
    else if nextTick ≤ p.now then some .tick
    else if !p.gateway.queue.isEmpty then some .receive
    else if p.shouldStop then some .stop
    else none
  | .draining => some .drain
  | .finishing => if p.outbox.isEmpty then some .finish else none

/-- What can happen now. Deadlines come first, then deliveries, then the windower, and calls that
wait for room come last. -/
def ready? (p : Pipeline) : Option Action :=
  (p.gateway.firstDue? p.now).map .expire <|>
  (if p.outbox.isEmpty then none else some (.deliver 0)) <|>
  p.windowerReady? <|>
  (if p.gateway.isOpen && p.gateway.hasRoom && p.gateway.firstBlocked?.isSome then some .letIn
    else none)

/-- Does at most so many things that can happen now. -/
def settleWithin : Nat → Pipeline → Pipeline
  | 0, p => p
  | fuel + 1, p =>
    match p.ready? with
    | none => p
    | some action => settleWithin fuel (p.step action)

/-- Does all that can happen now. Each call can expire, get room, be collected and have its outcome
delivered once; besides there is at most a tick and the end. -/
def settle (p : Pipeline) : Pipeline :=
  settleWithin (4 * p.gateway.tickets.length + p.outbox.length + 5) p

/-- Does something to the pipeline, and then all that can happen now. -/
def act (p : Pipeline) (action : Action) : Pipeline := (p.step action).settle

/-! ### What happens next -/

/-- The timers that are set. -/
def timers (p : Pipeline) : List Nat :=
  match p.phase with
  | .running nextTick => nextTick :: p.gateway.timers
  | _ => p.gateway.timers

/-- The earliest timer. -/
def nextTimer? (p : Pipeline) : Option Nat := p.timers.min?

/-- Waits until the given time; no time passes if it is over. -/
def waitUntil (p : Pipeline) (time : Nat) : Pipeline := p.step (.wait (time - p.now))

/-- Lets at most so many timers go off, up to the given time. -/
def advanceWithin (fuel : Nat) (time : Nat) (p : Pipeline) : Pipeline :=
  match fuel with
  | 0 => p
  | fuel + 1 =>
    match p.nextTimer? with
    | none => p
    | some t => if t ≤ time then advanceWithin fuel time (p.waitUntil t).settle else p

/-- How many timers can go off up to the given time: one for each call, and a tick for each
millisecond. -/
def timersUntil (p : Pipeline) (time : Nat) : Nat := p.gateway.tickets.length + (time + 1 - p.now)

/-- Lets time pass up to the given time. -/
def advance (p : Pipeline) (time : Nat) : Pipeline :=
  (advanceWithin (p.timersUntil time) time p).waitUntil time

/-- Lets at most so many timers go off, until no call waits any more. -/
def awaitWithin (fuel : Nat) (p : Pipeline) : Pipeline :=
  match fuel with
  | 0 => p
  | fuel + 1 =>
    if !p.gateway.isWaitedFor then p
    else
      match p.nextTimer? with
      | none => p
      | some t => awaitWithin fuel (p.waitUntil t).settle

/-- Lets time pass until no call waits any more, at the latest until all deadlines are over. -/
def awaitCalls (p : Pipeline) : Pipeline :=
  awaitWithin (p.timersUntil (p.gateway.timers.max?.getD p.now)) p

end Checkout.Pipeline
