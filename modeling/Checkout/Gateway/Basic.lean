import Checkout.Batch

/-!
# The gateway

A caller hands a request to the gateway and waits for its outcome. Requests go through a queue with
limited room; a caller for whom there is none waits until there is, behind those who came before.
Waiting for room and waiting for the outcome have one common deadline. A queue that is closed takes
no more requests, but those in it can still be taken out.

Times are in milliseconds.
-/

namespace Checkout

/-- Where a call stands. -/
inductive Stage where
  /-- It waits for room in the queue. -/
  | blocked
  /-- Its request was accepted into the queue, and it waits for the outcome. -/
  | accepted
  /-- It was told the outcome, at the given time. -/
  | answered (time : Nat) (outcome : Outcome)
  /-- Its caller went away. -/
  | abandoned

namespace Stage

/-- The call waits for room. -/
def isBlocked : Stage → Bool
  | blocked => true
  | _ => false

/-- The call waits for its outcome. -/
def isAccepted : Stage → Bool
  | accepted => true
  | _ => false

/-- The call still waits for something. -/
def isLive (s : Stage) : Bool := s.isBlocked || s.isAccepted

end Stage

/-- A call of the gateway. -/
structure Ticket where
  request : Request
  deadline : Nat
  stage : Stage

namespace Ticket

/-- Tells the caller, if it waits for the outcome, what came of it. -/
def answer (time : Nat) (outcome : Outcome) (t : Ticket) : Ticket :=
  match t.stage with
  | .accepted => { t with stage := .answered time outcome }
  | _ => t

/-- Turns the caller away, if it waits for room. -/
def turnAway (time : Nat) (error : CheckoutError) (t : Ticket) : Ticket :=
  match t.stage with
  | .blocked => { t with stage := .answered time (.error error) }
  | _ => t

/-- Gives up at the deadline, wherever the call waits. -/
def expire (time : Nat) (t : Ticket) : Ticket :=
  (t.turnAway time .admissionTimeout).answer time (.error .processingTimeout)

/-- The caller goes away. What it was told already, it keeps. -/
def abandon (t : Ticket) : Ticket := if t.stage.isLive then { t with stage := .abandoned } else t

/-- The deadline of a call that still waits. -/
def timer? (t : Ticket) : Option Nat := if t.stage.isLive then some t.deadline else none

/-- The call still waits, and its deadline has come. -/
def isDue (time : Nat) (t : Ticket) : Bool := t.stage.isLive && t.deadline ≤ time

end Ticket

/-- The gateway: its queue and all its calls. A call is known by its number, and is the responder of
its request. -/
structure Gateway where
  capacity : Nat
  timeout : Nat
  isOpen : Bool
  queue : List (Pending Nat)
  tickets : List Ticket
  /-- All requests ever accepted into the queue, in sequence. -/
  accepted : List (Pending Nat)

namespace Gateway

/-- A gateway before its first call. There is always room for one request. -/
def new (capacity timeout : Nat) : Gateway := ⟨max capacity 1, timeout, true, [], [], []⟩

/-- The queue has room for another request. -/
def hasRoom (g : Gateway) : Bool := g.queue.length < g.capacity

/-- The number of the call that has waited longest for room. -/
def firstBlocked? (g : Gateway) : Option Nat := g.tickets.findIdx? (·.stage.isBlocked)

/-- The number of the first call whose deadline has come. -/
def firstDue? (g : Gateway) (now : Nat) : Option Nat := g.tickets.findIdx? (·.isDue now)

/-- Some call still waits for something. -/
def isWaitedFor (g : Gateway) : Bool := g.tickets.any (·.stage.isLive)

/-- The deadlines of the calls that still wait. -/
def timers (g : Gateway) : List Nat := g.tickets.filterMap Ticket.timer?

/-- Changes the ticket of a number, if there is one. -/
def onTicket (g : Gateway) (number : Nat) (change : Ticket → Ticket) : Gateway :=
  { g with tickets := g.tickets.modify number change }

/-! ### Callers -/

/-- Puts a request behind those in the queue. -/
def enqueue (g : Gateway) (p : Pending Nat) : Gateway :=
  { g with queue := g.queue ++ [p], accepted := g.accepted ++ [p] }

/-- How a new call begins: turned away if the queue is closed; accepted if there is room and nobody
waits for it; otherwise waiting. -/
def entry (g : Gateway) (now : Nat) : Stage :=
  if !g.isOpen then .answered now (.error .shuttingDown)
  else if g.hasRoom && g.firstBlocked?.isNone then .accepted
  else .blocked

/-- A new call; its number is that of the calls before it. -/
def call (g : Gateway) (now : Nat) (request : Request) : Gateway :=
  let stage := g.entry now
  let g' := if stage.isAccepted then g.enqueue ⟨request, g.tickets.length⟩ else g
  { g' with tickets := g.tickets ++ [⟨request, now + g.timeout, stage⟩] }

/-- Accepts the call that has waited longest for room, if there is room now. -/
def letIn (g : Gateway) : Gateway :=
  match g.firstBlocked? with
  | none => g
  | some number =>
    match g.tickets[number]? with
    | none => g
    | some t =>
      if g.isOpen && g.hasRoom then
        (g.enqueue ⟨t.request, number⟩).onTicket number ({ · with stage := .accepted })
      else g

/-- Lets a call give up if its deadline has come. Its request stays in the queue. -/
def expire (g : Gateway) (now number : Nat) : Gateway :=
  g.onTicket number fun t => if t.isDue now then t.expire now else t

/-- The caller of a call goes away. The request stays in the queue. -/
def abandon (g : Gateway) (number : Nat) : Gateway := g.onTicket number Ticket.abandon

/-! ### The other end of the queue -/

/-- Takes the first request out of the queue. -/
def take? (g : Gateway) : Option (Pending Nat × Gateway) :=
  match g.queue with
  | [] => none
  | p :: ps => some (p, { g with queue := ps })

/-- Tells a call its outcome; one that does not wait for it any more is not told. -/
def answer (g : Gateway) (now : Nat) (d : Delivery Nat) : Gateway :=
  g.onTicket d.responder (·.answer now d.outcome)

/-- The call waits for its outcome. -/
def isAwaited (g : Gateway) (number : Nat) : Bool := (g.tickets[number]?).any (·.stage.isAccepted)

/-- Tells a call that there will be no outcome. -/
def lose (g : Gateway) (now number : Nat) : Gateway := g.answer now ⟨number, .error .resultLost⟩

/-- Closes the queue. Calls that wait for room are turned away. -/
def close (g : Gateway) (now : Nat) : Gateway :=
  { g with isOpen := false, tickets := g.tickets.map (·.turnAway now .shuttingDown) }

/-- Closes the queue and throws away what is in it. -/
def destroy (g : Gateway) (now : Nat) : Gateway :=
  let g := g.close now
  { g.queue.foldl (fun g p => g.lose now p.responder) g with queue := [] }

end Gateway

end Checkout
