import Checkout.Gateway.Basic

/-!
# Reading the queue by hand

A reader takes requests out of the queue one at a time and answers them when it likes, or not at
all. It knows the requests that it holds by their order; of two with one order it holds the later.
-/

namespace Checkout

/-- What a reader finds in the queue. -/
inductive Reading where
  | request (order : OrderId)
  | empty
  /-- The queue is closed and empty. -/
  | closed
  /-- The reader has destroyed the queue. -/
  | destroyed
  deriving DecidableEq

/-- What comes of a reply. -/
inductive ReplyFate where
  | sent
  /-- The call does not wait any more. -/
  | refused
  /-- The reader holds no request for the order. -/
  | unknown
  deriving DecidableEq

/-- A reader with the requests that it holds. -/
structure Reader where
  held : List (Pending Nat)
  hasQueue : Bool

namespace Reader

/-- A reader that has not read anything. -/
def new : Reader := ⟨[], true⟩

/-- The held request for an order. -/
def held? (r : Reader) (order : OrderId) : Option (Pending Nat) :=
  r.held.find? (·.request.order = order)

/-- Holds nothing for the order any more. -/
def letGo (r : Reader) (order : OrderId) : Reader :=
  { r with held := r.held.filter (·.request.order ≠ order) }

/-- Gives up the held request for an order, and tells so whether there was one. -/
def discard (r : Reader) (g : Gateway) (now : Nat) (order : OrderId) : Bool × Reader × Gateway :=
  match r.held? order with
  | none => (false, r, g)
  | some p => (true, r.letGo order, g.lose now p.responder)

/-- Takes a request out of the queue, without waiting for one. -/
def receive (r : Reader) (g : Gateway) (now : Nat) : Reading × Reader × Gateway :=
  if !r.hasQueue then (.destroyed, r, g)
  else
    match g.take? with
    | none => (if g.isOpen then .empty else .closed, r, g)
    | some (p, g) =>
      let (_, r, g) := r.discard g now p.request.order
      (.request p.request.order, { r with held := r.held ++ [p] }, g)

/-- Answers the held request for an order; the outcome may depend on the request. -/
def reply (r : Reader) (g : Gateway) (now : Nat) (order : OrderId) (outcome : Request → Outcome) :
    ReplyFate × Reader × Gateway :=
  match r.held? order with
  | none => (.unknown, r, g)
  | some p =>
    (if g.isAwaited p.responder then .sent else .refused, r.letGo order,
      g.answer now ⟨p.responder, outcome p.request⟩)

/-- Destroys the queue. -/
def destroy (r : Reader) (g : Gateway) (now : Nat) : Reader × Gateway :=
  ({ r with hasQueue := false }, g.destroy now)

/-- Goes away, with the queue and all that is held. -/
def leave (r : Reader) (g : Gateway) (now : Nat) : Gateway :=
  r.held.foldl (fun g p => g.lose now p.responder) (g.destroy now)

end Reader

end Checkout
