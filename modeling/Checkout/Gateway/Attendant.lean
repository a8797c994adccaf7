import Checkout.Pipeline.Timeline

/-!
# An attendant at the queue

Instead of a windower, an attendant takes every request out of the queue as soon as it is there, and
deals with each as its next instruction says.
-/

namespace Checkout

/-- How to deal with a request. -/
inductive Instruction where
  /-- Answer with all that was asked for. -/
  | grant
  | answer (outcome : Outcome)
  /-- Let the caller know that there will be no answer. -/
  | lose
  /-- Do not answer. -/
  | hold

namespace Instruction

/-- Deals with a request. -/
def apply (g : Gateway) (now : Nat) (p : Pending Nat) : Instruction → Gateway
  | grant => g.answer now ⟨p.responder, .ok (p.request.toOrder p.request.items)⟩
  | answer outcome => g.answer now ⟨p.responder, outcome⟩
  | lose => g.lose now p.responder
  | hold => g

end Instruction

namespace Attendant

/-- Takes at most so many requests out of the queue and deals with them; without instruction, a
request is granted. Gives the instructions left. -/
def serveWithin (fuel : Nat) (instructions : List Instruction) (p : Pipeline) :
    List Instruction × Pipeline :=
  match fuel with
  | 0 => (instructions, p)
  | fuel + 1 =>
    match p.gateway.take? with
    | none => (instructions, p)
    | some (pending, gateway) =>
      let gateway := (instructions.head?.getD .grant).apply gateway p.now pending
      serveWithin fuel instructions.tail { p with gateway }.settle

/-- Takes all requests out of the queue, and those that get in meanwhile. -/
def serve (instructions : List Instruction) (p : Pipeline) : List Instruction × Pipeline :=
  serveWithin p.gateway.tickets.length instructions p

end Attendant

end Checkout
