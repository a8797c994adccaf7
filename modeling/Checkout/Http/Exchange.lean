import Checkout.Gateway.Attendant
import Checkout.Http.Service

/-!
# Requests through a pipeline

Requests that come together are received one after the other, each as soon as everything has
happened that can follow the one before. Each is answered at once or waits for its call of the
gateway, and time passes only when all are received.
-/

namespace Checkout.Exchange

/-- What a request waits for. -/
inductive Wait where
  | over (response : HttpResponse)
  /-- The call of the given number. -/
  | call (number : Nat)

/-- Makes a call, and lets everything happen that can happen now, with an attendant at the queue if
there are instructions for one. Gives the instructions left. -/
def call (instructions : Option (List Instruction)) (p : Pipeline) (request : Request) :
    Option (List Instruction) × Pipeline :=
  let p := p.act (.call request)
  match instructions with
  | none => (none, p)
  | some instructions =>
    let (left, p) := Attendant.serve instructions p
    (some left, p)

/-- Receives requests that come together, and makes the calls of those that ask for one. -/
def beginAll (instructions : Option (List Instruction)) (p : Pipeline) :
    List Reception → List Wait × Option (List Instruction) × Pipeline
  | [] => ([], instructions, p)
  | .response r :: rs =>
    let (ws, rest) := beginAll instructions p rs
    (.over r :: ws, rest)
  | .checkout request :: rs =>
    let (left, q) := call instructions p request
    let (ws, rest) := beginAll left q rs
    (.call p.gateway.tickets.length :: ws, rest)

/-- The response, once what is waited for is over. -/
def response? (p : Pipeline) : Wait → Option HttpResponse
  | .over r => some r
  | .call number =>
    (p.gateway.tickets[number]?).bind fun t =>
      match t.stage with
      | .answered _ outcome => some (.ofOutcome outcome)
      | _ => none

/-- Requests that come together, with an attendant at the queue if there are instructions for one:
the responses, the instructions left, and the pipeline. -/
def serve (instructions : Option (List Instruction)) (p : Pipeline) (receptions : List Reception) :
    List (Option HttpResponse) × Option (List Instruction) × Pipeline :=
  let (waits, left, p) := beginAll instructions p receptions
  let p := p.awaitCalls
  (waits.map (response? p), left, p)

end Checkout.Exchange
