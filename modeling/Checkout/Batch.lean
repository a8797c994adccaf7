import Checkout.Store.Memory

/-!
# Processing a batch

A batch is a list of requests, each with somebody who waits for the outcome. `Batch.process` first
turns away every request that repeats an identifier of one before it. The others are settled in one
transaction: those that exist already are turned away, the demand of the rest is resolved against
the stock, and what survives is stored and read back. If any action of the store fails, the
transaction is rolled back and every request of it fails in the same way. Every request has exactly
one delivery.

Between the transaction and the deliveries the program may report how many orders have been
persisted, how many requests rejected, and how many must therefore be out of stock. With a store that
answers with orders it was not asked for this last number can get below zero, and a program that
checks its numbers stops there. `Batch.processIn` has the report and the stop.
-/

namespace Checkout

/-- What comes of a request. -/
abbrev Outcome := Except CheckoutError Order

/-- A request and the one who waits for its outcome. -/
structure Pending (ρ : Type) where
  request : Request
  responder : ρ

/-- An outcome for the one who waits for it. -/
structure Delivery (ρ : Type) where
  responder : ρ
  outcome : Outcome

namespace Batch

variable {σ ρ : Type}

/-! ### Repetitions within the batch -/

/-- Why a request is turned away after those with the given orders and items, if it is: its order
first, else the first of its items. -/
def clash (orders : IdentifierSet .order) (items : IdentifierSet .item) (r : Request) :
    Option CheckoutError :=
  if r.order ∈ orders then some (.duplicateOrder (toString r.order))
  else (r.items.find? (·.id ∈ items)).map fun i => .duplicateItem (toString i.id)

/-- Parts a batch into the deliveries for requests that are turned away and the requests that are
kept. Only kept requests stand in the way of later ones. -/
def screen (orders : IdentifierSet .order) (items : IdentifierSet .item) :
    List (Pending ρ) → List (Delivery ρ) × List (Pending ρ)
  | [] => ([], [])
  | p :: ps =>
    match clash orders items p.request with
    | some e =>
      let (rejected, kept) := screen orders items ps
      (⟨p.responder, .error e⟩ :: rejected, kept)
    | none =>
      let (rejected, kept) :=
        screen (orders.insert p.request.order) (items.insertMany (p.request.items.map (·.id))) ps
      (rejected, p :: kept)

/-! ### The transaction -/

/-- What a transaction comes to: the orders stored, and the requests turned away because they exist
already. Both name each order at most once. -/
structure Settlement where
  persisted : List Order
  rejected : List (OrderId × CheckoutError)

namespace Settlement

/-- Puts an order in the place of any of the same identifier. -/
def index (orders : List Order) (o : Order) : List Order :=
  orders.filter (·.id ≠ o.id) ++ [o]

/-- The outcome of a request. -/
def outcome (s : Settlement) (r : Request) : Outcome :=
  match s.rejected.find? (·.1 = r.order) with
  | some (_, e) => .error e
  | none =>
    match s.persisted.find? (·.id = r.order) with
    | some o => .ok o
    | none => .error .outOfStock

end Settlement

/-- The requests whose order or items the store has already. -/
def persistedClashes (store : Store σ) (requests : List Request) :
    StoreAction σ (List (OrderId × CheckoutError)) := do
  let orders ← store.existingOrders (requests.map (·.order))
  let items ← store.existingItems (requests.flatMap (·.items.map (·.id)))
  let orders := Std.ExtTreeSet.ofList orders
  let items := Std.ExtTreeSet.ofList items
  return requests.filterMap fun r => (clash orders items r).map (r.order, ·)

/-- The orders made of what survives, one for each request that keeps an item. -/
def survivingOrders (resolution : Resolution) (requests : List Request) : List Order :=
  requests.zipIdx.filterMap fun (r, index) =>
    let items := resolution.survivingItems index r
    if items.isEmpty then none else some (r.toOrder items)

/-- Stores the orders, without and then with their items, and reads them back. -/
def persist (store : Store σ) (orders : List Order) : StoreAction σ (List Order) := do
  store.insertOrders orders
  store.insertItems (orders.flatMap (·.items))
  if orders.isEmpty then return [] else store.fetchOrders (orders.map (·.id))

/-- What happens inside the transaction. Without an admitted request nothing is resolved. -/
def settle (store : Store σ) (requests : List Request) : StoreAction σ Settlement := do
  let rejected ← persistedClashes store requests
  let admitted := requests.filter fun r => !rejected.any (·.1 = r.order)
  if admitted.isEmpty then return ⟨[], rejected⟩
  let ledger := Ledger.merge admitted
  let stock ← store.fetchStock ledger.products
  let resolution := ledger.resolve stock
  store.decrementStock resolution.decrements
  let persisted ← persist store (survivingOrders resolution admitted)
  return ⟨persisted.foldl Settlement.index [], rejected⟩

/-- Settles the requests in a transaction of their own: committed if all went well, otherwise rolled
back. A failing rollback changes nothing about the failure. -/
def transact (store : Store σ) (requests : List Request) : StoreAction σ Settlement := do
  store.start
  match ← StoreAction.attempt (settle store requests) with
  | .ok s =>
    store.commit
    return s
  | .error e =>
    let _ ← StoreAction.attempt store.rollback
    throw e

/-! ### The report on a batch -/

/-- How the program is built and run. -/
structure Mode where
  /-- Every batch that is committed is reported on. -/
  reports : Bool
  /-- A number that would get below zero stops the program. Otherwise it goes on from the top. -/
  checked : Bool
  deriving DecidableEq

/-- The difference of two numbers of 64 bits, unless the program stops over it. -/
def Mode.subtract? (mode : Mode) (m n : Nat) : Option Nat :=
  if n ≤ m then some (m - n) else if mode.checked then none else some (UInt64.size + m - n)

/-- What is reported of a batch. -/
structure Report where
  persisted : Nat
  rejected : Nat
  outOfStock : Nat
  deriving DecidableEq

/-- The report on so many requests: those that are neither persisted nor rejected are taken to be out
of stock. -/
def Settlement.report? (s : Settlement) (mode : Mode) (requests : Nat) : Option Report := do
  let others ← mode.subtract? requests s.persisted.length
  let outOfStock ← mode.subtract? others s.rejected.length
  return ⟨s.persisted.length, s.rejected.length, outOfStock⟩

/-- Reports on so many requests if they have been settled, unless the program stops over it. -/
def Mode.report? (mode : Mode) (requests : Nat) : Except StoreError Settlement → Option Unit
  | .ok s => if mode.reports then (s.report? mode requests).map fun _ => () else some ()
  | .error _ => some ()

/-! ### The whole batch -/

/-- What every kept request is told. -/
def settledOutcome (settled : Except StoreError Settlement) (r : Request) : Outcome :=
  match settled with
  | .ok s => s.outcome r
  | .error e => .error (.store e)

/-- Processes a batch. The store is left alone if no request is kept. Otherwise the report is made
when the transaction is over, before anybody is told anything. -/
def processWith {m : Type → Type} [Monad m] [MonadLiftT (StateM σ) m]
    (report : Nat → Except StoreError Settlement → m Unit) (store : Store σ)
    (batch : List (Pending ρ)) : m (List (Delivery ρ)) := do
  let (rejected, kept) := screen ∅ ∅ batch
  if kept.isEmpty then return rejected
  let settled ← monadLift (transact store (kept.map (·.request))).run
  report kept.length settled
  return rejected ++ kept.map fun p => ⟨p.responder, settledOutcome settled p.request⟩

/-- Processes a batch in a mode. If the program stops over the report, nobody is told anything. -/
def processIn (mode : Mode) (store : Store σ) (batch : List (Pending ρ)) :
    OptionT (StateM σ) (List (Delivery ρ)) :=
  processWith (fun requests settled => .mk (pure (mode.report? requests settled))) store batch

/-- Processes a batch that is not reported on. -/
def process (store : Store σ) (batch : List (Pending ρ)) : StateM σ (List (Delivery ρ)) :=
  processWith (fun _ _ => pure ()) store batch

/-- Processes those requests that were not refused, and tells what came of each request; also how
many outcomes were delivered. -/
def processChecked (store : Store σ) (requests : List (Except Refusal Request)) :
    StateM σ (List (Option Outcome) × Nat) := do
  let batch := requests.zipIdx.filterMap fun (r, index) => r.toOption.map (Pending.mk · index)
  let deliveries ← process store batch
  let outcome (r : Except Refusal Request) (index : Nat) : Option Outcome :=
    match r with
    | .error refusal => some (.error (.validation refusal))
    | .ok _ => (deliveries.find? (·.responder = index)).map (·.outcome)
  return (requests.zipIdx.map fun (r, index) => outcome r index, deliveries.length)

/-- Processes a batch on the store in memory. -/
def processInMemory (batch : List (Pending ρ)) (m : Memory) : List (Delivery ρ) × Memory :=
  let (deliveries, s) := (process Memory.store batch).run ⟨m, m.contents⟩
  (deliveries, s.memory)

end Batch

end Checkout
