import Checkout.Config.Address
import Checkout.Config.Environment

/-!
# The settings of the service

How requests are queued and batched, and where the service listens.
-/

namespace Checkout

/-- How requests are queued and batched. Times are in milliseconds. -/
structure PipelineConfig where
  capacity : Nat
  timeout : Nat
  tick : Nat
  maxBatch : Option Nat
  deriving DecidableEq

namespace PipelineConfig

/-- What holds if nothing else is said. -/
def default : PipelineConfig := ⟨1024, 3000, 300, none⟩

end PipelineConfig

/-- The settings of the service. Times are in milliseconds. -/
structure ServiceConfig where
  tick : Nat
  capacity : Nat
  timeout : Nat
  maxBatch : Option Nat
  address : SocketAddress
  deriving DecidableEq

namespace ServiceConfig

/-- A number that must not be zero. -/
def positive (e : Environment) (name : String) (bound default : Nat) : Except ConfigFault Nat := do
  let n ← e.number name bound default
  if n = 0 then throw (.zero name) else return n

/-- Reads the settings. Zero requests per batch stand for any number. -/
def ofEnvironment (e : Environment) : Except ConfigFault ServiceConfig := do
  let tick ← positive e "CHECKOUT_TICK_MS" UInt64.size 300
  let capacity ← positive e "CHECKOUT_QUEUE_CAPACITY" UInt64.size 1024
  let timeout ← e.number "CHECKOUT_TIMEOUT_MS" UInt64.size 3000
  let maxBatch ← e.number "CHECKOUT_MAX_BATCH_SIZE" UInt64.size 0
  match SocketAddress.ofString? (e.textOr "SERVER_ADDR" "0.0.0.0:3000") with
  | none => throw (.notAnAddress "SERVER_ADDR")
  | some address =>
    return ⟨tick, capacity, timeout, if maxBatch = 0 then none else some maxBatch, address⟩

/-- The part of the settings that the pipeline needs. -/
def pipeline (c : ServiceConfig) : PipelineConfig := ⟨c.capacity, c.timeout, c.tick, c.maxBatch⟩

end ServiceConfig

end Checkout
