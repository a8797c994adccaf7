import Checkout.Pipeline.Basic

/-!
# Launching a pipeline

A pipeline is launched by making its queue and starting its windower. A queue is made with a number
of places that is neither zero nor above `Gateway.mostPlaces`, and the ticks of a windower have some
time between them. A pipeline whose settings do not allow for that cannot be launched at all.
-/

namespace Checkout

/-- Why a pipeline cannot be launched. -/
inductive LaunchFault where
  /-- The queue has no places. -/
  | noRoom
  /-- The queue has more places than can be counted with 61 bits. -/
  | tooMuchRoom (places : Nat)
  /-- There is no time between the ticks. -/
  | noPeriod
  deriving DecidableEq

namespace Gateway

/-- The most places that a queue can have: three of 64 bits are needed for something else. -/
def mostPlaces : Nat := (UInt64.size - 1) / 8

/-- Checks the number of places of a queue before it is made. -/
def checkRoom (places : Nat) : Except LaunchFault Unit :=
  if places = 0 then .error .noRoom
  else if mostPlaces < places then .error (.tooMuchRoom places)
  else .ok ()

end Gateway

namespace Pipeline

/-- Checks the time between ticks, in milliseconds, before the first of them. -/
def checkPeriod (period : Nat) : Except LaunchFault Unit :=
  if period = 0 then .error .noPeriod else .ok ()

/-- Makes a pipeline and starts its windower. -/
def launch (config : PipelineConfig) (memory : Memory) : Except LaunchFault Pipeline := do
  let p := new config memory
  Gateway.checkRoom p.gateway.capacity
  checkPeriod config.tick
  return p.start

end Pipeline

end Checkout
