/-!
# Waiting for the end

The service runs until it is interrupted or terminated by a signal, or until its token is cancelled.
Other signals, and the cancellation of a token derived from it, do not end it.
-/

namespace Checkout

/-- Something that happens while the service runs. -/
inductive ShutdownEvent where
  | interrupt
  | terminate
  | otherSignal
  | cancel
  | cancelChild
  deriving DecidableEq

namespace ShutdownEvent

/-- The event ends the service. -/
def endsService : ShutdownEvent → Bool
  | .interrupt | .terminate | .cancel => true
  | .otherSignal | .cancelChild => false

end ShutdownEvent

/-- When the waiting is over. -/
inductive ShutdownCause where
  /-- Before anything happened. -/
  | atOnce
  /-- With the event of this number. -/
  | event (index : Nat)
  deriving DecidableEq

namespace ShutdownCause

/-- When the waiting for events is over, if it is. A token that is cancelled already ends it at
once. -/
def wait (cancelled : Bool) (events : List ShutdownEvent) : Option ShutdownCause :=
  if cancelled then some .atOnce else (events.findIdx? (·.endsService)).map .event

/-- The token is cancelled in the end: it was so before, or the event that ended the waiting was its
cancellation. -/
def cancelledAfter (cancelled : Bool) (events : List ShutdownEvent) : Bool :=
  cancelled || events.find? (·.endsService) = some .cancel

end ShutdownCause

end Checkout
