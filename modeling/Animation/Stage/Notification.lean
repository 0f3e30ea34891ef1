/-
# Notification

A change is delivered, before anything else happens, to the listeners that hear it.
Who they are is settled when the delivery starts: a listener that comes during the
delivery is not served by it, and one that goes still is.
-/

import Animation.Stage.Script

namespace Animation.Script

variable {υ : Type} (host : Host υ)

/-- Deliver a change to all listeners that hear it, in the order of their registration. -/
def notify (n : Ref .notifier) (change : Change) : Script υ Unit := do
  let hearing := ((← stage).notifiers.get n).hearing change.name
  note (.notified n change)
  forEach (fun callback => host.notified callback change) hearing

/-- Deliver the changes that were held back, in order. -/
def flush (n : Ref .notifier) (batch : Batch) : Script υ Unit :=
  forEach (notify host n) batch.pending

end Animation.Script
