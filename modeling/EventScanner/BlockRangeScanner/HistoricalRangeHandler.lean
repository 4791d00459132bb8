import EventScanner.BlockRangeScanner.RangeIterator
import EventScanner.Provider

set_option relaxedAutoImplicit false
set_option autoImplicit false

/-!
# The historical block stream

`historical_range_handler.rs`: the finalized part of a fixed range is streamed without any
check; then the rest is streamed over and over, until its last block is the same before and
after.

## Main definitions

* `EventScanner.streamRanges` — send the ranges of an iterator one after the other.
* `EventScanner.HistoricalRangeHandler` — the handler, with the functions of the source.
-/

namespace EventScanner

open HashChain

variable {Hash : Type}

/-- The `for range in iter` loops of the handlers: send range after range, until the receiver is
gone. -/
def streamRanges (sender : Sender) : List RangeInclusive → Proc (Event Hash) ChannelState
  | [] => pure .opened
  | range :: ranges => do
    if (← tryStream sender (dataItem range)).isClosed then pure .closed
    else streamRanges sender ranges

/-- Sending ranges keeps what each of them keeps. -/
lemma triple_streamRanges_of_sent {P E : Log Hash → Prop} {sender : Sender}
    {ranges : List RangeInclusive}
    (h : ∀ range ∈ ranges, ∀ log, P log → P (.sent (dataItem range) :: log)) :
    Proc.Triple P (streamRanges sender ranges) (fun _ => P) E := by
  induction ranges with
  | nil => exact Proc.Triple.pure fun _ h => h
  | cons range ranges ih =>
    refine Proc.Triple.bind (triple_tryStream (Q := fun _ => P) (h range List.mem_cons_self)
      fun _ h => h) fun channel => ?_
    cases channel with
    | opened => exact ih fun range hrange => h range (List.mem_cons_of_mem _ hrange)
    | closed => exact Proc.Triple.pure fun _ h => h

/-- Streams the blocks of a fixed range. -/
structure HistoricalRangeHandler (Hash : Type) where
  /-- The node. -/
  provider : RobustProvider Hash
  /-- The maximal number of blocks of a range. -/
  maxBlockRange : MaxBlockRange
  /-- The first block to stream. -/
  start : ℕ
  /-- The last block to stream, the field `end` of the code. -/
  stop : ℕ
  /-- The consumer's channel. -/
  sender : Sender

namespace HistoricalRangeHandler

variable [DecidableEq Hash] (self : HistoricalRangeHandler Hash)

/-- `stream_finalized_blocks`: the first block that is not finalized, and the finalized block
number; `none` if the channel closed. -/
def streamFinalizedBlocks : Proc (Event Hash) (Option (ℕ × ℕ)) := do
  let finalized ← getBlockNumberById self.provider (.number .finalized)
  let finalizedBlockNum := finalized.toOption.getD 0
  let finalizedBatchEnd := min finalizedBlockNum self.stop
  let iter := RangeIterator.forward self.start finalizedBatchEnd self.maxBlockRange
  if (← streamRanges self.sender iter.ranges).isClosed then pure none
  else pure (some (max self.start (finalizedBatchEnd + 1), finalizedBlockNum))

/-- `get_reorged_end_block`: the block that has replaced the end block, if any. -/
def getReorgedEndBlock (endBlock : Block Hash) : Proc (Event Hash) (Option (Block Hash)) := do
  match ← getBlockByNumber self.provider (.number endBlock.number) with
  | .error e =>
    let _ ← tryStream self.sender (.error (.ofProvider e))
    pure none
  | .ok newEndBlock =>
    if newEndBlock.hash = endBlock.hash then pure none else pure (some newEndBlock)

/-- The loop of `stream_non_finalized_blocks`. It goes on as long as the end block keeps
changing, so it runs on fuel. -/
def streamUntilStable (nonFinalizedStart minCommonAncestor : ℕ) :
    ℕ → Block Hash → Proc (Event Hash) ChannelState
  | 0, _ => Proc.halt
  | fuel + 1, endBlock => do
    let iter := RangeIterator.forward nonFinalizedStart self.stop self.maxBlockRange
    if (← streamRanges self.sender iter.ranges).isClosed then pure .closed
    else
      match ← self.getReorgedEndBlock endBlock with
      | none => pure .opened
      | some newEndBlock =>
        if (← tryStream self.sender (reorgItem minCommonAncestor)).isClosed then pure .closed
        else streamUntilStable nonFinalizedStart minCommonAncestor fuel newEndBlock

/-- `stream_non_finalized_blocks`. -/
def streamNonFinalizedBlocks (fuel nonFinalizedStart finalizedBlockNum : ℕ) :
    Proc (Event Hash) ChannelState := do
  let minCommonAncestor := max (nonFinalizedStart - 1) finalizedBlockNum
  match ← getBlockByNumber self.provider (.number self.stop) with
  | .error e =>
    let _ ← tryStream self.sender (.error (.ofProvider e))
    pure .closed
  | .ok endBlock => self.streamUntilStable nonFinalizedStart minCommonAncestor fuel endBlock

/-- `handle_stream_historical_range`. -/
def handleStreamHistoricalRange (fuel : ℕ) : Proc (Event Hash) ChannelState := do
  match ← self.streamFinalizedBlocks with
  | none => pure .closed
  | some (nonFinalizedStart, finalizedBlockNum) =>
    if nonFinalizedStart > self.stop then pure .opened -- all blocks already finalized
    else self.streamNonFinalizedBlocks fuel nonFinalizedStart finalizedBlockNum

/-- `run_sync`. -/
def runSync (fuel : ℕ) : Proc (Event Hash) ChannelState := self.handleStreamHistoricalRange fuel

end HistoricalRangeHandler

end EventScanner
