import EventScanner.BlockRangeScanner.Common
import EventScanner.BlockRangeScanner.HistoricalRangeHandler

set_option relaxedAutoImplicit false
set_option autoImplicit false

/-!
# The rewind stream

`rewind_handler.rs`: the batches of a range are streamed from its upper end downwards. Behind
each batch the tip of the range is checked; when it was replaced, everything behind the common
ancestor up to the tip is streamed again, upwards, and the rewind goes on where it was.

## Main definitions

* `EventScanner.rewindRanges`, `EventScanner.handleReorgRescan` — the loop of the rewind.
* `EventScanner.RewindHandler` — the handler, with the functions of the source.
-/

namespace EventScanner

open HashChain

variable {Hash R : Type}

/-- `handle_reorg_rescan`: the channel state, and the tip from then on. -/
def handleReorgRescan (tip commonAncestor : Block Hash) (maxBlockRange : MaxBlockRange)
    (sender : Sender) (provider : RobustProvider Hash) :
    Proc (Event Hash) (ChannelState × Block Hash) := do
  if (← tryStream sender (reorgItem commonAncestor.number)).isClosed then pure (.closed, tip)
  else
    -- the new block at the height of the tip
    match ← getBlockByNumber provider (.number tip.number) with
    | .error e =>
      let _ ← tryStream sender (.error (.ofProvider e))
      pure (.closed, tip)
    | .ok newTip =>
      let rescanFrom := commonAncestor.number + 1
      let channel ← streamRanges sender
        (RangeIterator.forward rescanFrom tip.number maxBlockRange).ranges
      pure (channel, newTip)

section Rewind

variable [ReorgHandler Hash R]

/-- The `for range in &mut iter` loop of `handle_stream_rewind`. -/
def rewindRanges (maxBlockRange : MaxBlockRange) (sender : Sender)
    (provider : RobustProvider Hash) (checkReorg : Bool) :
    List RangeInclusive → Block Hash → R → Proc (Event Hash) Unit
  | [], _, _ => pure ()
  | range :: ranges, tip, reorgHandler => do
    if (← tryStream sender (dataItem range)).isClosed then pure ()
    else if checkReorg = false then
      rewindRanges maxBlockRange sender provider checkReorg ranges tip reorgHandler
    else
      let result ← checkBlock reorgHandler tip
      match result.1 with
      | .error e =>
        let _ ← tryStream sender (.error e)
        pure ()
      | .ok none => rewindRanges maxBlockRange sender provider checkReorg ranges tip result.2
      | .ok (some commonAncestor) =>
        let rescan ← handleReorgRescan tip commonAncestor maxBlockRange sender provider
        if rescan.1.isClosed then pure ()
        else rewindRanges maxBlockRange sender provider checkReorg ranges rescan.2 result.2

/-- `handle_stream_rewind`: from the block `tip` down to the block `toBlock`. -/
def handleStreamRewind (tip toBlock : Block Hash) (maxBlockRange : MaxBlockRange) (sender : Sender)
    (provider : RobustProvider Hash) (reorgHandler : R) : Proc (Event Hash) Unit := do
  let finalized ← getBlockNumberById provider (.number .finalized)
  let finalizedBlockNum := finalized.toOption.getD 0
  let checkReorg := decide (tip.number > finalizedBlockNum)
  let iter := RangeIterator.reverse tip.number toBlock.number maxBlockRange
  rewindRanges maxBlockRange sender provider checkReorg iter.ranges tip reorgHandler

end Rewind

/-- Streams the batches of a range downwards. -/
structure RewindHandler (Hash : Type) where
  /-- The node. -/
  provider : RobustProvider Hash
  /-- The maximal number of blocks of a range. -/
  maxBlockRange : MaxBlockRange
  /-- One end of the range. -/
  startId : BlockId Hash
  /-- The other end of the range. -/
  endId : BlockId Hash
  /-- The consumer's channel. -/
  sender : Sender
  /-- The reorg handler. -/
  reorgHandler : DefaultReorgHandler Hash

namespace RewindHandler

/-- `RewindHandler::new`. -/
def new (provider : RobustProvider Hash) (maxBlockRange : MaxBlockRange)
    (startId endId : BlockId Hash) (pastBlocksStorageCapacity : RingBufferCapacity)
    (sender : Sender) : RewindHandler Hash :=
  ⟨provider, maxBlockRange, startId, endId, sender,
    DefaultReorgHandler.new provider pastBlocksStorageCapacity⟩

/-- `RewindHandler::run`: the two ends in either order. -/
def run [DecidableEq Hash] (self : RewindHandler Hash) :
    Proc (Event Hash) (Except ScannerError Unit) := do
  let startBlock ← getBlock self.provider self.startId
  let endBlock ← getBlock self.provider self.endId
  match startBlock, endBlock with
  | .error e, _ | .ok _, .error e => pure (.error (.ofProvider e))
  | .ok startBlock, .ok endBlock =>
    let (tip, toBlock) :=
      if startBlock.number > endBlock.number then (startBlock, endBlock)
      else (endBlock, startBlock)
    handleStreamRewind tip toBlock self.maxBlockRange self.sender self.provider self.reorgHandler
    pure (.ok ())

end RewindHandler

end EventScanner
