import EventScanner.BlockRangeScanner.SyncHandler
import EventScanner.BlockRangeScanner.RewindHandler

set_option relaxedAutoImplicit false
set_option autoImplicit false

/-!
# The block-range scanner

`BlockRangeScanner` (`scanner.rs`) opens the four kinds of block-range streams: it resolves the
ends of the requested range and starts the handler that streams it.

## Main definitions

* `EventScanner.BlockRangeScanner` with `streamLive`, `streamHistorical`, `streamFrom` and
  `streamRewind`.
* `EventScanner.StreamRequest`, `EventScanner.BlockRangeScanner.stream` — one of these streams.

## Design

A stream is modelled from the moment it is opened to its end, the task it spawns included. The
result is what the call that opens it returns.
-/

namespace EventScanner

open HashChain

variable {Hash : Type}

/-- Opens block-range streams. -/
structure BlockRangeScanner (Hash : Type) where
  /-- The node. -/
  provider : RobustProvider Hash
  /-- The maximal number of blocks of a range. -/
  maxBlockRange : MaxBlockRange
  /-- How many checked blocks a reorg handler keeps. -/
  pastBlocksStorageCapacity : RingBufferCapacity

namespace BlockRangeScanner

variable (self : BlockRangeScanner Hash) (sender : Sender)

/-- The arguments of a live stream that starts at a block. -/
def liveConfig (startBlock blockConfirmations : ℕ) : LiveConfig Hash where
  streamStart := startBlock
  blockConfirmations := blockConfirmations
  maxBlockRange := self.maxBlockRange
  sender := sender
  provider := self.provider

variable [DecidableEq Hash]

/-- `stream_live`. -/
def streamLive (fuel : ℕ) (subscription : List SubscriptionItem) (blockConfirmations : ℕ) :
    Proc (Event Hash) (Except ScannerError Unit) := do
  match ← getBlockNumber self.provider with
  | .error e => pure (.error (.ofProvider e))
  | .ok latest =>
    -- the subscription yields the blocks behind `latest`
    let startBlock := (latest + 1) - blockConfirmations
    match ← subscribeBlocks self.provider with
    | .error e => pure (.error (.ofProvider e))
    | .ok () =>
      (self.liveConfig sender startBlock blockConfirmations).streamLiveBlocks fuel subscription
        (DefaultReorgHandler.new self.provider self.pastBlocksStorageCapacity) false
      pure (.ok ())

/-- `stream_historical`: the two ends in either order. -/
def streamHistorical (fuel : ℕ) (startId endId : BlockId Hash) :
    Proc (Event Hash) (Except ScannerError Unit) := do
  let startBlock ← getBlock self.provider startId
  let endBlock ← getBlock self.provider endId
  match startBlock, endBlock with
  | .error e, _ | .ok _, .error e => pure (.error (.ofProvider e))
  | .ok startBlock, .ok endBlock =>
    let (startBlockNum, endBlockNum) :=
      if startBlock.number > endBlock.number then (endBlock.number, startBlock.number)
      else (startBlock.number, endBlock.number)
    let handler : HistoricalRangeHandler Hash :=
      ⟨self.provider, self.maxBlockRange, startBlockNum, endBlockNum, sender⟩
    let _ ← handler.handleStreamHistoricalRange fuel
    pure (.ok ())

/-- `stream_from`. -/
def streamFrom (fuel : ℕ) (subscription : List SubscriptionItem) (startId : BlockId Hash)
    (blockConfirmations : ℕ) : Proc (Event Hash) (Except ScannerError Unit) :=
  (SyncHandler.new self.provider self.maxBlockRange startId blockConfirmations
    self.pastBlocksStorageCapacity sender).run fuel subscription

/-- `stream_rewind`. -/
def streamRewind (startId endId : BlockId Hash) : Proc (Event Hash) (Except ScannerError Unit) :=
  (RewindHandler.new self.provider self.maxBlockRange startId endId
    self.pastBlocksStorageCapacity sender).run

end BlockRangeScanner

/-- A stream to open, with the items of the block subscription that it reads. -/
inductive StreamRequest (Hash : Type)
  | live (subscription : List SubscriptionItem) (blockConfirmations : ℕ)
  | historical (startId endId : BlockId Hash)
  | sync (subscription : List SubscriptionItem) (startId : BlockId Hash) (blockConfirmations : ℕ)
  | rewind (startId endId : BlockId Hash)

/-- Open a stream and run it. -/
def BlockRangeScanner.stream [DecidableEq Hash] (self : BlockRangeScanner Hash) (sender : Sender)
    (fuel : ℕ) : StreamRequest Hash → Proc (Event Hash) (Except ScannerError Unit)
  | .live subscription blockConfirmations =>
    self.streamLive sender fuel subscription blockConfirmations
  | .historical startId endId => self.streamHistorical sender fuel startId endId
  | .sync subscription startId blockConfirmations =>
    self.streamFrom sender fuel subscription startId blockConfirmations
  | .rewind startId endId => self.streamRewind sender startId endId

end EventScanner
