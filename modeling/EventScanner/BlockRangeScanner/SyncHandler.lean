import EventScanner.BlockRangeScanner.Common
import EventScanner.BlockRangeScanner.HistoricalRangeHandler

set_option relaxedAutoImplicit false
set_option autoImplicit false

/-!
# The sync block stream

`sync_handler.rs`: catch up on the blocks up to the confirmed tip, as often as the tip has moved
meanwhile, then go over to the live stream.

## Main definitions

* `EventScanner.SyncHandler` — the handler, with the functions of the source.

## Design

The subscription opened for the live phase is given by the items it yields. The two calls that
`try_join!` makes at once are made in the order in which it polls them.
-/

namespace EventScanner

open HashChain

variable {Hash R : Type}

/-- Catches up on past blocks, then streams live ones. -/
structure SyncHandler (Hash : Type) where
  /-- The node. -/
  provider : RobustProvider Hash
  /-- The maximal number of blocks of a range. -/
  maxBlockRange : MaxBlockRange
  /-- The block to start at. -/
  startId : BlockId Hash
  /-- How many blocks a block needs on top of it to be streamed. -/
  blockConfirmations : ℕ
  /-- The consumer's channel. -/
  sender : Sender
  /-- The reorg handler for the live phase. -/
  reorgHandler : DefaultReorgHandler Hash

namespace SyncHandler

/-- `SyncHandler::new`. -/
def new (provider : RobustProvider Hash) (maxBlockRange : MaxBlockRange) (startId : BlockId Hash)
    (blockConfirmations : ℕ) (pastBlocksStorageCapacity : RingBufferCapacity) (sender : Sender) :
    SyncHandler Hash :=
  ⟨provider, maxBlockRange, startId, blockConfirmations, sender,
    DefaultReorgHandler.new provider pastBlocksStorageCapacity⟩

variable (self : SyncHandler Hash)

/-- The arguments of the live stream that starts at a block. -/
def liveConfig (startBlock : ℕ) : LiveConfig Hash where
  streamStart := startBlock
  blockConfirmations := self.blockConfirmations
  maxBlockRange := self.maxBlockRange
  sender := self.sender
  provider := self.provider

/-- `transition_to_live`. -/
def transitionToLive [ReorgHandler Hash R] (fuel : ℕ) (subscription : List SubscriptionItem)
    (startBlock : ℕ) (reorgHandler : R) : Proc (Event Hash) Unit := do
  match ← subscribeBlocks self.provider with
  | .error e =>
    let _ ← tryStream self.sender (.error (.ofProvider e))
    pure ()
  | .ok () =>
    if (← tryStream self.sender (notificationItem .switchingToLive)).isClosed then pure ()
    else (self.liveConfig startBlock).streamLiveBlocks fuel subscription reorgHandler false

variable [DecidableEq Hash]

/-- `catchup_historical_blocks`. It goes on as long as the tip keeps moving, so it runs on
fuel. -/
def catchupHistoricalBlocks : ℕ → ℕ → ℕ → Proc (Event Hash) (Except ScannerError (Option ℕ))
  | 0, _, _ => Proc.halt
  | fuel + 1, startBlock, confirmedTip =>
    if startBlock < confirmedTip then do
      let handler : HistoricalRangeHandler Hash :=
        ⟨self.provider, self.maxBlockRange, startBlock, confirmedTip, self.sender⟩
      if (← handler.runSync fuel).isClosed then pure (.ok none)
      else
        match ← getBlockNumber self.provider with
        | .error e => pure (.error (.ofProvider e))
        | .ok latest =>
          catchupHistoricalBlocks fuel (confirmedTip + 1) (latest - self.blockConfirmations)
    else pure (.ok (some startBlock))

/-- `spawn_catchup_then_live`. -/
def spawnCatchupThenLive (fuel : ℕ) (subscription : List SubscriptionItem)
    (startBlock confirmedTip : ℕ) : Proc (Event Hash) Unit := do
  match ← self.catchupHistoricalBlocks fuel startBlock confirmedTip with
  | .ok (some startBlock) =>
    self.transitionToLive fuel subscription startBlock self.reorgHandler
  | .ok none => pure () -- channel closed
  | .error e =>
    let _ ← tryStream self.sender (.error e)
    pure ()

/-- `spawn_live_only`. -/
def spawnLiveOnly (fuel : ℕ) (subscription : List SubscriptionItem) (startBlock : ℕ) :
    Proc (Event Hash) (Except ScannerError Unit) := do
  match ← subscribeBlocks self.provider with
  | .error e => pure (.error (.ofProvider e))
  | .ok () =>
    (self.liveConfig startBlock).streamLiveBlocks fuel subscription self.reorgHandler true
    pure (.ok ())

/-- `SyncHandler::run`. -/
def run (fuel : ℕ) (subscription : List SubscriptionItem) :
    Proc (Event Hash) (Except ScannerError Unit) := do
  let startBlock ← getBlockNumberById self.provider self.startId
  let latestBlock ← getBlockNumber self.provider
  match startBlock, latestBlock with
  | .error e, _ | .ok _, .error e => pure (.error (.ofProvider e))
  | .ok startBlock, .ok latestBlock =>
    let confirmedTip := latestBlock - self.blockConfirmations
    if startBlock > confirmedTip then self.spawnLiveOnly fuel subscription startBlock
    else
      self.spawnCatchupThenLive fuel subscription startBlock confirmedTip
      pure (.ok ())

end SyncHandler

end EventScanner
