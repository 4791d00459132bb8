import EventScanner.BlockRangeScanner.RangeIterator
import EventScanner.BlockRangeScanner.ReorgHandler

set_option relaxedAutoImplicit false
set_option autoImplicit false

/-!
# The live block stream

The functions of `common.rs`: wait for the first relevant header, stream the confirmed blocks
up to it, then process one header after the other, with a reorg check before each batch of
blocks and after each range.

## Main definitions

* `EventScanner.LiveConfig` — the arguments the functions share.
* `EventScanner.streamRangeWithReorgHandling` — stream a range of blocks batch by batch.
* `EventScanner.LiveConfig.handleReorgDetected`, `EventScanner.LiveConfig.streamNextBatch`,
  `EventScanner.LiveConfig.liveIteration`, `EventScanner.LiveConfig.streamBlocksContinuously` — the
  main loop.
* `EventScanner.LiveConfig.streamLiveBlocks` — the whole stream.

## Design

The subscription is the list of the items it yields. The loop over the batches of a range can
go on as long as the chain keeps changing, so it runs on fuel: a run without fuel stops where
it is, and the theorems about all runs hold for every amount of it.
-/

namespace EventScanner

open HashChain

variable {Hash R : Type}

/-- An item of a block subscription: the number of a header, or an error. -/
abbrev SubscriptionItem := Except RobustProviderError ℕ

/-- The arguments that the functions of the live stream hand to one another. -/
structure LiveConfig (Hash : Type) where
  /-- The first block to stream. -/
  streamStart : ℕ
  /-- How many blocks a block needs on top of it to be streamed. -/
  blockConfirmations : ℕ
  /-- The maximal number of blocks of a range. -/
  maxBlockRange : MaxBlockRange
  /-- The consumer's channel. -/
  sender : Sender
  /-- The node. -/
  provider : RobustProvider Hash

/-- The state of the live loop. -/
structure LiveStreamingState (Hash : Type) where
  /-- The starting block number for the next batch to stream. -/
  batchStart : ℕ
  /-- The last block from the previous batch. -/
  previousBatchEnd : Option (Block Hash)
  deriving DecidableEq

section Range

variable [ReorgHandler Hash R]

/-- The `while let` loop of `stream_range_with_reorg_handling`. -/
def streamBatches (sender : Sender) (provider : RobustProvider Hash) (minCommonAncestor : ℕ) :
    ℕ → RangeIterator .forward → Option (Block Hash) → R →
      Proc (Event Hash) (Option (Block Hash) × R)
  | 0, _, _, _ => Proc.halt
  | fuel + 1, iter, lastBatchEnd, h =>
    match iter.next with
    | none => pure (lastBatchEnd, h)
    | some (batch, iter) => do
      match ← getBlockByNumber provider (.number batch.stop) with
      | .error e =>
        let _ ← tryStream sender (.error (.ofProvider e))
        pure (none, h)
      | .ok batchEnd =>
        if (← tryStream sender (dataItem batch)).isClosed then pure (none, h)
        else
          let result ← checkBlock h batchEnd
          match result.1 with
          | .error e =>
            let _ ← tryStream sender (.error e)
            pure (none, result.2)
          | .ok none =>
            streamBatches sender provider minCommonAncestor fuel iter (some batchEnd) result.2
          | .ok (some commonAncestor) =>
            if (← tryStream sender (reorgItem commonAncestor.number)).isClosed then
              pure (none, result.2)
            else
              let resetTo := max (commonAncestor.number + 1) minCommonAncestor
              streamBatches sender provider minCommonAncestor fuel (iter.resetTo resetTo)
                (some batchEnd) result.2

/-- `stream_range_with_reorg_handling`. -/
def streamRangeWithReorgHandling (fuel minCommonAncestor nextStartBlock stop : ℕ)
    (maxBlockRange : MaxBlockRange) (sender : Sender) (provider : RobustProvider Hash) (h : R) :
    Proc (Event Hash) (Option (Block Hash) × R) :=
  streamBatches sender provider minCommonAncestor fuel
    (RangeIterator.forward nextStartBlock stop maxBlockRange) none h

end Range

/-! ### The first block -/

/-- Map a subscription error to the error that is streamed for it. -/
def streamSubscriptionError (sender : Sender) (e : RobustProviderError) :
    Proc (Event Hash) ChannelState :=
  tryStream sender (.error (.ofProvider e))

/-- `skip_to_first_relevant_block`. -/
def skipToFirstRelevantBlock (subscription : List SubscriptionItem)
    (streamStart blockConfirmations : ℕ) : List SubscriptionItem :=
  subscription.dropWhile fun header =>
    match header with
    | .ok header => decide (header - blockConfirmations < streamStart)
    | .error (.lagged _) => true
    | .error _ => false

/-- `get_first_block`: the first header, and the rest of the stream. -/
def getFirstBlock (sender : Sender) :
    List SubscriptionItem → Proc (Event Hash) (Option (ℕ × List SubscriptionItem))
  | [] => pure none
  | .ok block :: rest => do
    Proc.emit (.received (.ok block))
    pure (some (block, rest))
  | .error (.lagged _) :: rest => getFirstBlock sender rest
  | .error e :: _ => do
    let _ ← streamSubscriptionError sender e
    pure none

namespace LiveConfig

variable [ReorgHandler Hash R] (cfg : LiveConfig Hash)

/-- `initialize_live_streaming_state`. -/
def initializeLiveStreamingState (fuel firstBlock : ℕ) (h : R) :
    Proc (Event Hash) (Option (LiveStreamingState Hash) × R) := do
  let confirmed := firstBlock - cfg.blockConfirmations
  let minCommonAncestor := cfg.streamStart - 1
  let result ← streamRangeWithReorgHandling fuel minCommonAncestor cfg.streamStart confirmed
    cfg.maxBlockRange cfg.sender cfg.provider h
  match result.1 with
  | none => pure (none, result.2)
  | some previousBatchEnd =>
    pure (some ⟨cfg.streamStart, some previousBatchEnd⟩, result.2)

/-! ### The loop -/

/-- `handle_reorg_detected`. -/
def handleReorgDetected (commonAncestor : Block Hash) (state : LiveStreamingState Hash) :
    Proc (Event Hash) (ChannelState × LiveStreamingState Hash) := do
  let ancestorNum := commonAncestor.number
  if (← tryStream cfg.sender (reorgItem ancestorNum)).isClosed then pure (.closed, state)
  else if ancestorNum < cfg.streamStart then pure (.opened, ⟨cfg.streamStart, none⟩)
  else pure (.opened, ⟨ancestorNum + 1, some commonAncestor⟩)

/-- `stream_next_batch`. -/
def streamNextBatch (fuel batchEndNum : ℕ) (state : LiveStreamingState Hash) (h : R) :
    Proc (Event Hash) (ChannelState × LiveStreamingState Hash × R) := do
  if batchEndNum < state.batchStart then pure (.opened, state, h)
  else
    let minCommonAncestor := cfg.streamStart - 1
    let result ← streamRangeWithReorgHandling fuel minCommonAncestor state.batchStart batchEndNum
      cfg.maxBlockRange cfg.sender cfg.provider h
    match result.1 with
    | none => pure (.closed, { state with previousBatchEnd := none }, result.2)
    | some previousBatchEnd =>
      pure (.opened, ⟨batchEndNum + 1, some previousBatchEnd⟩, result.2)

/-- The part of the loop body behind the reorg check: stream the batch up to the confirmed
block. `none` means that the loop is left. -/
def streamUpTo (fuel incomingBlock : ℕ) (state : LiveStreamingState Hash) (h : R) :
    Proc (Event Hash) (Option (LiveStreamingState Hash × R)) := do
  let batchEndNum := incomingBlock - cfg.blockConfirmations
  let result ← cfg.streamNextBatch fuel batchEndNum state h
  if result.1.isClosed then pure none else pure (some result.2)

/-- The body of the loop of `stream_blocks_continuously`, for one item of the subscription.
`none` means that the loop is left. -/
def liveIteration (fuel : ℕ) (item : SubscriptionItem) (state : LiveStreamingState Hash) (h : R) :
    Proc (Event Hash) (Option (LiveStreamingState Hash × R)) := do
  Proc.emit (.received item)
  match item with
  | .error (.lagged _) => pure (some (state, h))
  | .error e =>
    let _ ← streamSubscriptionError cfg.sender e
    pure none
  | .ok incomingBlock =>
    match state.previousBatchEnd with
    | none => pure (some (state, h)) -- previously detected reorg wasn't fully handled
    | some previousBatchEnd =>
      let result ← checkBlock h previousBatchEnd
      match result.1 with
      | .error e =>
        let _ ← tryStream cfg.sender (.error e)
        pure none
      | .ok none =>
        cfg.streamUpTo fuel incomingBlock { state with batchStart := previousBatchEnd.number + 1 }
          result.2
      | .ok (some commonAncestor) =>
        let handled ← cfg.handleReorgDetected commonAncestor state
        if handled.1.isClosed then pure none
        else cfg.streamUpTo fuel incomingBlock handled.2 result.2

/-- `stream_blocks_continuously`. -/
def streamBlocksContinuously (fuel : ℕ) :
    List SubscriptionItem → LiveStreamingState Hash → R → Proc (Event Hash) Unit
  | [], _, _ => pure ()
  | item :: stream, state, h => do
    match ← cfg.liveIteration fuel item state h with
    | none => pure ()
    | some (state, h) => streamBlocksContinuously fuel stream state h

/-- `stream_live_blocks`. -/
def streamLiveBlocks (fuel : ℕ) (subscription : List SubscriptionItem) (h : R)
    (notifyAfterFirstBlock : Bool) : Proc (Event Hash) Unit := do
  let stream := skipToFirstRelevantBlock subscription cfg.streamStart cfg.blockConfirmations
  match ← getFirstBlock cfg.sender stream with
  | none => pure ()
  | some (firstBlock, stream) =>
    let channel ←
      if notifyAfterFirstBlock then tryStream cfg.sender (notificationItem .switchingToLive)
      else pure .opened
    if channel.isClosed then pure ()
    else
      let initial ← cfg.initializeLiveStreamingState fuel firstBlock h
      match initial.1 with
      | none => pure ()
      | some state => cfg.streamBlocksContinuously fuel stream state initial.2

end LiveConfig

end EventScanner
