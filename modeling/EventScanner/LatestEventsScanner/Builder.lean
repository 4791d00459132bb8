import EventScanner.BlockRangeHandler.Network
import EventScanner.BlockRangeScanner.Scanner

set_option relaxedAutoImplicit false
set_option autoImplicit false

/-!
# The scanner of the latest-events mode

`EventScannerBuilder<LatestEvents>` and `EventScanner<LatestEvents>` (`latest.rs`): the builder
collects the settings, `connect` checks them against the chain, and `start` opens a rewind stream
and hands it to a handler.

## Main definitions

* `EventScanner.LatestEvents`, `EventScanner.BlockRangeScannerBuilder`,
  `EventScanner.EventScannerBuilder` — the settings.
* `EventScanner.EventScannerBuilder.connect` — the checks.
* `EventScanner.LatestEventsScanner` — what has been built, with `start` and `handler`.

## Main results

* `EventScanner.EventScannerBuilder.triple_connect` — what `connect` builds.

## Design

`connect` is given a node it has a connection to. Sizes that must not be zero are fields with a
proof behind it.
-/

namespace EventScanner

open HashChain

variable {n : ℕ} {Hash D : Type}

/-- The settings of the latest-events mode. -/
structure LatestEvents (Hash : Type) where
  /-- How many events to collect. -/
  count : ℕ
  /-- One end of the range. -/
  fromBlock : BlockId Hash
  /-- The other end of the range. -/
  toBlock : BlockId Hash
  /-- How many confirmations a block needs. -/
  blockConfirmations : ℕ
  /-- How many fetches may be in flight at a time. -/
  maxConcurrentFetches : ℕ

/-- The settings of the block-range scanner. -/
structure BlockRangeScannerBuilder where
  /-- The maximal number of blocks of a range. -/
  maxBlockRange : ℕ
  /-- How many checked blocks a reorg handler keeps. -/
  pastBlocksStorageCapacity : RingBufferCapacity
  /-- How many messages a channel holds. -/
  bufferCapacity : ℕ

/-- The most messages that a channel is made for here. The channels of `tokio` panic far above it: a
broadcast channel allocates a slot for each message. -/
def maxChannelCapacity : ℕ := 2 ^ 48

/-- What a scanner with these settings sets up can be allocated: the channels, also those with room
for the fetches in flight, and the buffers of its reorg handlers. -/
def BlockRangeScannerBuilder.Allocates (self : BlockRangeScannerBuilder) (fetches : ℕ) : Prop :=
  self.bufferCapacity ≤ maxChannelCapacity ∧ fetches ≤ maxChannelCapacity ∧
    self.pastBlocksStorageCapacity.Allocates

instance (self : BlockRangeScannerBuilder) (fetches : ℕ) : Decidable (self.Allocates fetches) :=
  inferInstanceAs (Decidable (self.bufferCapacity ≤ maxChannelCapacity ∧
    fetches ≤ maxChannelCapacity ∧ self.pastBlocksStorageCapacity.Allocates))

/-- The settings of a scanner in some mode. -/
structure EventScannerBuilder (Mode : Type) where
  /-- The settings of the mode. -/
  config : Mode
  /-- The settings of the block-range scanner. -/
  blockRangeScanner : BlockRangeScannerBuilder

/-- `BlockRangeScannerBuilder::new`. -/
def BlockRangeScannerBuilder.new : BlockRangeScannerBuilder :=
  ⟨defaultMaxBlockRange, .limited 10, 50000⟩

/-- `EventScanner<LatestEvents>`: a scanner that has been built and checked. -/
structure LatestEventsScanner (Hash : Type) where
  /-- The settings of the mode. -/
  config : LatestEvents Hash
  /-- The block-range scanner. -/
  blockRangeScanner : BlockRangeScanner Hash
  /-- How many messages a channel holds. -/
  bufferCapacity : ℕ
  /-- There is room for a message. -/
  bufferCapacity_pos : 0 < bufferCapacity
  /-- There is an event to collect. -/
  count_pos : 0 < config.count
  /-- A fetch may be in flight. -/
  fetches_pos : 0 < config.maxConcurrentFetches

namespace EventScannerBuilder

/-- `EventScannerBuilder::latest`. -/
def latest (count : ℕ) : EventScannerBuilder (LatestEvents Hash) :=
  ⟨⟨count, .number .latest, .number .earliest, 0, 24⟩, .new⟩

variable (builder : EventScannerBuilder (LatestEvents Hash))

/-- `block_confirmations`. -/
def blockConfirmations (confirmations : ℕ) : EventScannerBuilder (LatestEvents Hash) :=
  { builder with config := { builder.config with blockConfirmations := confirmations } }

/-- `from_block`. -/
def fromBlock (blockId : BlockId Hash) : EventScannerBuilder (LatestEvents Hash) :=
  { builder with config := { builder.config with fromBlock := blockId } }

/-- `to_block`. -/
def toBlock (blockId : BlockId Hash) : EventScannerBuilder (LatestEvents Hash) :=
  { builder with config := { builder.config with toBlock := blockId } }

/-- `max_concurrent_fetches`. -/
def maxConcurrentFetches (fetches : ℕ) : EventScannerBuilder (LatestEvents Hash) :=
  { builder with config := { builder.config with maxConcurrentFetches := fetches } }

/-- `max_block_range`. -/
def maxBlockRange (range : ℕ) : EventScannerBuilder (LatestEvents Hash) :=
  { builder with blockRangeScanner := { builder.blockRangeScanner with maxBlockRange := range } }

/-- `past_blocks_storage_capacity`. -/
def pastBlocksStorageCapacity (capacity : RingBufferCapacity) :
    EventScannerBuilder (LatestEvents Hash) :=
  { builder with
    blockRangeScanner := { builder.blockRangeScanner with pastBlocksStorageCapacity := capacity } }

/-- `buffer_capacity`. -/
def bufferCapacity (capacity : ℕ) : EventScannerBuilder (LatestEvents Hash) :=
  { builder with
    blockRangeScanner := { builder.blockRangeScanner with bufferCapacity := capacity } }

/-- `provider.get_block_by_hash`. -/
def getBlockByHash (provider : RobustProvider Hash) (hash : Hash) :
    Proc (Event Hash) (Except RobustProviderError (Block Hash)) :=
  call provider (.block (.hash hash)) fun k => provider.findId k (.hash hash)

/-- The height of an end of the range, as `connect` sees it. Tags count as zero, since they do not
stand for blocks above the latest one. -/
def resolveEnd (provider : RobustProvider Hash) (what : String) (latestBlock : ℕ) :
    BlockId Hash → Proc (Event Hash) (Except ScannerError ℕ)
  | .number .pending => pure (.error (.blockExceedsLatest what (latestBlock + 1) latestBlock))
  | .number (.number k) => pure (.ok k)
  | .number .latest | .number .finalized | .number .safe | .number .earliest => pure (.ok 0)
  | .hash hash => do
    match ← getBlockByHash provider hash with
    | .error e => pure (.error (.ofProvider e))
    | .ok block => pure (.ok block.number)

/-- An end of the range must not lie above the latest block. -/
def checkEnd (provider : RobustProvider Hash) (what : String) (latestBlock : ℕ)
    (id : BlockId Hash) : Proc (Event Hash) (Except ScannerError Unit) := do
  match ← resolveEnd provider what latestBlock id with
  | .error e => pure (.error e)
  | .ok number =>
    if number > latestBlock then pure (.error (.blockExceedsLatest what number latestBlock))
    else pure (.ok ())

/-- The checks of the ends of a range in `connect`. -/
def checkEnds (provider : RobustProvider Hash) (fromBlock toBlock : BlockId Hash) :
    Proc (Event Hash) (Except ScannerError Unit) := do
  match ← getBlockNumber provider with
  | .error e => pure (.error (.ofProvider e))
  | .ok latestBlock =>
    match ← checkEnd provider "from_block" latestBlock fromBlock with
    | .error e => pure (.error e)
    | .ok () => checkEnd provider "to_block" latestBlock toBlock

/-- The checks of the range. -/
def checkRange (provider : RobustProvider Hash) : Proc (Event Hash) (Except ScannerError Unit) :=
  checkEnds provider builder.config.fromBlock builder.config.toBlock

/-- `connect`. -/
def connect (provider : RobustProvider Hash) :
    Proc (Event Hash) (Except ScannerError (LatestEventsScanner Hash)) :=
  if hcount : builder.config.count = 0 then pure (.error .invalidEventCount)
  else if hfetches : builder.config.maxConcurrentFetches = 0 then
    pure (.error .invalidMaxConcurrentFetches)
  else if hrange : builder.blockRangeScanner.maxBlockRange = 0 then
    pure (.error .invalidMaxBlockRange)
  else if hcapacity : builder.blockRangeScanner.bufferCapacity = 0 then
    pure (.error .invalidBufferCapacity)
  else do
    match ← builder.checkRange provider with
    | .error e => pure (.error e)
    | .ok () =>
      pure (.ok {
        config := builder.config
        blockRangeScanner := {
          provider := provider
          maxBlockRange := ⟨builder.blockRangeScanner.maxBlockRange, Nat.pos_of_ne_zero hrange⟩
          pastBlocksStorageCapacity := builder.blockRangeScanner.pastBlocksStorageCapacity }
        bufferCapacity := builder.blockRangeScanner.bufferCapacity
        bufferCapacity_pos := Nat.pos_of_ne_zero hcapacity
        count_pos := Nat.pos_of_ne_zero hcount
        fetches_pos := Nat.pos_of_ne_zero hfetches })

/-! ### What `connect` builds -/

section Connect

variable (provider : RobustProvider Hash) {E : Log Hash → Prop}

/-- Checking an end of the range sends nothing. -/
lemma triple_checkEnd (what : String) (latestBlock : ℕ) (id : BlockId Hash) :
    Proc.Triple (fun log => messages log = []) (checkEnd provider what latestBlock id)
      (fun _ log => messages log = []) E := by
  unfold checkEnd
  refine Proc.Triple.bind (Q := fun _ log => messages log = []) ?_ fun number => ?_
  · unfold resolveEnd
    split
    any_goals exact Proc.Triple.pure fun _ h => h
    unfold getBlockByHash
    refine Proc.Triple.bind (triple_call (Q := fun _ log => messages log = []) fun _ _ h => h)
      fun answer => ?_
    split <;> exact Proc.Triple.pure fun _ h => h
  · split
    · exact Proc.Triple.pure fun _ h => h
    · split_ifs <;> exact Proc.Triple.pure fun _ h => h

/-- The checks of the range send nothing. -/
lemma triple_checkRange :
    Proc.Triple (fun log => messages log = []) (builder.checkRange provider)
      (fun _ log => messages log = []) E := by
  unfold checkRange checkEnds getBlockNumber
  refine Proc.Triple.bind (triple_call (Q := fun _ log => messages log = []) fun _ _ h => h)
    fun latest => ?_
  split
  · exact Proc.Triple.pure fun _ h => h
  · refine Proc.Triple.bind (triple_checkEnd provider _ _ _) fun checked => ?_
    split
    · exact Proc.Triple.pure fun _ h => h
    · exact triple_checkEnd provider _ _ _

/-- **What `connect` builds**: a scanner with the settings of the builder. Nothing is sent. -/
lemma triple_connect :
    Proc.Triple (fun log => messages log = []) (builder.connect provider)
      (fun result log => messages log = [] ∧ ∀ scanner, result = .ok scanner →
        scanner.config = builder.config ∧ scanner.blockRangeScanner.provider = provider) E := by
  unfold connect
  split_ifs
  any_goals exact Proc.Triple.pure fun _ h => ⟨h, nofun⟩
  refine Proc.Triple.bind (triple_checkRange builder provider) fun checked => ?_
  split
  · exact Proc.Triple.pure fun _ h => ⟨h, nofun⟩
  · refine Proc.Triple.pure fun _ h => ⟨h, fun scanner hscanner => ?_⟩
    obtain rfl := Except.ok.inj hscanner
    exact ⟨rfl, rfl⟩

end Connect

end EventScannerBuilder

namespace LatestEventsScanner

variable (scanner : LatestEventsScanner Hash)

/-- `start`: the stream is opened and read to its end. -/
def start [DecidableEq Hash] : Proc (Event Hash) (Except ScannerError Unit) :=
  scanner.blockRangeScanner.streamRewind ⟨none⟩ scanner.config.fromBlock scanner.config.toBlock

/-- The handler that `start` gives the stream to. -/
def handler (getLogs : Fin n → GetLogs D) : BlockRangeHandler n (CollectingTask D) D :=
  .latestEventsHandler (.ofCapacity scanner.bufferCapacity scanner.fetches_pos)
    scanner.config.count getLogs

end LatestEventsScanner

end EventScanner
