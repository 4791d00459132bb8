import EventScanner.EventFilter
import EventScanner.LatestEventsScanner.Builder
import EventScanner.StreamHandler.System
import EventScanner.SyncFromLatest.System

set_option relaxedAutoImplicit false
set_option autoImplicit false

/-!
# The scanners of the other modes

`EventScannerBuilder` and `EventScanner` in the modes `Historic`, `Live`, `SyncFromBlock` and
`SyncFromLatestEvents` (`builder.rs`, `scanner.rs` and the files of `modes`): the settings with
their defaults, the checks of `connect`, the subscriptions, and what `start` opens.

## Main definitions

* `EventScanner.Historic`, `EventScanner.Live`, `EventScanner.SyncFromBlock`,
  `EventScanner.SyncFromLatestEvents` — the settings of the modes.
* `EventScanner.Scanner` with `subscribe` — a scanner in some mode, and its listeners.
* `EventScanner.EventScannerBuilder.build`, and `connect` and `start` of each mode.

## Main results

* `EventScanner.EventScannerBuilder.of_build` — what is built.
* `EventScanner.EventScannerBuilder.run_checkEnds` — the checks of a range.
* `EventScanner.Historic.connect_ok_iff` — which ranges the historic mode accepts.

## Design

As for the latest events, sizes that must not be zero are fields with a proof behind it. A listener
is given by its filter; its channel belongs to the handler.
-/

namespace EventScanner

open HashChain

variable {Mode Hash D : Type}

/-! ### The settings -/

/-- The settings of the historic mode. -/
structure Historic (Hash : Type) where
  /-- One end of the range. -/
  fromBlock : BlockId Hash
  /-- The other end of the range. -/
  toBlock : BlockId Hash
  /-- How many fetches may be in flight at a time. -/
  maxConcurrentFetches : ℕ

/-- The settings of the live mode. -/
structure Live where
  /-- How many confirmations a block needs. -/
  blockConfirmations : ℕ
  /-- How many fetches may be in flight at a time. -/
  maxConcurrentFetches : ℕ

/-- The settings of a sync from a block. -/
structure SyncFromBlock (Hash : Type) where
  /-- The first block. -/
  fromBlock : BlockId Hash
  /-- How many confirmations a block needs in the live phase. -/
  blockConfirmations : ℕ
  /-- How many fetches may be in flight at a time. -/
  maxConcurrentFetches : ℕ

/-- The settings of a sync from the latest events. -/
structure SyncFromLatestEvents where
  /-- How many events to collect. -/
  count : ℕ
  /-- How many confirmations a block needs in the live phase. -/
  blockConfirmations : ℕ
  /-- How many fetches may be in flight at a time. -/
  maxConcurrentFetches : ℕ

namespace EventScannerBuilder

/-- `EventScannerBuilder::historic`. -/
def historic : EventScannerBuilder (Historic Hash) :=
  ⟨⟨.number .earliest, .number .latest, 24⟩, .new⟩

/-- `EventScannerBuilder::live`. -/
def live : EventScannerBuilder Live := ⟨⟨0, 24⟩, .new⟩

/-- `from_block` of the builder that `EventScannerBuilder::sync` returns; what has been set on that
one before is lost. -/
def syncFromBlock (fromBlock : BlockId Hash) : EventScannerBuilder (SyncFromBlock Hash) :=
  ⟨⟨fromBlock, 0, 24⟩, .new⟩

/-- `from_latest` of the builder that `EventScannerBuilder::sync` returns. -/
def syncFromLatest (count : ℕ) : EventScannerBuilder SyncFromLatestEvents := ⟨⟨count, 0, 24⟩, .new⟩

end EventScannerBuilder

/-! ### Scanners and their listeners -/

/-- `EventScanner<Mode>`: a scanner that has been built. The settings of the mode hold the number of
fetches that may be in flight. -/
structure Scanner (Mode Hash : Type) (fetches : Mode → ℕ) where
  /-- The settings of the mode. -/
  config : Mode
  /-- The block-range scanner. -/
  blockRangeScanner : BlockRangeScanner Hash
  /-- How many messages a channel holds. -/
  bufferCapacity : ℕ
  /-- There is room for a message. -/
  bufferCapacity_pos : 0 < bufferCapacity
  /-- A fetch may be in flight. -/
  fetches_pos : 0 < fetches config
  /-- The filters of the listeners. -/
  listeners : List EventFilter

namespace Scanner

variable {fetches : Mode → ℕ} (self : Scanner Mode Hash fetches)

/-- `subscribe`. -/
def subscribe (filter : EventFilter) : Scanner Mode Hash fetches :=
  { self with listeners := self.listeners ++ [filter] }

/-- One subscription after the other. -/
def subscribeAll (filters : List EventFilter) : Scanner Mode Hash fetches :=
  filters.foldl subscribe self

/-- Subscribing adds the listeners and changes nothing else. -/
lemma subscribeAll_eq (filters : List EventFilter) :
    self.subscribeAll filters = { self with listeners := self.listeners ++ filters } := by
  unfold subscribeAll
  induction filters generalizing self with
  | nil => simp
  | cons filter filters ih =>
    rw [List.foldl_cons, ih]
    simp [subscribe]

/-- The settings of the handlers that `start` creates. -/
def handlerConfig : HandlerConfig := .ofCapacity self.bufferCapacity self.fetches_pos

/-- The stream handler that `start` gives a stream to. -/
def streamHandler (getLogs : EventFilter → GetLogs D) (messages : List BlockScannerResult)
    (mayDrop : Fin self.listeners.length → Bool) : StreamHandler self.listeners.length D where
  config := self.handlerConfig
  getLogs i := getLogs (self.listeners.get i)
  messages := messages
  mayDrop := mayDrop

end Scanner

namespace EventScannerBuilder

variable {fetches : Mode → ℕ} (builder : EventScannerBuilder Mode) (provider : RobustProvider Hash)
  (hfetches : 0 < fetches builder.config)

/-- `build`, with `BlockRangeScannerBuilder::connect`. -/
def build : Except ScannerError (Scanner Mode Hash fetches) :=
  if hrange : builder.blockRangeScanner.maxBlockRange = 0 then .error .invalidMaxBlockRange
  else if hcapacity : builder.blockRangeScanner.bufferCapacity = 0 then
    .error .invalidBufferCapacity
  else
    .ok {
      config := builder.config
      blockRangeScanner := {
        provider := provider
        maxBlockRange := ⟨builder.blockRangeScanner.maxBlockRange, Nat.pos_of_ne_zero hrange⟩
        pastBlocksStorageCapacity := builder.blockRangeScanner.pastBlocksStorageCapacity }
      bufferCapacity := builder.blockRangeScanner.bufferCapacity
      bufferCapacity_pos := Nat.pos_of_ne_zero hcapacity
      fetches_pos := hfetches
      listeners := [] }

/-- A scanner with the settings of a builder, and no listeners yet. -/
structure Builds (scanner : Scanner Mode Hash fetches) : Prop where
  /-- The settings of the mode. -/
  config : scanner.config = builder.config
  /-- The node. -/
  provider : scanner.blockRangeScanner.provider = provider
  /-- The maximal number of blocks of a range. -/
  maxBlockRange : scanner.blockRangeScanner.maxBlockRange.val =
    builder.blockRangeScanner.maxBlockRange
  /-- How many checked blocks a reorg handler keeps. -/
  pastBlocksStorageCapacity : scanner.blockRangeScanner.pastBlocksStorageCapacity =
    builder.blockRangeScanner.pastBlocksStorageCapacity
  /-- How many messages a channel holds. -/
  bufferCapacity : scanner.bufferCapacity = builder.blockRangeScanner.bufferCapacity
  /-- There are no listeners. -/
  listeners : scanner.listeners = []

variable {builder provider hfetches}

/-- What is built. -/
lemma of_build {scanner : Scanner Mode Hash fetches}
    (h : builder.build provider hfetches = .ok scanner) : builder.Builds provider scanner := by
  unfold build at h
  split_ifs at h
  obtain rfl := Except.ok.inj h
  exact ⟨rfl, rfl, rfl, rfl, rfl, rfl⟩

/-- The listeners behind the subscriptions. -/
lemma Builds.listeners_subscribeAll {scanner : Scanner Mode Hash fetches}
    (h : builder.Builds provider scanner) (filters : List EventFilter) :
    (scanner.subscribeAll filters).listeners = filters := by
  rw [scanner.subscribeAll_eq, h.listeners, List.nil_append]

/-- What is built has room for fetches, ranges and messages. -/
lemma Builds.sizes_pos {scanner : Scanner Mode Hash fetches} (h : builder.Builds provider scanner) :
    0 < fetches builder.config ∧ 0 < builder.blockRangeScanner.maxBlockRange ∧
      0 < builder.blockRangeScanner.bufferCapacity := by
  rw [← h.config, ← h.maxBlockRange, ← h.bufferCapacity]
  exact ⟨scanner.fetches_pos, scanner.blockRangeScanner.maxBlockRange.property,
    scanner.bufferCapacity_pos⟩

variable (provider) in
/-- A scanner is built if ranges and channels are not empty. -/
lemma exists_build (hfetches : 0 < fetches builder.config)
    (hrange : 0 < builder.blockRangeScanner.maxBlockRange)
    (hcapacity : 0 < builder.blockRangeScanner.bufferCapacity) :
    ∃ scanner, builder.build provider hfetches = .ok scanner := by
  unfold build
  rw [dif_neg (by omega), dif_neg (by omega)]
  exact ⟨_, rfl⟩

variable (provider)

/-- The latest block, from a call that does not fail. -/
lemma run_getBlockNumber {log : Log Hash} (hfault : provider.fault (clock log) = none) :
    (getBlockNumber provider).run log =
      (some (.ok (provider.view (clock log)).height), .request .blockNumber :: log) := by
  unfold getBlockNumber
  rw [run_call]
  unfold RobustProvider.answer
  rw [hfault]

/-- The checks, when the ends are numbers: both are compared with the height of one moment. -/
lemma run_checkEnds (log : Log Hash) (hfault : provider.fault (clock log) = none) (a b : ℕ) :
    ∃ result, (checkEnds provider (.number (.number a)) (.number (.number b))).run log =
        (some result, .request .blockNumber :: log) ∧
      (result = .ok () ↔ max a b ≤ (provider.view (clock log)).height) := by
  obtain ⟨height, hheight⟩ : ∃ height, (provider.view (clock log)).height = height := ⟨_, rfl⟩
  have hend (what : String) (number : ℕ) (log : Log Hash) :
      (checkEnd provider what height (.number (.number number))).run log =
        (some (if number > height then .error (.blockExceedsLatest what number height)
          else .ok ()), log) := by
    show (if number > height then _ else _ : Proc (Event Hash) (Except ScannerError Unit)).run log =
      _
    split_ifs <;> rfl
  unfold checkEnds
  rw [Proc.run_bind_some (run_getBlockNumber provider hfault), hheight]
  dsimp only
  rw [Proc.run_bind_some (hend _ _ _)]
  split_ifs with ha
  · refine ⟨_, rfl, ?_⟩
    simp only [reduceCtorEq, false_iff]
    omega
  · refine ⟨_, hend _ _ _, ?_⟩
    split_ifs with hb
    · simp only [false_iff]
      omega
    · simp only [true_iff]
      omega

end EventScannerBuilder

/-! ### The historic mode -/

/-- `EventScanner<Historic>`. -/
abbrev HistoricScanner (Hash : Type) := Scanner (Historic Hash) Hash Historic.maxConcurrentFetches

namespace Historic

/-- The checks of the range. -/
def checkRange (scanner : HistoricScanner Hash) : Proc (Event Hash) (Except ScannerError Unit) :=
  EventScannerBuilder.checkEnds scanner.blockRangeScanner.provider scanner.config.fromBlock
    scanner.config.toBlock

/-- `connect`. -/
def connect (builder : EventScannerBuilder (Historic Hash)) (provider : RobustProvider Hash) :
    Proc (Event Hash) (Except ScannerError (HistoricScanner Hash)) :=
  if hfetches : builder.config.maxConcurrentFetches = 0 then
    pure (.error .invalidMaxConcurrentFetches)
  else
    match builder.build provider (Nat.pos_of_ne_zero hfetches) with
    | .error e => pure (.error e)
    | .ok scanner => do
      match ← checkRange scanner with
      | .error e => pure (.error e)
      | .ok () => pure (.ok scanner)

/-- `start`: the stream is opened and read to its end. -/
def start [DecidableEq Hash] (scanner : HistoricScanner Hash) (sender : Sender) (fuel : ℕ) :
    Proc (Event Hash) (Except ScannerError Unit) :=
  scanner.blockRangeScanner.streamHistorical sender fuel scanner.config.fromBlock
    scanner.config.toBlock

/-- Listeners do not change the stream. -/
lemma start_subscribeAll [DecidableEq Hash] (scanner : HistoricScanner Hash)
    (filters : List EventFilter) (sender : Sender) (fuel : ℕ) :
    start (scanner.subscribeAll filters) sender fuel = start scanner sender fuel := by
  rw [scanner.subscribeAll_eq]
  rfl

section Connect

variable {provider : RobustProvider Hash} {a b : ℕ}

variable {builder : EventScannerBuilder (Historic Hash)}

/-- What `connect` returns, when the ends are numbers. -/
lemma of_connect (hfault : provider.fault 0 = none)
    (hfrom : builder.config.fromBlock = .number (.number a))
    (hto : builder.config.toBlock = .number (.number b)) {scanner : HistoricScanner Hash}
    {log : Log Hash} (h : (connect builder provider).run [] = (some (.ok scanner), log)) :
    builder.Builds provider scanner ∧ log = [.request .blockNumber] ∧
      max a b ≤ (provider.view 0).height := by
  unfold connect at h
  split_ifs at h with hfetches
  · cases h
  · cases hbuild : builder.build provider (Nat.pos_of_ne_zero hfetches) with
    | error e =>
      rw [hbuild] at h
      cases h
    | ok built =>
      have hbuilt := EventScannerBuilder.of_build hbuild
      obtain ⟨result, hrun, hresult⟩ := EventScannerBuilder.run_checkEnds provider [] hfault a b
      rw [hbuild] at h
      dsimp only at h
      unfold checkRange at h
      rw [hbuilt.provider, hbuilt.config, hfrom, hto, Proc.run_bind_some hrun] at h
      cases result with
      | error e => cases h
      | ok u =>
        obtain ⟨hscanner, rfl⟩ := Prod.mk.inj h
        obtain rfl := Except.ok.inj (Option.some.inj hscanner)
        exact ⟨hbuilt, rfl, hresult.mp rfl⟩

/-- **What `connect` accepts**, when the ends are numbers: settings without a zero, and ends that
are not above the latest block. -/
lemma connect_ok_iff (hfault : provider.fault 0 = none)
    (hfrom : builder.config.fromBlock = .number (.number a))
    (hto : builder.config.toBlock = .number (.number b)) :
    (∃ scanner log, (connect builder provider).run [] = (some (.ok scanner), log)) ↔
      0 < builder.config.maxConcurrentFetches ∧ 0 < builder.blockRangeScanner.maxBlockRange ∧
        0 < builder.blockRangeScanner.bufferCapacity ∧ max a b ≤ (provider.view 0).height := by
  constructor
  · rintro ⟨scanner, log, h⟩
    obtain ⟨hbuilt, -, hheight⟩ := of_connect hfault hfrom hto h
    obtain ⟨hfetches, hrange, hcapacity⟩ := hbuilt.sizes_pos
    exact ⟨hfetches, hrange, hcapacity, hheight⟩
  · rintro ⟨hfetches, hrange, hcapacity, hheight⟩
    obtain ⟨built, hbuild⟩ :=
      EventScannerBuilder.exists_build provider hfetches hrange hcapacity
    have hbuilt := EventScannerBuilder.of_build hbuild
    obtain ⟨result, hrun, hresult⟩ := EventScannerBuilder.run_checkEnds provider [] hfault a b
    obtain rfl := hresult.mpr hheight
    refine ⟨built, [.request .blockNumber], ?_⟩
    unfold connect
    rw [dif_neg (by omega), hbuild]
    dsimp only
    unfold checkRange
    rw [hbuilt.provider, hbuilt.config, hfrom, hto, Proc.run_bind_some hrun]
    rfl

end Connect

end Historic

/-! ### The live mode -/

/-- `EventScanner<Live>`. -/
abbrev LiveScanner (Hash : Type) := Scanner Live Hash Live.maxConcurrentFetches

namespace Live

/-- `connect`. -/
def connect (builder : EventScannerBuilder Live) (provider : RobustProvider Hash) :
    Except ScannerError (LiveScanner Hash) :=
  if hfetches : builder.config.maxConcurrentFetches = 0 then .error .invalidMaxConcurrentFetches
  else builder.build provider (Nat.pos_of_ne_zero hfetches)

/-- What `connect` returns. -/
lemma of_connect {builder : EventScannerBuilder Live} {provider : RobustProvider Hash}
    {scanner : LiveScanner Hash} (h : connect builder provider = .ok scanner) :
    builder.Builds provider scanner := by
  unfold connect at h
  split_ifs at h
  exact EventScannerBuilder.of_build h

/-- `start`. -/
def start [DecidableEq Hash] (scanner : LiveScanner Hash) (sender : Sender) (fuel : ℕ)
    (subscription : List SubscriptionItem) : Proc (Event Hash) (Except ScannerError Unit) :=
  scanner.blockRangeScanner.streamLive sender fuel subscription scanner.config.blockConfirmations

end Live

/-! ### The sync from a block -/

/-- `EventScanner<SyncFromBlock>`. -/
abbrev SyncFromBlockScanner (Hash : Type) :=
  Scanner (SyncFromBlock Hash) Hash SyncFromBlock.maxConcurrentFetches

namespace SyncFromBlock

/-- `connect`: a hash must be that of a block. -/
def connect (builder : EventScannerBuilder (SyncFromBlock Hash)) (provider : RobustProvider Hash) :
    Proc (Event Hash) (Except ScannerError (SyncFromBlockScanner Hash)) :=
  if hfetches : builder.config.maxConcurrentFetches = 0 then
    pure (.error .invalidMaxConcurrentFetches)
  else
    match builder.build provider (Nat.pos_of_ne_zero hfetches) with
    | .error e => pure (.error e)
    | .ok scanner =>
      match scanner.config.fromBlock with
      | .number _ => pure (.ok scanner)
      | .hash hash => do
        match ← EventScannerBuilder.getBlockByHash provider hash with
        | .error e => pure (.error (.ofProvider e))
        | .ok _ => pure (.ok scanner)

/-- What `connect` returns, whatever the node answers. -/
lemma of_connect {builder : EventScannerBuilder (SyncFromBlock Hash)}
    {provider : RobustProvider Hash} {scanner : SyncFromBlockScanner Hash} {log log' : Log Hash}
    (h : (connect builder provider).run log = (some (.ok scanner), log')) :
    builder.Builds provider scanner ∧ messages log' = messages log := by
  unfold connect at h
  split_ifs at h with hfetches
  · cases h
  · cases hbuild : builder.build provider (Nat.pos_of_ne_zero hfetches) with
    | error e =>
      rw [hbuild] at h
      cases h
    | ok built =>
      have hbuilt := EventScannerBuilder.of_build hbuild
      rw [hbuild] at h
      dsimp only at h
      split at h
      · obtain ⟨hscanner, rfl⟩ := Prod.mk.inj h
        obtain rfl := Except.ok.inj (Option.some.inj hscanner)
        exact ⟨hbuilt, rfl⟩
      · unfold EventScannerBuilder.getBlockByHash at h
        rw [Proc.run_bind_some (run_call ..)] at h
        split at h
        · cases h
        · obtain ⟨hscanner, rfl⟩ := Prod.mk.inj h
          obtain rfl := Except.ok.inj (Option.some.inj hscanner)
          exact ⟨hbuilt, rfl⟩

/-- `start`. -/
def start [DecidableEq Hash] (scanner : SyncFromBlockScanner Hash) (sender : Sender) (fuel : ℕ)
    (subscription : List SubscriptionItem) : Proc (Event Hash) (Except ScannerError Unit) :=
  scanner.blockRangeScanner.streamFrom sender fuel subscription scanner.config.fromBlock
    scanner.config.blockConfirmations

end SyncFromBlock

/-! ### The sync from the latest events -/

/-- `EventScanner<SyncFromLatestEvents>`. -/
abbrev SyncFromLatestScanner (Hash : Type) :=
  Scanner SyncFromLatestEvents Hash SyncFromLatestEvents.maxConcurrentFetches

namespace SyncFromLatestEvents

/-- `connect`. -/
def connect (builder : EventScannerBuilder SyncFromLatestEvents) (provider : RobustProvider Hash) :
    Except ScannerError (SyncFromLatestScanner Hash) :=
  if builder.config.count = 0 then .error .invalidEventCount
  else if hfetches : builder.config.maxConcurrentFetches = 0 then
    .error .invalidMaxConcurrentFetches
  else builder.build provider (Nat.pos_of_ne_zero hfetches)

/-- What `connect` returns. -/
lemma of_connect {builder : EventScannerBuilder SyncFromLatestEvents}
    {provider : RobustProvider Hash} {scanner : SyncFromLatestScanner Hash}
    (h : connect builder provider = .ok scanner) :
    builder.Builds provider scanner ∧ 0 < builder.config.count := by
  unfold connect at h
  split_ifs at h with hcount
  exact ⟨EventScannerBuilder.of_build h, Nat.pos_of_ne_zero hcount⟩

variable [DecidableEq Hash] (scanner : SyncFromLatestScanner Hash)

/-- `start` up to the first handler: the latest block, with the stream behind it. -/
def start (sender : Sender) : Proc (Event Hash) (Except ScannerError ℕ) := do
  match ← getBlockNumber scanner.blockRangeScanner.provider with
  | .error e => pure (.error (.ofProvider e))
  | .ok latestBlock =>
    match ← scanner.blockRangeScanner.streamRewind sender (.number (.number latestBlock))
      (.number .earliest) with
    | .error e => pure (.error e)
    | .ok () => pure (.ok latestBlock)

end SyncFromLatestEvents

end EventScanner
