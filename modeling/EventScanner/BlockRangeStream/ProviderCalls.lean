import EventScanner.BlockRangeScanner.Scanner
import EventScanner.Lib.Credits

set_option relaxedAutoImplicit false
set_option autoImplicit false

/-!
# What a stream costs the provider

A single reorg check may make as many provider calls as there are blocks in the buffer. But each
block of the buffer has been put there by a check that made one call only, so that the checks of a
stream make at most three calls each on average, however long the buffer is. Paid by the events that
cause them, a range that is sent stands for at most four calls, a header of the subscription for two
and a reported reorg for one more, whatever the chain does.

## Main definitions

* `EventScanner.tariff` — what the events bring in and cost.
* `EventScanner.ChecksAmortized` — a reorg handler whose checks cost three calls each, up to a
  potential.

## Main results

* `EventScanner.DefaultReorgHandler.checksAmortized` — the potential is the length of the buffer.
* `EventScanner.BlockRangeScanner.stream_clock_le` — the provider calls of a whole stream.
-/

namespace EventScanner

open HashChain EventLog

variable {Hash R : Type}

/-- A provider call costs one credit. The events that cause calls bring in some. -/
def tariff : Event Hash → ℤ
  | .request _ => -1
  | .received (.ok _) => 2
  | .sent (.ok (.data _)) => 4
  | .sent (.ok (.notification (.reorgDetected _))) => 1
  | .received (.error _) | .checked _ _ | .sent (.ok (.notification .switchingToLive))
  | .sent (.ok (.notification .noPastLogsFound)) | .sent (.error _) => 0

/-- The event is a header of the subscription. -/
def Event.isHeader : Event Hash → Bool
  | .received (.ok _) => true
  | .received (.error _) | .request _ | .checked _ _ | .sent _ => false

/-- The credit of a log. -/
lemma credit_tariff (log : Log Hash) :
    credit tariff log = 4 * ((messages log).countP isRange : ℤ) +
      ((messages log).countP isReorg : ℤ) + 2 * (log.countP Event.isHeader : ℤ) - clock log := by
  induction log with
  | nil => rfl
  | cons e log ih =>
    rw [credit_cons, ih]
    match e with
    | .request _ | .received (.ok _) | .received (.error _) | .checked _ _
    | .sent (.ok (.data _)) | .sent (.ok (.notification (.reorgDetected _)))
    | .sent (.ok (.notification .switchingToLive)) | .sent (.ok (.notification .noPastLogsFound))
    | .sent (.error _) =>
      simp only [tariff, messages_request, messages_received, messages_checked, messages_sent,
        clock_request, clock_received, clock_checked, clock_sent, List.countP_append,
        List.countP_cons, List.countP_nil, Event.isHeader, isRange, isReorg, Bool.false_eq_true,
        if_true, if_false]
      push_cast
      omega

/-- A number for each state of a channel. -/
def perState (opened closed : ℤ) : ChannelState → ℤ
  | .opened => opened
  | .closed => closed

section Events

variable {α : Type} {provider : RobustProvider Hash} {sender : Sender} {lost : ℤ}

/-- A provider call costs one credit. -/
lemma earns_call {r : Request Hash} {find : ℕ → Chain Hash → Option α} :
    Proc.Earns tariff (call provider r find) (fun _ => -1) lost :=
  Proc.Earns.of_run fun _ => ⟨_, [_], run_call _ _ _ _, le_of_eq rfl⟩

/-- An item brings in its credit when it is sent. -/
lemma earns_tryStream {item : BlockScannerResult} {g : ChannelState → ℤ}
    (hopened : g .opened ≤ tariff (Event.sent item : Event Hash)) (hclosed : g .closed ≤ 0) :
    Proc.Earns (tariff : Event Hash → ℤ) (tryStream sender item) g lost := by
  refine Proc.Earns.of_run fun log => ?_
  rw [run_tryStream]
  split_ifs
  · exact ⟨.opened, [_], rfl, by simpa using hopened⟩
  · exact ⟨.closed, [], rfl, hclosed⟩

/-- Sending ranges costs nothing, and brings in four credits for each of them if all are sent. -/
lemma earns_streamRanges (ranges : List RangeInclusive) :
    Proc.Earns (tariff : Event Hash → ℤ) (streamRanges sender ranges)
      (perState (4 * ranges.length) 0) lost := by
  induction ranges generalizing lost with
  | nil => exact Proc.Earns.pure le_rfl
  | cons range ranges ih =>
    refine Proc.Earns.bind (earns_tryStream (g := perState 4 0) le_rfl le_rfl) fun channel => ?_
    cases channel with
    | closed => exact Proc.Earns.pure le_rfl
    | opened =>
      refine ih.mono (fun channel => ?_) le_rfl
      cases channel with
      | closed => show (0 : ℤ) - 4 ≤ 0; omega
      | opened =>
        show (4 : ℤ) * (range :: ranges).length - 4 ≤ 4 * ranges.length
        rw [List.length_cons]
        omega

end Events

/-! ### Reorg checks -/

/-- What a check earns if each one is to cost three credits, or two if the block is canonical, up to
a potential of the handler. -/
def checkGain (Φ : R → ℕ) (h : R) : Except ScannerError (Option (Block Hash)) × R → ℤ
  | (.ok none, h') => Φ h' - Φ h - 2
  | (.ok (some _), h') | (.error _, h') => Φ h' - Φ h - 3

/-- The checks of a handler cost three credits each, up to a potential. -/
def ChecksAmortized [ReorgHandler Hash R] (Φ : R → ℕ) : Prop :=
  ∀ (h : R) (b : Block Hash) (lost : ℤ), Proc.Earns tariff (checkBlock h b) (checkGain Φ h) lost

namespace DefaultReorgHandler

variable [DecidableEq Hash]

/-- The blocks that the search drops pay for the calls that it makes.

**Proof sketch.** Induction on the buffer. A call that shows that a block was replaced is paid by
dropping the block. Only the last two calls drop none. -/
lemma earns_searchBuffer (provider : RobustProvider Hash) (capacity : RingBufferCapacity)
    (entries : List (Block Hash)) (lost : ℤ) :
    Proc.Earns tariff (searchBuffer provider capacity entries)
      (fun result => checkGain (fun h => h.buffer.inner.length)
        ⟨provider, ⟨entries, capacity⟩⟩ result + 1) lost := by
  induction entries generalizing lost with
  | nil =>
    refine Proc.Earns.bind earns_call fun answer => ?_
    cases answer <;> exact Proc.Earns.pure (by simp [checkGain])
  | cons candidate older ih =>
    refine Proc.Earns.bind earns_call fun answer => ?_
    have hskip : Proc.Earns tariff (searchBuffer provider capacity older)
        (fun result => checkGain (fun h => h.buffer.inner.length)
          ⟨provider, ⟨candidate :: older, capacity⟩⟩ result + 1 - (-1)) (lost - (-1)) := by
      refine (ih (lost - (-1))).mono (fun result => ?_) le_rfl
      rcases result with ⟨e | _ | a, h'⟩ <;> simp only [checkGain, List.length_cons] <;> omega
    rcases answer with (_ | _ | _ | _ | _) | canonical
    case error.blockNotFound => exact hskip
    case ok =>
      dsimp only
      split_ifs
      · refine Proc.Earns.bind earns_call fun answer => ?_
        rcases answer with e | finalized
        · exact Proc.Earns.pure (by simp [checkGain])
        · dsimp only
          split_ifs
          · exact Proc.Earns.pure (by simp [checkGain])
          · refine Proc.Earns.pure ?_
            show ((0 : ℕ) : ℤ) - (candidate :: older).length - 3 + 1 - (-1) - (-1) ≤ 0
            omega
      · exact hskip
    all_goals exact Proc.Earns.pure (by simp [checkGain])

/-- Remembering a block makes the buffer longer by one at most. -/
lemma length_remember_le (self : DefaultReorgHandler Hash) (b : Block Hash) :
    (self.remember b).buffer.inner.length ≤ self.buffer.inner.length + 1 := by
  unfold remember
  split_ifs
  · omega
  · exact RingBuffer.length_push_le _ _

/-- **The checks of the handler are amortized** by the length of its buffer.

**Proof sketch.** A check that finds a block canonical makes one call and stores the block, which
costs two credits. One that does not pays for the search with what is in the buffer. -/
theorem checksAmortized :
    ChecksAmortized fun h : DefaultReorgHandler Hash => h.buffer.inner.length := by
  intro h b lost
  refine Proc.Earns.bind (g := checkGain (fun h => h.buffer.inner.length) h) ?_ fun result => ?_
  · refine Proc.Earns.bind (g := fun _ => -1) ?_ fun detected => ?_
    · refine Proc.Earns.bind earns_call fun answer => ?_
      rcases answer with (_ | _ | _ | _ | _) | canonical <;> exact Proc.Earns.pure le_rfl
    · rcases detected with e | _ | _
      · exact Proc.Earns.pure (by simp [checkGain])
      · refine Proc.Earns.pure ?_
        have hle := h.length_remember_le b
        show ((h.remember b).buffer.inner.length : ℤ) - h.buffer.inner.length - 2 - (-1) ≤ 0
        omega
      · refine (earns_searchBuffer _ _ _ _).mono (fun result => ?_) le_rfl
        show checkGain _ h result - (-1) ≤ checkGain _ h result + 1
        omega
  · rcases result with ⟨e | a, h'⟩
    · exact Proc.Earns.pure (by simp)
    · exact Proc.Earns.bind (Proc.Earns.emit (g := fun _ => 0) le_rfl) fun _ =>
        Proc.Earns.pure (by simp)

end DefaultReorgHandler

/-! ### The live stream -/

/-- What a part of the stream earns that hands the reorg handler on: nothing, up to the potential,
and one credit less if the stream ends. -/
def optionGain {α : Type} (Φ : R → ℕ) (h : R) : Option α × R → ℤ
  | (some _, h') => Φ h' - Φ h
  | (none, h') => Φ h' - Φ h - 1

/-- What a turn of the live loop earns. -/
def turnGain {α : Type} (Φ : R → ℕ) (h : R) : Option (α × R) → ℤ
  | some (_, h') => Φ h' - Φ h
  | none => -Φ h - 1

section Live

variable [ReorgHandler Hash R] {Φ : R → ℕ} (hchecks : ChecksAmortized Φ)

include hchecks

/-- The batches of a range pay for their checks, also when the range is reset.

**Proof sketch.** Induction on the fuel. A batch makes one call and a check, and brings in four
credits. Behind a reorg the check costs one more, but the iterator is reset only when the reorg has
been reported. -/
lemma earns_streamBatches (sender : Sender) (provider : RobustProvider Hash)
    (minCommonAncestor fuel : ℕ) (iter : RangeIterator .forward) (last : Option (Block Hash))
    (h : R) :
    Proc.Earns tariff (streamBatches sender provider minCommonAncestor fuel iter last h)
      (optionGain Φ h) (-Φ h - 1) := by
  induction fuel generalizing iter last h with
  | zero => exact Proc.Earns.halt (by omega)
  | succ fuel ih =>
    unfold streamBatches
    rcases iter.next with _ | ⟨batch, iter'⟩
    · cases last <;> exact Proc.Earns.pure (by simp [optionGain])
    refine Proc.Earns.bind earns_call fun answer => ?_
    rcases answer with e | batchEnd
    · exact Proc.Earns.bind (earns_tryStream (g := fun _ => 0) le_rfl le_rfl) fun _ =>
        Proc.Earns.pure (by simp [optionGain])
    refine Proc.Earns.bind (earns_tryStream (g := perState 4 0) le_rfl le_rfl) fun channel => ?_
    cases channel with
    | closed => exact Proc.Earns.pure (by simp [optionGain, perState])
    | opened =>
      refine Proc.Earns.bind (hchecks h batchEnd _) fun result => ?_
      rcases result with ⟨e | _ | commonAncestor, h'⟩
      · refine Proc.Earns.bind (earns_tryStream (g := fun _ => 0) le_rfl le_rfl) fun _ =>
          Proc.Earns.pure ?_
        simp only [optionGain, checkGain, perState]
        omega
      · refine (ih iter' (some batchEnd) h').mono (fun result => ?_) ?_
        · rcases result with ⟨_ | b, h''⟩ <;> simp only [optionGain, checkGain, perState] <;> omega
        · simp only [checkGain, perState]
          omega
      · refine Proc.Earns.bind (earns_tryStream (g := perState 1 0) le_rfl le_rfl)
          fun channel => ?_
        cases channel with
        | closed =>
          refine Proc.Earns.pure ?_
          simp only [optionGain, checkGain, perState]
          omega
        | opened =>
          refine (ih _ (some batchEnd) h').mono (fun result => ?_) ?_
          · rcases result with ⟨_ | b, h''⟩ <;> simp only [optionGain, checkGain, perState] <;>
              omega
          · simp only [checkGain, perState]
            omega

namespace LiveConfig

variable (cfg : LiveConfig Hash)

/-- The first range of the live stream. -/
lemma earns_initializeLiveStreamingState (fuel firstBlock : ℕ) (h : R) :
    Proc.Earns tariff (cfg.initializeLiveStreamingState fuel firstBlock h) (optionGain Φ h)
      (-Φ h - 1) := by
  refine Proc.Earns.bind (earns_streamBatches hchecks _ _ _ _ _ _ _) fun result => ?_
  rcases result with ⟨_ | b, h'⟩ <;> exact Proc.Earns.pure (by simp [optionGain])

/-- The part of a turn behind the reorg check. -/
lemma earns_streamUpTo (fuel incomingBlock : ℕ) (state : LiveStreamingState Hash) (h : R) :
    Proc.Earns tariff (cfg.streamUpTo fuel incomingBlock state h) (turnGain Φ h) (-Φ h - 1) := by
  refine Proc.Earns.bind (g := fun result =>
    Φ result.2.2 - Φ h - if result.1.isClosed then 1 else 0) ?_ fun result => ?_
  · unfold streamNextBatch
    split_ifs
    · exact Proc.Earns.pure (by simp [ChannelState.isClosed])
    refine Proc.Earns.bind (earns_streamBatches hchecks _ _ _ _ _ _ _) fun result => ?_
    rcases result with ⟨_ | b, h'⟩ <;>
      exact Proc.Earns.pure (by simp [optionGain, ChannelState.isClosed])
  · rcases result with ⟨_ | _, state', h'⟩
    · exact Proc.Earns.pure (by simp [turnGain, ChannelState.isClosed])
    · refine Proc.Earns.pure ?_
      simp only [turnGain, ChannelState.isClosed, if_true]
      omega

/-- **A turn of the live loop pays for itself.**

**Proof sketch.** The header brings in two credits, which is what its check costs. If the check
costs three, a reorg is reported or the stream ends. -/
lemma earns_liveIteration (fuel : ℕ) (item : SubscriptionItem) (state : LiveStreamingState Hash)
    (h : R) :
    Proc.Earns tariff (cfg.liveIteration fuel item state h) (turnGain Φ h) (-Φ h - 1) := by
  refine Proc.Earns.bind (Proc.Earns.emit (g := fun _ => tariff (.received item : Event Hash))
    le_rfl) fun _ => ?_
  rcases item with e | incomingBlock
  · rcases e with _ | _ | _ | _ | _
    case lagged => exact Proc.Earns.pure (by simp [turnGain, tariff])
    all_goals
      refine Proc.Earns.bind (earns_tryStream (g := fun _ => 0) le_rfl le_rfl) fun _ =>
        Proc.Earns.pure ?_
      simp only [turnGain, tariff]
      omega
  obtain ⟨batchStart, _ | previousBatchEnd⟩ := state
  · exact Proc.Earns.pure (by simp [turnGain, tariff])
  refine Proc.Earns.bind (hchecks h previousBatchEnd _) fun result => ?_
  rcases result with ⟨e | _ | commonAncestor, h'⟩
  · refine Proc.Earns.bind (earns_tryStream (g := fun _ => 0) le_rfl le_rfl) fun _ =>
      Proc.Earns.pure ?_
    simp only [turnGain, checkGain, tariff]
    omega
  · refine (cfg.earns_streamUpTo hchecks _ _ _ h').mono (fun result => ?_) ?_
    · rcases result with _ | ⟨state', h''⟩ <;> simp only [turnGain, checkGain, tariff] <;> omega
    · simp only [checkGain, tariff]
      omega
  · refine Proc.Earns.bind (g := fun handled => perState 1 0 handled.1) ?_ fun handled => ?_
    · refine Proc.Earns.bind (earns_tryStream (g := perState 1 0) le_rfl le_rfl)
        fun channel => ?_
      cases channel with
      | closed => exact Proc.Earns.pure le_rfl
      | opened =>
        dsimp only [ChannelState.isClosed]
        split_ifs <;> exact Proc.Earns.pure (by simp [perState])
    · rcases handled with ⟨_ | _, state'⟩
      · refine (cfg.earns_streamUpTo hchecks _ _ _ h').mono (fun result => ?_) ?_
        · rcases result with _ | ⟨state'', h''⟩ <;>
            simp only [turnGain, checkGain, tariff, perState] <;> omega
        · simp only [checkGain, tariff, perState]
          omega
      · refine Proc.Earns.pure ?_
        simp only [turnGain, checkGain, tariff, perState]
        omega

/-- The live loop, turn by turn. -/
lemma earns_streamBlocksContinuously (fuel : ℕ) (stream : List SubscriptionItem)
    (state : LiveStreamingState Hash) (h : R) :
    Proc.Earns tariff (cfg.streamBlocksContinuously fuel stream state h) (fun _ => -Φ h - 1)
      (-Φ h - 1) := by
  induction stream generalizing state h with
  | nil => exact Proc.Earns.pure (by omega)
  | cons item stream ih =>
    refine Proc.Earns.bind (cfg.earns_liveIteration hchecks fuel item state h) fun result => ?_
    rcases result with _ | ⟨state', h'⟩
    · exact Proc.Earns.pure (by simp [turnGain])
    · refine (ih state' h').mono (fun _ => ?_) ?_ <;> simp only [turnGain] <;> omega

/-- The live stream. -/
lemma earns_streamLiveBlocks (fuel : ℕ) (subscription : List SubscriptionItem) (h : R)
    (notifyAfterFirstBlock : Bool) :
    Proc.Earns tariff (cfg.streamLiveBlocks fuel subscription h notifyAfterFirstBlock)
      (fun _ => -Φ h - 1) (-Φ h - 1) := by
  refine Proc.Earns.bind (g := fun _ => 0) ?_ fun first => ?_
  · induction skipToFirstRelevantBlock subscription cfg.streamStart cfg.blockConfirmations with
    | nil => exact Proc.Earns.pure le_rfl
    | cons item rest ih =>
      rcases item with (_ | _ | _ | _ | _) | block
      case error.lagged => exact ih
      case ok =>
        exact Proc.Earns.bind (Proc.Earns.emit (g := fun _ => 2) le_rfl) fun _ =>
          Proc.Earns.pure (by omega)
      all_goals
        exact Proc.Earns.bind (earns_tryStream (g := fun _ => 0) le_rfl le_rfl) fun _ =>
          Proc.Earns.pure le_rfl
  rcases first with _ | ⟨firstBlock, stream⟩
  · exact Proc.Earns.pure (by omega)
  cases notifyAfterFirstBlock
  all_goals
    refine Proc.Earns.bind (g := fun _ => 0) ?_ fun channel => ?_
    · first
      | exact Proc.Earns.pure le_rfl
      | exact earns_tryStream le_rfl le_rfl
    cases channel with
    | closed => exact Proc.Earns.pure (by omega)
    | opened =>
      refine Proc.Earns.bind ((cfg.earns_initializeLiveStreamingState hchecks fuel firstBlock
        h).mono (fun _ => le_rfl) (by omega)) fun initial => ?_
      rcases initial with ⟨_ | state, h'⟩
      · refine Proc.Earns.pure ?_
        simp only [optionGain]
        omega
      · refine (cfg.earns_streamBlocksContinuously hchecks fuel stream state h').mono
          (fun _ => ?_) ?_ <;> simp only [optionGain] <;> omega

end LiveConfig

end Live

/-! ### The historical stream -/

namespace HistoricalRangeHandler

variable [DecidableEq Hash] (self : HistoricalRangeHandler Hash)

/-- A range that is not empty is cut into at least one. -/
lemma one_le_length_ranges {s e : ℕ} (h : s ≤ e) (maxBlockRange : MaxBlockRange) :
    1 ≤ (RangeIterator.forward s e maxBlockRange).ranges.length := by
  have hchunks := RangeIterator.ranges_forward s e maxBlockRange
  cases hranges : (RangeIterator.forward s e maxBlockRange).ranges with
  | nil =>
    rw [hranges] at hchunks
    have hlt : e < s := hchunks
    omega
  | cons range ranges => rw [List.length_cons]; omega

/-- Sending a range until its last block stands still costs nothing.

**Proof sketch.** Induction on the fuel. Each round sends a range at least, and makes one call. -/
lemma earns_streamUntilStable {nonFinalizedStart : ℕ} (hle : nonFinalizedStart ≤ self.stop)
    (minCommonAncestor fuel : ℕ) (endBlock : Block Hash) :
    Proc.Earns tariff (self.streamUntilStable nonFinalizedStart minCommonAncestor fuel endBlock)
      (perState 3 0) 0 := by
  have hlength := one_le_length_ranges hle self.maxBlockRange
  induction fuel generalizing endBlock with
  | zero => exact Proc.Earns.halt le_rfl
  | succ fuel ih =>
    refine Proc.Earns.bind (earns_streamRanges _) fun channel => ?_
    cases channel with
    | closed => exact Proc.Earns.pure le_rfl
    | opened =>
      refine Proc.Earns.bind (g := fun _ => -1) ?_ fun new => ?_
      · refine Proc.Earns.bind earns_call fun answer => ?_
        rcases answer with e | newEndBlock
        · exact Proc.Earns.bind (earns_tryStream (g := fun _ => 0) le_rfl le_rfl) fun _ =>
            Proc.Earns.pure le_rfl
        · dsimp only
          split_ifs <;> exact Proc.Earns.pure le_rfl
      · rcases new with _ | newEndBlock
        · refine Proc.Earns.pure ?_
          simp only [perState]
          omega
        refine Proc.Earns.bind (earns_tryStream (g := perState 1 0) le_rfl le_rfl)
          fun channel => ?_
        cases channel with
        | closed =>
          refine Proc.Earns.pure ?_
          simp only [perState]
          omega
        | opened =>
          refine (ih newEndBlock).mono (fun channel => ?_) ?_
          · cases channel <;> simp only [perState] <;> omega
          · simp only [perState]
            omega

/-- The historical stream, and a pass of the sync stream. -/
lemma earns_handleStreamHistoricalRange (hle : self.start ≤ self.stop) (fuel : ℕ) :
    Proc.Earns tariff (self.handleStreamHistoricalRange fuel) (perState 1 (-2)) (-2) := by
  -- the finalized part brings in something unless it is empty
  refine Proc.Earns.bind (g := fun result => match result with
    | some (nonFinalizedStart, _) => if nonFinalizedStart > self.stop then 3 else -1
    | none => -1) ?_ fun result => ?_
  · refine Proc.Earns.bind earns_call fun finalized => ?_
    refine Proc.Earns.bind (earns_streamRanges _) fun channel => ?_
    cases channel with
    | closed => exact Proc.Earns.pure le_rfl
    | opened =>
      refine Proc.Earns.pure ?_
      simp only [perState]
      split_ifs with hall
      · have hlength := one_le_length_ranges (s := self.start)
          (e := min (finalized.toOption.getD 0) self.stop) (by omega) self.maxBlockRange
        omega
      · omega
  · rcases result with _ | ⟨nonFinalizedStart, finalizedBlockNum⟩
    · refine Proc.Earns.pure ?_
      simp only [perState]
      omega
    dsimp only
    split_ifs with hall
    · refine Proc.Earns.pure ?_
      simp only [perState]
      omega
    refine Proc.Earns.bind earns_call fun answer => ?_
    rcases answer with e | endBlock
    · refine Proc.Earns.bind (earns_tryStream (g := fun _ => 0) le_rfl le_rfl) fun _ =>
        Proc.Earns.pure ?_
      simp only [perState]
      omega
    · refine (self.earns_streamUntilStable (Nat.le_of_not_lt hall) _ fuel endBlock).mono
        (fun channel => ?_) (by omega)
      cases channel <;> simp only [perState] <;> omega

end HistoricalRangeHandler

/-! ### The sync stream -/

namespace SyncHandler

variable [DecidableEq Hash] (self : SyncHandler Hash)

/-- What the catch-up earns. -/
def catchupGain : Except ScannerError (Option ℕ) → ℤ
  | .ok (some _) => 0
  | .ok none | .error _ => -2

/-- Catching up pays for itself, but for the pass that fails. -/
lemma earns_catchupHistoricalBlocks (fuel startBlock confirmedTip : ℕ) :
    Proc.Earns tariff (self.catchupHistoricalBlocks fuel startBlock confirmedTip) catchupGain
      (-2) := by
  induction fuel generalizing startBlock confirmedTip with
  | zero => exact Proc.Earns.halt (by omega)
  | succ fuel ih =>
    unfold catchupHistoricalBlocks
    split_ifs with hlt
    · refine Proc.Earns.bind
        (HistoricalRangeHandler.earns_handleStreamHistoricalRange _ hlt.le fuel) fun channel => ?_
      cases channel with
      | closed => exact Proc.Earns.pure le_rfl
      | opened =>
        refine Proc.Earns.bind earns_call fun answer => ?_
        rcases answer with e | latest
        · refine Proc.Earns.pure ?_
          simp only [catchupGain, perState]
          omega
        · refine (ih _ _).mono (fun result => ?_) ?_
          · simp only [perState]
            omega
          · simp only [perState]
            omega
    · exact Proc.Earns.pure le_rfl

/-- The live phase of the sync. -/
lemma earns_streamLiveBlocks (startBlock fuel : ℕ) (subscription : List SubscriptionItem)
    (hnew : self.reorgHandler.buffer.inner = []) (notifyAfterFirstBlock : Bool) :
    Proc.Earns tariff ((self.liveConfig startBlock).streamLiveBlocks fuel subscription
      self.reorgHandler notifyAfterFirstBlock) (fun _ => -1) (-1) := by
  have h := (self.liveConfig startBlock).earns_streamLiveBlocks
    DefaultReorgHandler.checksAmortized fuel subscription self.reorgHandler notifyAfterFirstBlock
  simpa [hnew] using h

/-- The hand-over to the live phase. -/
lemma earns_transitionToLive (startBlock fuel : ℕ) (subscription : List SubscriptionItem)
    (hnew : self.reorgHandler.buffer.inner = []) :
    Proc.Earns tariff (self.transitionToLive fuel subscription startBlock self.reorgHandler)
      (fun _ => -2) (-2) := by
  refine Proc.Earns.bind earns_call fun answer => ?_
  rcases answer with e | _
  · exact Proc.Earns.bind (earns_tryStream (g := fun _ => 0) le_rfl le_rfl) fun _ =>
      Proc.Earns.pure (by omega)
  · refine Proc.Earns.bind (earns_tryStream (g := fun _ => 0) le_rfl le_rfl) fun channel => ?_
    cases channel with
    | closed => exact Proc.Earns.pure (by omega)
    | opened =>
      exact (self.earns_streamLiveBlocks _ fuel subscription hnew false).mono
        (fun _ => by omega) (by omega)

/-- The sync stream. -/
lemma earns_run (fuel : ℕ) (subscription : List SubscriptionItem)
    (hnew : self.reorgHandler.buffer.inner = []) :
    Proc.Earns tariff (self.run fuel subscription) (fun _ => -4) (-4) := by
  refine Proc.Earns.bind earns_call fun startBlock => ?_
  refine Proc.Earns.bind earns_call fun latestBlock => ?_
  rcases startBlock with e | startBlock
  · exact Proc.Earns.pure (by omega)
  rcases latestBlock with e | latestBlock
  · exact Proc.Earns.pure (by omega)
  dsimp only
  split_ifs
  · refine Proc.Earns.bind earns_call fun answer => ?_
    rcases answer with e | _
    · exact Proc.Earns.pure (by omega)
    · exact Proc.Earns.bind ((self.earns_streamLiveBlocks _ fuel subscription hnew true).mono
        (fun _ => le_rfl) (by omega)) fun _ => Proc.Earns.pure (by omega)
  · refine Proc.Earns.bind (g := fun _ => -2) ?_ fun _ => Proc.Earns.pure (by omega)
    refine Proc.Earns.bind ((self.earns_catchupHistoricalBlocks fuel _ _).mono (fun _ => le_rfl)
      (by omega)) fun result => ?_
    rcases result with e | _ | startBlock
    · exact Proc.Earns.bind (earns_tryStream (g := fun _ => 0) le_rfl le_rfl) fun _ =>
        Proc.Earns.pure le_rfl
    · exact Proc.Earns.pure le_rfl
    · refine (self.earns_transitionToLive startBlock fuel subscription hnew).mono (fun _ => ?_) ?_
        <;> simp only [catchupGain] <;> omega

end SyncHandler

/-! ### The rewind -/

/-- The rewind pays for its checks and for the calls behind a reorg.

**Proof sketch.** Induction on the ranges left. Behind a reorg the new tip is one more call, which
the report of the reorg pays for. -/
lemma earns_rewindRanges [ReorgHandler Hash R] {Φ : R → ℕ} (hchecks : ChecksAmortized Φ)
    (maxBlockRange : MaxBlockRange) (sender : Sender) (provider : RobustProvider Hash)
    (checkReorg : Bool) (ranges : List RangeInclusive) (tip : Block Hash) (h : R) :
    Proc.Earns tariff (rewindRanges maxBlockRange sender provider checkReorg ranges tip h)
      (fun _ => -Φ h) (-Φ h) := by
  induction ranges generalizing tip h with
  | nil => exact Proc.Earns.pure (by omega)
  | cons range ranges ih =>
    refine Proc.Earns.bind (earns_tryStream (g := perState 4 0) le_rfl le_rfl) fun channel => ?_
    cases channel with
    | closed => exact Proc.Earns.pure (by simp [perState])
    | opened =>
      cases checkReorg with
      | false => exact (ih tip h).mono (fun _ => by simp [perState]) (by simp [perState])
      | true =>
        refine Proc.Earns.bind (hchecks h tip _) fun result => ?_
        rcases result with ⟨e | _ | commonAncestor, h'⟩
        · refine Proc.Earns.bind (earns_tryStream (g := fun _ => 0) le_rfl le_rfl) fun _ =>
            Proc.Earns.pure ?_
          simp only [checkGain, perState]
          omega
        · refine (ih tip h').mono (fun _ => ?_) ?_ <;> simp only [checkGain, perState] <;> omega
        · refine Proc.Earns.bind (g := fun _ => 0) ?_ fun rescan => ?_
          · refine Proc.Earns.bind (earns_tryStream (g := perState 1 0) le_rfl le_rfl)
              fun channel => ?_
            cases channel with
            | closed => exact Proc.Earns.pure le_rfl
            | opened =>
              refine Proc.Earns.bind earns_call fun answer => ?_
              rcases answer with e | newTip
              · exact Proc.Earns.bind (earns_tryStream (g := fun _ => 0) le_rfl le_rfl) fun _ =>
                  Proc.Earns.pure le_rfl
              · refine Proc.Earns.bind (earns_streamRanges _) fun channel => Proc.Earns.pure ?_
                cases channel <;> simp only [perState] <;> omega
          · rcases rescan with ⟨_ | _, newTip⟩
            · refine (ih newTip h').mono (fun _ => ?_) ?_ <;> simp only [checkGain, perState] <;>
                omega
            · refine Proc.Earns.pure ?_
              simp only [checkGain, perState]
              omega

namespace BlockRangeScanner

variable [DecidableEq Hash] (self : BlockRangeScanner Hash)

/-- No stream costs more than four credits. -/
lemma earns_stream (sender : Sender) (fuel : ℕ) (request : StreamRequest Hash) :
    Proc.Earns tariff (self.stream sender fuel request) (fun _ => -4) (-4) := by
  have hnew : (DefaultReorgHandler.new self.provider
      self.pastBlocksStorageCapacity).buffer.inner.length = 0 := rfl
  cases request with
  | live subscription blockConfirmations =>
    refine Proc.Earns.bind earns_call fun latest => ?_
    rcases latest with e | latest
    · exact Proc.Earns.pure (by omega)
    refine Proc.Earns.bind earns_call fun answer => ?_
    rcases answer with e | _
    · exact Proc.Earns.pure (by omega)
    · refine Proc.Earns.bind (((self.liveConfig sender _ _).earns_streamLiveBlocks
        DefaultReorgHandler.checksAmortized _ _ _ _).mono (fun _ => le_rfl) (by omega)) fun _ =>
        Proc.Earns.pure (by omega)
  | historical startId endId =>
    refine Proc.Earns.bind earns_call fun startBlock => ?_
    refine Proc.Earns.bind earns_call fun endBlock => ?_
    rcases startBlock with e | startBlock
    · exact Proc.Earns.pure (by omega)
    rcases endBlock with e | endBlock
    · exact Proc.Earns.pure (by omega)
    dsimp only
    refine Proc.Earns.bind ((HistoricalRangeHandler.earns_handleStreamHistoricalRange
      _ ?_ fuel).mono (fun _ => le_rfl) (by omega)) fun channel => Proc.Earns.pure ?_
    · dsimp only
      split_ifs <;> omega
    · cases channel <;> simp only [perState] <;> omega
  | sync subscription startId blockConfirmations =>
    exact SyncHandler.earns_run _ fuel subscription rfl
  | rewind startId endId =>
    refine Proc.Earns.bind earns_call fun startBlock => ?_
    refine Proc.Earns.bind earns_call fun endBlock => ?_
    rcases startBlock with e | startBlock
    · exact Proc.Earns.pure (by omega)
    rcases endBlock with e | endBlock
    · exact Proc.Earns.pure (by omega)
    refine Proc.Earns.bind (g := fun _ => -1) ?_ fun _ => Proc.Earns.pure (by omega)
    refine Proc.Earns.bind earns_call fun finalized => ?_
    exact (earns_rewindRanges DefaultReorgHandler.checksAmortized _ _ _ _ _ _ _).mono
      (fun _ => by simp [RewindHandler.new, hnew]) (by simp [RewindHandler.new, hnew])

/-- **The provider calls of a stream** are at most four for each range that it sends, two for each
header that it takes and one for each reorg that it reports, and four more. The capacity of the
buffer of past blocks does not matter.

**Proof sketch.** Every part of the stream pays for its calls, up to the potential of the reorg
handler, which is zero at the beginning. -/
theorem stream_clock_le (sender : Sender) (fuel : ℕ) (request : StreamRequest Hash) :
    let log := ((self.stream sender fuel request).run []).2
    clock log ≤ 4 * (messages log).countP isRange + 2 * log.countP Event.isHeader +
      (messages log).countP isReorg + 4 := by
  intro log
  have hle := (self.earns_stream sender fuel request).credit_le (fun _ => le_rfl) le_rfl []
  rw [credit_nil, credit_tariff] at hle
  change 0 + -4 ≤ 4 * ((messages log).countP isRange : ℤ) + ((messages log).countP isReorg : ℤ) +
    2 * (log.countP Event.isHeader : ℤ) - clock log at hle
  omega

end BlockRangeScanner

end EventScanner
