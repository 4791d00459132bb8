import EventScanner.BlockRangeScanner.RewindRun
import EventScanner.BlockRangeScanner.Scanner
import EventScanner.LiveStream.Cursor
import EventScanner.SyncStream.Phases

set_option relaxedAutoImplicit false
set_option autoImplicit false

/-!
# The size of the ranges

Every handler cuts its ranges with a `RangeIterator`, and each one cuts another piece: the
finalized part of a pass, the part that is repeated, a batch of the live stream, the rest of a
batch behind a reset, the rewind, and a rescan. So whatever the chain does, a range on a stream is
nonempty and has at most `max_block_range` blocks.

## Main definitions

* `EventScanner.FitsBlockRange` — an event sends no range, or one of a proper size.

## Main results

* `EventScanner.BlockRangeScanner.stream_rangesFit` — all ranges of all streams have a proper size.
-/

namespace EventScanner

open HashChain EventLog

variable {Hash R : Type}

/-- A range that is sent is nonempty and has at most `m` blocks. -/
def FitsBlockRange (m : ℕ) : Event Hash → Log Hash → Prop
  | .sent (.ok (.data r)), _ => r.start ≤ r.stop ∧ r.stop ≤ r.start + (m - 1)
  | _, _ => True

instance (m : ℕ) (e : Event Hash) (past : Log Hash) : Decidable (FitsBlockRange m e past) :=
  match e with
  | .sent (.ok (.data r)) =>
    inferInstanceAs (Decidable (r.start ≤ r.stop ∧ r.stop ≤ r.start + (m - 1)))
  | .sent (.ok (.notification _)) | .sent (.error _) | .request _ | .received _
  | .checked _ _ => .isTrue trivial

/-- Only ranges have a size. -/
lemma fitsBlockRange_of_silent {m : ℕ} (e : Event Hash) (past : Log Hash) (h : e.Silent) :
    FitsBlockRange m e past := by
  match e with
  | .sent (.ok (.data _)) => exact absurd h id
  | .sent (.ok (.notification _)) | .sent (.error _) | .request _ | .received _
  | .checked _ _ => trivial

/-- All ranges of a log are nonempty and have at most `m` blocks. -/
abbrev RangesFit (m : ℕ) (log : Log Hash) : Prop := Always (FitsBlockRange m) log

section Fit

variable {m : ℕ} {E : Log Hash → Prop}

/-- A provider call. -/
lemma rangesFit_call {α : Type} {provider : RobustProvider Hash} {r : Request Hash}
    {find : ℕ → Chain Hash → Option α} :
    Proc.Triple (RangesFit m) (call provider r find) (fun _ => RangesFit m) E :=
  triple_call fun _ _ h => ⟨trivial, h⟩

/-- Anything but a range is sent. -/
lemma rangesFit_tryStream {sender : Sender} {item : BlockScannerResult}
    (hitem : (Event.sent item : Event Hash).Silent ∨ ∃ a, item = reorgItem a) :
    Proc.Triple (RangesFit m : Log Hash → Prop) (tryStream sender item)
      (fun _ => RangesFit m) E := by
  refine triple_tryStream (fun log h => ⟨?_, h⟩) fun _ h => h
  rcases hitem with hsilent | ⟨a, rfl⟩
  · exact fitsBlockRange_of_silent _ _ hsilent
  · trivial

/-- The ranges of a cut are sent. -/
lemma rangesFit_streamRanges {sender : Sender} {ranges : List RangeInclusive}
    (h : ∀ r ∈ ranges, r.start ≤ r.stop ∧ r.stop ≤ r.start + (m - 1)) :
    Proc.Triple (RangesFit m : Log Hash → Prop) (streamRanges sender ranges)
      (fun _ => RangesFit m) (RangesFit m) :=
  triple_streamRanges_of_sent fun r hr _ hlog => ⟨h r hr, hlog⟩

/-- A forward iterator cuts ranges of a proper size. -/
lemma fits_ranges_forward {s e : ℕ} {maxBlockRange : MaxBlockRange} {r : RangeInclusive}
    (h : r ∈ (RangeIterator.forward s e maxBlockRange).ranges) :
    r.start ≤ r.stop ∧ r.stop ≤ r.start + (maxBlockRange - 1) := by
  have hbounds := (RangeIterator.ranges_forward s e maxBlockRange).bounds h
  exact ⟨hbounds.2.1, hbounds.2.2.2⟩

/-- A reverse iterator cuts ranges of a proper size. -/
lemma fits_ranges_reverse {s e : ℕ} {maxBlockRange : MaxBlockRange} {r : RangeInclusive}
    (h : r ∈ (RangeIterator.reverse s e maxBlockRange).ranges) :
    r.start ≤ r.stop ∧ r.stop ≤ r.start + (maxBlockRange - 1) := by
  have hbounds := (RangeIterator.ranges_reverse s e maxBlockRange).bounds h
  exact ⟨hbounds.2.1, hbounds.2.2.2⟩

/-- A reorg check sends nothing. -/
lemma rangesFit_checkBlock [ReorgHandler Hash R] {h : R} {b : Block Hash} :
    Proc.Triple (RangesFit m : Log Hash → Prop) (checkBlock h b) (fun _ => RangesFit m) E := by
  intro log hlog
  obtain ⟨h', reqs, hreqs, ⟨e, -, hrun⟩ | ⟨a, -, hrun⟩⟩ := checkBlock_cases h b log <;> rw [hrun]
  all_goals
    have happend : RangesFit m (reqs ++ log) := always_append (fun e he past =>
      fitsBlockRange_of_silent e past (Event.silent_of_isRequest (hreqs e he))) hlog
  · exact happend
  · exact ⟨trivial, happend⟩

end Fit

/-! ### The four streams -/

/-- The live stream, by its steps: the batch loop sends what its iterator cuts. -/
lemma LiveConfig.rangesFit_streamLiveBlocks [ReorgHandler Hash R] (cfg : LiveConfig Hash)
    (fuel : ℕ) (subscription : List SubscriptionItem) (h : R) (notifyAfterFirstBlock : Bool) :
    Proc.Triple (RangesFit cfg.maxBlockRange)
      (cfg.streamLiveBlocks fuel subscription h notifyAfterFirstBlock)
      (fun _ => RangesFit cfg.maxBlockRange) (RangesFit cfg.maxBlockRange) := by
  refine Proc.Triple.of_log fun log hlog => ?_
  obtain ⟨t, ht, heq⟩ := cfg.streamLiveBlocks_reach fuel subscription h notifyAfterFirstBlock log
  rw [← heq]
  refine (LoggedSystem.safe (C := fun _ _ => True) (I := cfg.Cutting) (fun s t hst _ hI hφ => ?_)
    ht trivial hlog (always_iff.mpr fun _ _ _ => trivial)).2
  refine ⟨LiveConfig.cutting_step hst hI, ?_⟩
  refine LiveConfig.always_step_of_message fitsBlockRange_of_silent hst ?_
    (fun _ _ _ _ _ _ _ _ _ => trivial) hφ
  intro iter iter' last resume batch hphase hnext
  simp only [LiveConfig.Cutting, hphase] at hI
  obtain ⟨-, hle, -, -, hsize, -⟩ := hI.1.next hnext
  have hpos := cfg.maxBlockRange.2
  refine ⟨hle, ?_⟩
  omega

namespace HistoricalRangeHandler

variable [DecidableEq Hash] (self : HistoricalRangeHandler Hash)

/-- The part of a range that is sent until its last block stands still. -/
lemma rangesFit_streamUntilStable (nonFinalizedStart minCommonAncestor fuel : ℕ)
    (endBlock : Block Hash) :
    Proc.Triple (RangesFit self.maxBlockRange)
      (self.streamUntilStable nonFinalizedStart minCommonAncestor fuel endBlock)
      (fun _ => RangesFit self.maxBlockRange) (RangesFit self.maxBlockRange) := by
  induction fuel generalizing endBlock with
  | zero => exact Proc.Triple.halt fun _ h => h
  | succ fuel ih =>
    refine Proc.Triple.bind (rangesFit_streamRanges fun r hr => fits_ranges_forward hr)
      fun channel => ?_
    cases channel with
    | closed => exact Proc.Triple.pure fun _ h => h
    | opened =>
      refine Proc.Triple.bind (Q := fun _ => RangesFit self.maxBlockRange) ?_ fun new => ?_
      · refine Proc.Triple.bind rangesFit_call fun answer => ?_
        cases answer with
        | error e =>
          exact Proc.Triple.bind (rangesFit_tryStream (Or.inl trivial)) fun _ =>
            Proc.Triple.pure fun _ h => h
        | ok newEndBlock =>
          dsimp only
          split_ifs <;> exact Proc.Triple.pure fun _ h => h
      · cases new with
        | none => exact Proc.Triple.pure fun _ h => h
        | some newEndBlock =>
          refine Proc.Triple.bind (rangesFit_tryStream (Or.inr ⟨_, rfl⟩)) fun channel => ?_
          cases channel with
          | closed => exact Proc.Triple.pure fun _ h => h
          | opened => exact ih newEndBlock

/-- The historical stream, and a pass of the sync stream. -/
lemma rangesFit_handleStreamHistoricalRange (fuel : ℕ) :
    Proc.Triple (RangesFit self.maxBlockRange) (self.handleStreamHistoricalRange fuel)
      (fun _ => RangesFit self.maxBlockRange) (RangesFit self.maxBlockRange) := by
  refine Proc.Triple.bind (Q := fun _ => RangesFit self.maxBlockRange) ?_ fun res => ?_
  · refine Proc.Triple.bind rangesFit_call fun finalized => ?_
    refine Proc.Triple.bind (rangesFit_streamRanges fun r hr => fits_ranges_forward hr)
      fun channel => ?_
    cases channel <;> exact Proc.Triple.pure fun _ h => h
  · rcases res with _ | ⟨nonFinalizedStart, finalizedBlockNum⟩
    · exact Proc.Triple.pure fun _ h => h
    · dsimp only
      split_ifs
      · exact Proc.Triple.pure fun _ h => h
      · refine Proc.Triple.bind rangesFit_call fun answer => ?_
        cases answer with
        | error e =>
          exact Proc.Triple.bind (rangesFit_tryStream (Or.inl trivial)) fun _ =>
            Proc.Triple.pure fun _ h => h
        | ok endBlock => exact self.rangesFit_streamUntilStable _ _ fuel endBlock

end HistoricalRangeHandler

/-- Both phases of the sync stream. -/
lemma SyncHandler.phasesKeep_rangesFit [DecidableEq Hash] (self : SyncHandler Hash) :
    self.PhasesKeep (fun _ => RangesFit self.maxBlockRange) (RangesFit self.maxBlockRange) where
  request _ _ _ h := ⟨trivial, h⟩
  left _ _ h := h
  error _ _ _ h := ⟨trivial, h⟩
  pass k tip fuel _ :=
    (HistoricalRangeHandler.rangesFit_handleStreamHistoricalRange
      ⟨self.provider, self.maxBlockRange, k, tip, self.sender⟩ fuel).conseq (fun _ h => h)
      (fun _ _ h => ⟨h, fun _ => h⟩) fun _ h => h
  live k fuel subscription _ h :=
    Proc.Triple.log_of_run
      ((self.liveConfig k).rangesFit_streamLiveBlocks fuel subscription self.reorgHandler false)
      ⟨trivial, h⟩

/-- The ranges of the rewind, with the rescans behind the reorgs.

**Proof sketch.** Induction on the ranges left. A rescan cuts the blocks behind the ancestor. -/
lemma rangesFit_rewindRanges [ReorgHandler Hash R] (maxBlockRange : MaxBlockRange)
    (sender : Sender) (provider : RobustProvider Hash) (checkReorg : Bool)
    {ranges : List RangeInclusive}
    (hranges : ∀ r ∈ ranges, r.start ≤ r.stop ∧ r.stop ≤ r.start + (maxBlockRange - 1))
    (tip : Block Hash) (h : R) :
    Proc.Triple (RangesFit maxBlockRange)
      (rewindRanges maxBlockRange sender provider checkReorg ranges tip h)
      (fun _ => RangesFit maxBlockRange) (RangesFit maxBlockRange) := by
  induction ranges generalizing tip h with
  | nil => exact Proc.Triple.pure fun _ h => h
  | cons range ranges ih =>
    have ih := ih fun r hr => hranges r (List.mem_cons_of_mem _ hr)
    refine Proc.Triple.bind (Q := fun _ => RangesFit maxBlockRange)
      (triple_tryStream (fun _ hlog => ⟨hranges range List.mem_cons_self, hlog⟩) fun _ hlog => hlog)
      fun channel => ?_
    cases channel with
    | closed => exact Proc.Triple.pure fun _ h => h
    | opened =>
      cases checkReorg with
      | false => exact ih tip h
      | true =>
        refine Proc.Triple.bind rangesFit_checkBlock fun result => ?_
        rcases result with ⟨e | _ | commonAncestor, h'⟩
        · exact Proc.Triple.bind (rangesFit_tryStream (Or.inl trivial)) fun _ =>
            Proc.Triple.pure fun _ h => h
        · exact ih tip h'
        · refine Proc.Triple.bind (Q := fun _ => RangesFit maxBlockRange) ?_ fun rescan => ?_
          · refine Proc.Triple.bind (rangesFit_tryStream (Or.inr ⟨_, rfl⟩)) fun channel => ?_
            cases channel with
            | closed => exact Proc.Triple.pure fun _ h => h
            | opened =>
              refine Proc.Triple.bind rangesFit_call fun answer => ?_
              cases answer with
              | error e =>
                exact Proc.Triple.bind (rangesFit_tryStream (Or.inl trivial)) fun _ =>
                  Proc.Triple.pure fun _ h => h
              | ok newTip =>
                exact Proc.Triple.bind (rangesFit_streamRanges fun r hr => fits_ranges_forward hr)
                  fun _ => Proc.Triple.pure fun _ h => h
          · rcases rescan with ⟨_ | _, newTip⟩
            · exact ih newTip h'
            · exact Proc.Triple.pure fun _ h => h

namespace BlockRangeScanner

variable [DecidableEq Hash] (self : BlockRangeScanner Hash)

/-- The live stream. -/
lemma rangesFit_streamLive (sender : Sender) (fuel : ℕ) (subscription : List SubscriptionItem)
    (blockConfirmations : ℕ) :
    RangesFit self.maxBlockRange
      ((self.streamLive sender fuel subscription blockConfirmations).run []).2 := by
  refine Proc.Triple.log_of_run (P := RangesFit self.maxBlockRange) ?_ trivial
  refine Proc.Triple.bind rangesFit_call fun latest => ?_
  cases latest with
  | error e => exact Proc.Triple.pure fun _ h => h
  | ok latest =>
    refine Proc.Triple.bind rangesFit_call fun answer => ?_
    cases answer with
    | error e => exact Proc.Triple.pure fun _ h => h
    | ok u =>
      exact Proc.Triple.bind ((self.liveConfig sender _ _).rangesFit_streamLiveBlocks _ _ _ _)
        fun _ => Proc.Triple.pure fun _ h => h

/-- The historical stream. -/
lemma rangesFit_streamHistorical (sender : Sender) (fuel : ℕ) (startId endId : BlockId Hash) :
    RangesFit self.maxBlockRange
      ((self.streamHistorical sender fuel startId endId).run []).2 := by
  refine Proc.Triple.log_of_run (P := RangesFit self.maxBlockRange) ?_ trivial
  refine Proc.Triple.bind rangesFit_call fun startBlock => ?_
  refine Proc.Triple.bind rangesFit_call fun endBlock => ?_
  rcases startBlock with e | startBlock
  · exact Proc.Triple.pure fun _ h => h
  rcases endBlock with e | endBlock
  · exact Proc.Triple.pure fun _ h => h
  dsimp only
  exact Proc.Triple.bind
    (HistoricalRangeHandler.rangesFit_handleStreamHistoricalRange
      ⟨self.provider, self.maxBlockRange, _, _, sender⟩ fuel) fun _ =>
    Proc.Triple.pure fun _ h => h

/-- The sync stream. -/
lemma rangesFit_streamFrom (sender : Sender) (fuel : ℕ) (subscription : List SubscriptionItem)
    (startId : BlockId Hash) (blockConfirmations : ℕ) :
    RangesFit self.maxBlockRange
      ((self.streamFrom sender fuel subscription startId blockConfirmations).run []).2 := by
  let handler := SyncHandler.new self.provider self.maxBlockRange startId blockConfirmations
    self.pastBlocksStorageCapacity sender
  refine handler.phasesKeep_rangesFit.run fuel subscription ?_ (fun _ _ => ?_) fun start _ => ?_
  · exact ⟨trivial, trivial, trivial⟩
  · exact ⟨trivial, trivial⟩
  · exact Proc.Triple.log_of_run ((handler.liveConfig start).rangesFit_streamLiveBlocks _ _ _ _)
      ⟨trivial, trivial, trivial, trivial⟩

/-- The rewind. -/
lemma rangesFit_streamRewind (sender : Sender) (startId endId : BlockId Hash) :
    RangesFit self.maxBlockRange ((self.streamRewind sender startId endId).run []).2 := by
  refine Proc.Triple.log_of_run (P := RangesFit self.maxBlockRange) ?_ trivial
  refine Proc.Triple.bind rangesFit_call fun startBlock => ?_
  refine Proc.Triple.bind rangesFit_call fun endBlock => ?_
  rcases startBlock with e | startBlock
  · exact Proc.Triple.pure fun _ h => h
  rcases endBlock with e | endBlock
  · exact Proc.Triple.pure fun _ h => h
  refine Proc.Triple.bind (Q := fun _ => RangesFit self.maxBlockRange) ?_ fun _ =>
    Proc.Triple.pure fun _ h => h
  exact Proc.Triple.bind rangesFit_call fun _ => rangesFit_rewindRanges _ _ _ _
    (fun r hr => fits_ranges_reverse hr) _ _

/-- **Every range of every stream is nonempty and has at most `max_block_range` blocks**, in every
run, whatever the chain does.

**Proof sketch.** Every range comes from an iterator. In the live stream this is the invariant of
the batch loop, which also covers the resets behind a reorg. -/
theorem stream_rangesFit (sender : Sender) (fuel : ℕ) (request : StreamRequest Hash) :
    RangesFit self.maxBlockRange ((self.stream sender fuel request).run []).2 := by
  cases request with
  | live subscription blockConfirmations =>
    exact self.rangesFit_streamLive sender fuel subscription blockConfirmations
  | historical startId endId => exact self.rangesFit_streamHistorical sender fuel startId endId
  | sync subscription startId blockConfirmations =>
    exact self.rangesFit_streamFrom sender fuel subscription startId blockConfirmations
  | rewind startId endId => exact self.rangesFit_streamRewind sender startId endId

end BlockRangeScanner

end EventScanner
