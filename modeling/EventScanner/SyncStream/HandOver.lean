import EventScanner.LiveStream.Detection
import EventScanner.SyncStream.Restart
import EventScanner.SyncStream.Rounds

set_option relaxedAutoImplicit false
set_option autoImplicit false

/-!
# Reorgs across the hand-over to the live phase

The sync stream notices a reorg that replaces blocks of its catch-up phase only where it remembers
a block: in the main loop of the live phase. The passes of the catch-up phase and the first round
of the live phase remember nothing. When no reorg comes in front of one of these, and the checks
fall back to a finalized block only where it lies on the chain of the checked block, every
reorg is reported by the end of the next round.

## Main definitions

* `EventScanner.RobustProvider.KeepsCatchup` — the chain has kept the blocks of the catch-up phase.
* `EventScanner.RobustProvider.UnnoticedKept` — the condition on a round.
* `EventScanner.RobustProvider.Noticed` — what was replaced before a round is reported by its end.

## Main results

* `EventScanner.SyncHandler.replaced_noticed` — no reorg is missed, in every run whose rounds meet
  the condition.
* `EventScanner.SyncHandler.noticed_iff_keepsCatchup` — a round without a remembered block reports
  none.
* `EventScanner.SyncHandler.not_noticed_betweenPasses` — a reorg between two passes is missed.
-/

namespace EventScanner

open HashChain EventLog

variable {Hash : Type}

namespace RobustProvider

variable (provider : RobustProvider Hash) (chain : Chain Hash)

/-- No block of the catch-up phase that still stands is replaced on the chain. -/
def KeepsCatchup (log : Log Hash) : Prop :=
  ∀ n before, FromCatchup log n before →
    chain.hashAt n = (provider.current before).hashAt n

/-- Every block of the catch-up phase that still stands before a round, which starts with `log`
and ends with `log'`, and that is replaced on the chain, is withdrawn by the end of the round: a
reorg with an ancestor below the block is reported. -/
def Noticed (log log' : Log Hash) : Prop :=
  ∀ n before, FromCatchup log n before →
    chain.hashAt n ≠ (provider.current before).hashAt n →
    ∃ news a, log' = news ++ log ∧ .sent (reorgItem a) ∈ news ∧ a < n

/-- The condition on a round that starts at `top` with `log` and ends with `log'`, while the chain
is `chain`: a round without a remembered block finds no block of the catch-up phase replaced, and
checks fall back to ancestors of the checked blocks only. -/
structure UnnoticedKept (top : SyncTop Hash) (log log' : Log Hash) : Prop where
  /-- Nothing is replaced where nothing would be noticed. -/
  kept : top.remembered = none → provider.KeepsCatchup chain log
  /-- The finalized block, when a check falls back to it, is an ancestor of the checked block. -/
  fallback : Always (FallbackOnCheckedChain provider) log'

/-- The round sees one chain, and meets the condition on it. -/
def SteadyAndKept (top : SyncTop Hash) (log log' : Log Hash) : Prop :=
  ∃ chain, provider.ShowsOnly chain log log' ∧ provider.UnnoticedKept chain top log log'

/-- Before its only change the chain has kept everything. -/
lemma keepsCatchup_switchAt {k : ℕ} {c c' : Chain Hash} {log : Log Hash} (h : clock log < k) :
    (healthy (switchAt k c c')).KeepsCatchup c log := by
  rintro n before ⟨⟨news, r, rfl, -⟩, -⟩
  have hle : clock before ≤ clock (news ++ .sent (dataItem r) :: before) :=
    clock_le_of_suffix ((List.suffix_cons _ _).trans (List.suffix_append _ _))
  have hview : (healthy (switchAt k c c')).current before = c := if_pos (by omega)
  rw [hview]

end RobustProvider

namespace SyncHandler

variable (self : SyncHandler Hash)

/-- What the stream relies on between two rounds: up to the live phase, that all blocks were sent
below its start; in the main loop, that everything lies on the chain of the remembered block. -/
def Prepared : SyncTop Hash → Log Hash → Prop
  | .passed startBlock, log | .catchup startBlock _, log => CatchupLog startBlock log
  | .subscribed startBlock, log =>
    ∃ past, log = .sent (notificationItem .switchingToLive) :: past ∧ CatchupLog startBlock past
  | .live startBlock state h, log =>
    (self.liveConfig startBlock).Cutting ⟨.waiting state, h, log⟩ ∧
      ∀ b ∈ state.previousBatchEnd, (self.liveConfig startBlock).LineageAt h log (some b)

variable {self} {chain : Chain Hash} {top top' : SyncTop Hash} {log log' : Log Hash}

/-- Before the first pass nothing was sent. -/
lemma prepared_start {startBlock latest : ℕ}
    (hstart : (getBlockNumberById self.provider self.startId).run [] = (some (.ok startBlock), log))
    (hlatest : (getBlockNumber self.provider).run log = (some (.ok latest), log')) (tip : ℕ) :
    self.Prepared (.catchup startBlock tip) log' := by
  obtain rfl : _ = log := congrArg Prod.snd hstart
  obtain rfl : _ = log' := congrArg Prod.snd hlatest
  exact catchupLog_cons.mpr ⟨trivial, catchupLog_cons.mpr ⟨trivial, catchupLog_nil⟩⟩

/-- Before the first header everything that stands is of the catch-up phase, and when none of it
is replaced, it is all on the chain. -/
lemma onChain_of_prepared {startBlock : ℕ} {capacity : RingBufferCapacity}
    (hnew : self.reorgHandler = DefaultReorgHandler.new self.provider capacity)
    (h : self.Prepared (.subscribed startBlock) log)
    (hkept : self.provider.KeepsCatchup chain log) :
    (self.liveConfig startBlock).OnChain chain startBlock self.reorgHandler log := by
  obtain ⟨past, rfl, hpast⟩ := h
  rw [hnew]
  refine ⟨rfl, by simp [DefaultReorgHandler.new, RingBuffer.new], List.Pairwise.nil, ?_⟩
  intro n before hs
  obtain ⟨hlt, -, hbefore⟩ := hpast.standing (hs.of_cons Event.silent_switchingToLive)
  exact ⟨hlt, hkept n before ⟨hs, hbefore⟩⟩

/-- In the main loop, between two rounds. -/
lemma prepared_live {startBlock : ℕ} {state : LiveStreamingState Hash}
    {h : DefaultReorgHandler Hash}
    (hcut : (self.liveConfig startBlock).Cutting ⟨.waiting state, h, log⟩)
    (hsteady : (self.liveConfig startBlock).Steady chain ⟨.waiting state, h, log⟩) :
    self.Prepared (.live startBlock state h) log :=
  ⟨hcut, fun b hb => (hsteady.2 b hb).2⟩

variable [DecidableEq Hash]

/-- What the stream does between two rounds keeps what it relies on. -/
lemma prepared_move (hmove : self.Move top log top' log') (h : self.Prepared top log) :
    self.Prepared top' log' := by
  cases hmove with
  | tip hrun =>
    obtain rfl : _ = log' := congrArg Prod.snd hrun
    exact catchupLog_cons.mpr ⟨trivial, h⟩
  | subscribe hlt hrun hsend =>
    obtain rfl := congrArg Prod.snd hrun
    rw [run_tryStream] at hsend
    split_ifs at hsend
    · obtain rfl : _ = log' := congrArg Prod.snd hsend
      exact ⟨_, rfl, catchupLog_cons.mpr ⟨trivial, h⟩⟩
    · simp at hsend
  | lagged hrun =>
    obtain ⟨⟨rfl, rfl⟩, rfl⟩ := by simpa [LiveConfig.liveIteration] using hrun
    exact ⟨h.1, fun b hb => (h.2 b hb).cons (Event.silent_received _)⟩

/-- A pass of the catch-up phase sends blocks up to its end only. -/
lemma prepared_pass {startBlock confirmedTip fuel : ℕ} {channel : ChannelState}
    (hlt : startBlock < confirmedTip)
    (hrun : ((self.pass startBlock confirmedTip).runSync fuel).run log = (some channel, log'))
    (h : self.Prepared (.catchup startBlock confirmedTip) log) :
    self.Prepared (.passed (confirmedTip + 1)) log' := by
  have hpass := self.triple_pass_catchupLog hlt fuel log h
  rw [hrun] at hpass
  exact hpass

/-- **A round of the main loop with a remembered block** leaves everything on the chain. -/
lemma steady_of_round (hl : Linked self.provider.view) {startBlock fuel n : ℕ}
    {state state' : LiveStreamingState Hash} {h h' : DefaultReorgHandler Hash}
    (hrun : ((self.liveConfig startBlock).liveIteration fuel (.ok n) state h).run log =
      (some (some (state', h')), log'))
    (hsome : state.previousBatchEnd ≠ none)
    (hview : self.provider.ShowsOnly chain log log')
    (hF : Always (FallbackOnCheckedChain self.provider) log')
    (hI : self.Prepared (.live startBlock state h) log) :
    (self.liveConfig startBlock).Cutting ⟨.waiting state', h', log'⟩ ∧
      (self.liveConfig startBlock).Steady chain ⟨.waiting state', h', log'⟩ := by
  obtain ⟨batchStart, _ | b⟩ := state
  · simp at hsome
  · exact (self.liveConfig startBlock).steady_of_iteration hl hrun hview hF hI.1 (hI.2 b rfl)

/-- A round that meets the condition keeps what the stream relies on. -/
lemma prepared_round (hl : Linked self.provider.view) {capacity : RingBufferCapacity}
    (hnew : self.reorgHandler = DefaultReorgHandler.new self.provider capacity)
    (hround : self.Round top log top' log') (hview : self.provider.ShowsOnly chain log log')
    (hC : self.provider.UnnoticedKept chain top log log') (hI : self.Prepared top log) :
    self.Prepared top' log' := by
  cases hround with
  | pass hlt hrun => exact prepared_pass hlt hrun hI
  | @first startBlock _ _ _ _ _ _ hrel hrun =>
    obtain ⟨hcut, hsteady⟩ := (self.liveConfig startBlock).steady_of_firstRound hl hrun hrel hview
      hC.fallback (onChain_of_prepared hnew hI (hC.kept rfl))
    exact prepared_live hcut hsteady
  | @iteration startBlock fuel n state state' h h' _ _ hrun =>
    by_cases hsome : state.previousBatchEnd = none
    · obtain ⟨batchStart, previousBatchEnd⟩ := state
      obtain rfl : previousBatchEnd = none := hsome
      obtain ⟨⟨rfl, rfl⟩, rfl⟩ := by simpa [LiveConfig.liveIteration] using hrun
      exact ⟨hI.1, by simp⟩
    · obtain ⟨hcut, hsteady⟩ := steady_of_round hl hrun hsome hview hC.fallback hI
      exact prepared_live hcut hsteady

/-- The stream relies on the same at every top it reaches. -/
lemma prepared_of_reached (hl : Linked self.provider.view) {capacity : RingBufferCapacity}
    (hnew : self.reorgHandler = DefaultReorgHandler.new self.provider capacity)
    (htop : self.Reached self.provider.SteadyAndKept top log) : self.Prepared top log := by
  induction htop with
  | start hstart hlatest hle => exact prepared_start hstart hlatest _
  | move htop hmove ih => exact prepared_move hmove ih
  | round htop hround hC ih =>
    obtain ⟨chain, hview, hC⟩ := hC
    exact prepared_round hl hnew hround hview hC ih

/-- **No reorg across the hand-over is missed**, in every run whose rounds meet the condition.

**Proof sketch.** A round without a remembered block has nothing to notice, by the condition. In
the other rounds everything that stands lies on the chain of the remembered block when the round
begins, and on the chain of the moment when it ends, since the remembered block is checked in
between. A block that is replaced on that chain was withdrawn. -/
theorem replaced_noticed {provider : RobustProvider Hash} (hl : Linked provider.view)
    (maxBlockRange : MaxBlockRange) (startId : BlockId Hash) (blockConfirmations : ℕ)
    (capacity : RingBufferCapacity) (sender : Sender)
    (htop : (SyncHandler.new provider maxBlockRange startId blockConfirmations capacity
      sender).Reached provider.SteadyAndKept top log)
    (hround : (SyncHandler.new provider maxBlockRange startId blockConfirmations capacity
      sender).Round top log top' log')
    (hview : provider.ShowsOnly chain log log')
    (hC : provider.UnnoticedKept chain top log log') : provider.Noticed chain log log' := by
  have hI := prepared_of_reached hl rfl htop
  intro n before hn hreplaced
  by_cases hnone : top.remembered = none
  · exact absurd (hC.kept hnone n before hn) hreplaced
  · cases hround with
    | pass => exact absurd rfl hnone
    | first => exact absurd rfl hnone
    | iteration hrun =>
      obtain ⟨-, hon, -⟩ := steady_of_round hl hrun hnone hview hC.fallback hI
      obtain ⟨news, rfl⟩ := hrun ▸ Proc.grows _ log
      obtain ⟨a, ha, hlt⟩ := hn.1.exists_reorg fun hs => hreplaced (hon n before hs)
      exact ⟨news, a, rfl, ha, hlt⟩

/-- A round without a remembered block reports no reorg, unless the chain changes while it
runs. -/
lemma quiet_of_round (hfault : ∀ k, self.provider.fault k ≠ some .blockNotFound)
    (hprov : self.reorgHandler.provider = self.provider) (hround : self.Round top log top' log')
    (hnone : top.remembered = none) : QuietSince self.provider chain log log' := by
  cases hround with
  | @pass startBlock confirmedTip fuel _ _ hlt hrun =>
    have hpass := (self.pass startBlock confirmedTip).triple_runSync_of_watching chain fuel log
      ⟨quietSince_refl, by simp, by simp⟩
    rw [hrun] at hpass
    exact hpass.quiet
  | @first startBlock _ _ _ _ _ _ hrel hrun =>
    exact (self.liveConfig startBlock).quiet_of_firstRound hfault hprov hrun
  | @iteration startBlock fuel n state state' h h' _ _ hrun =>
    obtain ⟨batchStart, previousBatchEnd⟩ := state
    obtain rfl : previousBatchEnd = none := hnone
    obtain ⟨-, rfl⟩ := by simpa [LiveConfig.liveIteration] using hrun
    exact quietSince_refl.cons (by simp)

/-- **A round without a remembered block notices nothing**: what was replaced is reported by the end
of the round if and only if nothing was replaced. -/
theorem noticed_iff_keepsCatchup (hfault : ∀ k, self.provider.fault k ≠ some .blockNotFound)
    (hprov : self.reorgHandler.provider = self.provider) (hround : self.Round top log top' log')
    (hnone : top.remembered = none) (hview : self.provider.ShowsOnly chain log log') :
    self.provider.Noticed chain log log' ↔ self.provider.KeepsCatchup chain log := by
  have hquiet : QuietSince self.provider chain log log' :=
    quiet_of_round hfault hprov hround hnone
  constructor
  · intro hnoticed n before hn
    by_contra hreplaced
    obtain ⟨news, a, heq, hmem, -⟩ := hnoticed n before hn hreplaced
    exact hquiet.quiet hview news a heq hmem
  · intro hkept n before hn hreplaced
    exact absurd (hkept n before hn) hreplaced

/-! ### Reorgs at the two sides of the hand-over -/

/-- The log behind the first pass of the sync stream from block `1` on, which has sent `1..=3`. -/
def firstPassLog : Log ℕ :=
  [.request (.blockByNumber (.number 3)), .sent (dataItem ⟨1, 3⟩),
    .request (.blockByNumber (.number 3)), .request (.blockNumberById (.number .finalized)),
    .request .blockNumber, .request (.blockNumberById (.number (.number 1)))]

/-- Behind it the tip has not moved: the stream subscribes to headers. -/
def subscribedLog : Log ℕ :=
  [.sent (notificationItem .switchingToLive), .request .subscribeBlocks, .request .blockNumber] ++
    firstPassLog

/-- The first header `5` sends block `4`. -/
def firstHeaderLog : Log ℕ :=
  [.checked ⟨4, 4⟩ none, .request (.blockByNumber (.number 4)), .sent (dataItem ⟨4, 4⟩),
    .request (.blockByNumber (.number 4)), .received (.ok 5)] ++ subscribedLog

/-- The header `6` finds block `4` replaced, and goes back to the final block `0`. -/
def secondHeaderLog : Log ℕ :=
  [.checked ⟨5, 15⟩ none, .request (.blockByNumber (.number 5)), .sent (dataItem ⟨4, 5⟩),
    .request (.blockByNumber (.number 5)), .sent (reorgItem 0), .checked ⟨4, 4⟩ (some ⟨0, 0⟩),
    .request (.blockByNumber .finalized), .request (.blockByNumber (.number 4)),
    .request (.blockByNumber (.number 4)), .received (.ok 6)] ++ firstHeaderLog

instance (a b : Block ℕ) : Decidable (IsAncestor (belowLiveStart [1, 2, 13] 0).view a b) :=
  inferInstanceAs (Decidable (IsAncestor (switchAt 9 _ _) a b))

/-- A reorg between two headers is noticed: it replaces block `3` of the catch-up phase, and the
header `6` reports it. -/
theorem replaced_noticed_betweenHeaders :
    (belowLiveStart [1, 2, 13] 0).Noticed (.ofHashes 0 [1, 2, 13, 14, 15] 0) firstHeaderLog
      secondHeaderLog := by
  have hpass : (((syncFromOne (belowLiveStart [1, 2, 13] 0)).pass 1 3).runSync 5).run
      (firstPassLog.drop 4) = (some .opened, firstPassLog) := rfl
  have hfirst : (((syncFromOne
      (belowLiveStart [1, 2, 13] 0)).liveConfig 4).initializeLiveStreamingState 5 5
        (syncFromOne (belowLiveStart [1, 2, 13] 0)).reorgHandler).run
        (.received (.ok 5) :: subscribedLog) =
      (some (some ⟨4, some ⟨4, 4⟩⟩, ⟨belowLiveStart [1, 2, 13] 0, ⟨[⟨4, 4⟩], .infinite⟩⟩),
        firstHeaderLog) := rfl
  have hsecond : (((syncFromOne (belowLiveStart [1, 2, 13] 0)).liveConfig 4).liveIteration 5 (.ok 6)
      ⟨4, some ⟨4, 4⟩⟩ (⟨belowLiveStart [1, 2, 13] 0, ⟨[⟨4, 4⟩], .infinite⟩⟩ :
        DefaultReorgHandler ℕ)).run firstHeaderLog =
      (some (some (⟨6, some ⟨5, 15⟩⟩, ⟨belowLiveStart [1, 2, 13] 0, ⟨[⟨5, 15⟩], .infinite⟩⟩)),
        secondHeaderLog) := rfl
  have hpassed : (syncFromOne (belowLiveStart [1, 2, 13] 0)).Reached
      (belowLiveStart [1, 2, 13] 0).SteadyAndKept (.passed 4) firstPassLog :=
    (Reached.start rfl rfl (by decide)).round (.pass (by decide) hpass)
      ⟨_, RobustProvider.showsOnly_before (by decide),
        fun _ => RobustProvider.keepsCatchup_switchAt (by decide), by decide⟩
  have hlive := ((hpassed.move (.tip rfl)).move (.subscribe (by decide) rfl rfl)).round
    (.first (by decide) hfirst) ⟨_, RobustProvider.showsOnly_before (by decide),
      fun _ => RobustProvider.keepsCatchup_switchAt (by decide), by decide⟩
  exact replaced_noticed (linked_switchAt (by decide)) defaultMaxBlockRange (.number (.number 1)) 1
    .infinite ⟨none⟩ hlive (.iteration hsecond) (RobustProvider.showsOnly_behind (by decide))
    ⟨by simp [SyncTop.remembered], by decide⟩

/-- Block `3` is replaced between the first two passes. -/
def betweenPasses : RobustProvider ℕ :=
  .healthy (switchAt 5 (.ofHashes 0 [1, 2, 3, 4] 0) (.ofHashes 0 [1, 2, 13, 14, 15, 16] 0))

/-- The second pass sends `4..=5`. -/
def secondPassLog : Log ℕ :=
  [.request (.blockByNumber (.number 5)), .sent (dataItem ⟨4, 5⟩),
    .request (.blockByNumber (.number 5)), .request (.blockNumberById (.number .finalized)),
    .request .blockNumber] ++ firstPassLog

/-- A reorg between two passes is missed: the chain does not change within a pass, no final block
is replaced and nothing fails, but the second pass does not report that block `3` was
replaced. -/
theorem not_noticed_betweenPasses :
    FinalityKept betweenPasses.view ∧ Linked betweenPasses.view ∧
      ∃ top chain, (syncFromOne betweenPasses).Reached
          (fun _ log log' => ∃ chain, betweenPasses.ShowsOnly chain log log') top
          (secondPassLog.drop 4) ∧
        (syncFromOne betweenPasses).Round top (secondPassLog.drop 4) (.passed 6) secondPassLog ∧
        betweenPasses.ShowsOnly chain (secondPassLog.drop 4) secondPassLog ∧
        (∀ e, .sent (.error e) ∉ secondPassLog) ∧
        ¬betweenPasses.Noticed chain (secondPassLog.drop 4) secondPassLog := by
  have hpass : (((syncFromOne betweenPasses).pass 1 3).runSync 5).run (firstPassLog.drop 4) =
      (some .opened, firstPassLog) := rfl
  have hsecond : (((syncFromOne betweenPasses).pass 4 5).runSync 5).run (secondPassLog.drop 4) =
      (some .opened, secondPassLog) := rfl
  have hpassed : (syncFromOne betweenPasses).Reached
      (fun _ log log' => ∃ chain, betweenPasses.ShowsOnly chain log log') (.passed 4)
        firstPassLog :=
    (Reached.start rfl rfl (by decide)).round (.pass (by decide) hpass)
      ⟨_, RobustProvider.showsOnly_before (by decide)⟩
  refine ⟨finalityKept_switchAt (by decide), linked_switchAt (by decide), _, _,
    hpassed.move (.tip rfl), .pass (by decide) hsecond, RobustProvider.showsOnly_behind (by decide),
    by simp [secondPassLog, firstPassLog], ?_⟩
  intro hnoticed
  have hstands : FromCatchup (secondPassLog.drop 4) 3 (firstPassLog.drop 2) :=
    ⟨⟨(secondPassLog.drop 4).take 2, ⟨1, 3⟩, rfl, by decide,
      by simp [secondPassLog, firstPassLog]⟩, by simp [firstPassLog]⟩
  obtain ⟨news, a, heq, hmem, -⟩ := hnoticed 3 _ hstands (by decide)
  have hreorg : .sent (reorgItem a) ∈ secondPassLog := heq ▸ List.mem_append_left _ hmem
  simp [secondPassLog, firstPassLog] at hreorg

end SyncHandler

end EventScanner
