import EventScanner.LiveStream.Cursor
import EventScanner.SyncStream.Consumer
import EventScanner.SyncStream.Phases

set_option relaxedAutoImplicit false
set_option autoImplicit false

/-!
# The sync stream follows the rollback protocol

Behind a reorg the sync stream resumes right behind the reported common ancestor. In the
catch-up phase it always does. In the live phase it does as long as the reported ancestors are
not above the checked blocks, and the lower bound of the live phase for its own restarts does not
cut off blocks the consumer has rolled back.

## Main definitions

* `EventScanner.LiveRestartsMatch` — the condition on the checks of the live phase.
* `EventScanner.LiveConfig.Restarting` — the invariant of the live phase.

## Main results

* `EventScanner.HistoricalRangeHandler.triple_runSync` — a pass of the catch-up phase.
* `EventScanner.LiveConfig.rollsBack_streamLiveBlocks` — the live phase.
* `EventScanner.SyncHandler.run_rollsBack` — the sync stream, in every run that meets the
  condition.
* `EventScanner.SyncHandler.not_rollsBack_belowLiveStart` — a run that leaves the consumer with a
  gap.
-/

namespace EventScanner

open HashChain EventLog

variable {Hash R : Type}

/-- When a check of the live phase finds `b` replaced and answers with `a`, then `a` is not above
`b`, and the block from which the live phase restarts at the earliest makes no difference to the
restart: this is the block `liveStart` for the main loop, and the block before it for the batch
loop. -/
def LiveRestartsMatch (start : ℕ) : Event Hash → Log Hash → Prop
  | .checked b (some a), past =>
    a.number ≤ b.number ∧
      max (a.number + 1)
        (if BatchCheck past then liveStart start past - 1 else liveStart start past) =
        max (a.number + 1) start
  | _, _ => True

instance (start : ℕ) (e : Event Hash) (past : Log Hash) :
    Decidable (LiveRestartsMatch start e past) :=
  match e with
  | .checked b (some a) =>
    inferInstanceAs (Decidable (a.number ≤ b.number ∧
      max (a.number + 1)
        (if BatchCheck past then liveStart start past - 1 else liveStart start past) =
        max (a.number + 1) start))
  | .checked _ none | .sent _ | .request _ | .received _ => .isTrue trivial

/-! ### The catch-up phase -/

/-- The consumer holds everything up to `k` (exclusively), and the protocol was followed so
far. -/
def HoldsUpTo (start k : ℕ) (log : Log Hash) : Prop :=
  HeldUpTo start log k ∧ Always (RollsBack start) log

/-- What a handler that streams up to `k` (exclusively) leaves behind: the consumer holds
everything, or its receiver is gone. -/
def StreamedUpTo (start k : ℕ) : ChannelState → Log Hash → Prop
  | .opened, log => HoldsUpTo start k log
  | .closed, log => Always (RollsBack start) log

section Catchup

variable {start k : ℕ} {log : Log Hash}

/-- A silent event changes nothing for the consumer. -/
lemma HoldsUpTo.cons {e : Event Hash} (h : HoldsUpTo start k log) (he : e.Silent) :
    HoldsUpTo start k (e :: log) :=
  ⟨h.1.cons he, rollsBack_of_silent start e log he, h.2⟩

/-- A range at the position moves it behind the range. -/
lemma HoldsUpTo.sent {r : RangeInclusive} (h : HoldsUpTo start r.start log)
    (hle : r.start ≤ r.stop) : HoldsUpTo start (r.stop + 1) (.sent (dataItem r) :: log) :=
  ⟨h.1.sent hle, h.1.rollsBack hle, h.2⟩

/-- A reorg behind a held ancestor moves the position back behind the ancestor. -/
lemma HoldsUpTo.reorg {a : ℕ} (h : HoldsUpTo start k log) (ha : a < k) (hs : start ≤ a + 1) :
    HoldsUpTo start (a + 1) (.sent (reorgItem a) :: log) := by
  have hheld := h.1.reorg ha
  rw [Nat.max_eq_left hs] at hheld
  exact ⟨hheld, trivial, h.2⟩

/-- An error is sent, or the receiver is gone: nothing changes for the consumer. -/
lemma triple_tryStream_error {sender : Sender} {e : ScannerError}
    {E : Log Hash → Prop} :
    Proc.Triple (HoldsUpTo start k : Log Hash → Prop) (tryStream sender (.error e))
      (fun _ => HoldsUpTo start k) E :=
  triple_tryStream (fun _ h => h.cons (by simp)) fun _ h => h

/-- The ranges of a cut from the position on are sent, and move it behind the cut.

**Proof sketch.** Induction on the ranges: each one begins where the previous one ends. -/
lemma triple_streamRanges {sender : Sender} {m e : ℕ} {rs : List RangeInclusive}
    (h : RangeInclusive.Chunks m k e rs) :
    Proc.Triple (HoldsUpTo start k : Log Hash → Prop) (streamRanges sender rs)
      (StreamedUpTo start (max k (e + 1))) (Always (RollsBack start)) := by
  induction rs generalizing k with
  | nil =>
    have hlt : e < k := h
    rw [Nat.max_eq_left hlt]
    exact Proc.Triple.pure fun log hlog => hlog
  | cons r rs ih =>
    obtain ⟨hle, hr, hrs⟩ := h
    have hstart : r.start = k := by rw [hr]
    have hstop : k ≤ r.stop ∧ r.stop ≤ e := by
      rw [hr]
      dsimp only
      omega
    have hmax : max k (e + 1) = max (r.stop + 1) (e + 1) := by omega
    rw [hmax]
    refine Proc.Triple.bind (Q := StreamedUpTo start (r.stop + 1)) ?_ fun channel => ?_
    · refine triple_tryStream (fun log hlog => ?_) fun log hlog => hlog.2
      rw [← hstart] at hlog
      exact hlog.sent (by omega)
    · cases channel with
      | opened => exact ih hrs
      | closed => exact Proc.Triple.pure fun log hlog => hlog

end Catchup

namespace HistoricalRangeHandler

/-- The finalized part of the range. Behind it stands the first block that is not finalized, and
inside the range that is the block behind the lower bound for common ancestors. -/
lemma triple_streamFinalizedBlocks (self : HistoricalRangeHandler Hash) (start : ℕ) :
    Proc.Triple (HoldsUpTo start self.start) self.streamFinalizedBlocks
      (fun res log => match res with
        | some (s, f) => HoldsUpTo start s log ∧
            (self.stop < s → s = max self.start (self.stop + 1)) ∧
            (s ≤ self.stop → max (s - 1) f + 1 = s)
        | none => Always (RollsBack start) log)
      (Always (RollsBack start)) := by
  refine Proc.Triple.bind (Q := fun _ => HoldsUpTo start self.start)
    (triple_call fun _ _ h => h.cons (by simp)) fun finalized => ?_
  dsimp only
  generalize finalized.toOption.getD 0 = f
  refine Proc.Triple.bind (triple_streamRanges (RangeIterator.ranges_forward _ _ _))
    fun channel => ?_
  cases channel with
  | closed => exact Proc.Triple.pure fun log hlog => hlog
  | opened =>
    refine Proc.Triple.pure fun log hlog => ⟨hlog, ?_, ?_⟩ <;> omega

variable [DecidableEq Hash]

/-- The part of the range that is not finalized: behind each reorg it is streamed again from the
reported ancestor on.

**Proof sketch.** Induction on the fuel. In each round the whole part is streamed; a reorg then
takes the consumer back to where the round began. -/
lemma triple_streamUntilStable (self : HistoricalRangeHandler Hash) (start minCommonAncestor : ℕ)
    (hstop : minCommonAncestor < self.stop) (hstart : start ≤ minCommonAncestor + 1) (fuel : ℕ)
    (endBlock : Block Hash) :
    Proc.Triple (HoldsUpTo start (minCommonAncestor + 1))
      (self.streamUntilStable (minCommonAncestor + 1) minCommonAncestor fuel endBlock)
      (StreamedUpTo start (self.stop + 1)) (Always (RollsBack start)) := by
  induction fuel generalizing endBlock with
  | zero => exact Proc.Triple.halt fun log hlog => hlog.2
  | succ fuel ih =>
    have hmax : max (minCommonAncestor + 1) (self.stop + 1) = self.stop + 1 := by omega
    have hranges : Proc.Triple (HoldsUpTo start (minCommonAncestor + 1) : Log Hash → Prop)
        (streamRanges self.sender
          (RangeIterator.forward (minCommonAncestor + 1) self.stop self.maxBlockRange).ranges)
        (StreamedUpTo start (max (minCommonAncestor + 1) (self.stop + 1)))
        (Always (RollsBack start)) := triple_streamRanges (RangeIterator.ranges_forward _ _ _)
    rw [hmax] at hranges
    refine Proc.Triple.bind hranges fun channel => ?_
    cases channel with
    | closed => exact Proc.Triple.pure fun log hlog => hlog
    | opened =>
      refine Proc.Triple.bind (Q := fun _ => HoldsUpTo start (self.stop + 1)) ?_ fun new => ?_
      · refine Proc.Triple.bind (Q := fun _ => HoldsUpTo start (self.stop + 1))
          (triple_call fun _ _ h => h.cons (by simp)) fun answer => ?_
        cases answer with
        | error e =>
          exact Proc.Triple.bind triple_tryStream_error fun _ => Proc.Triple.pure fun _ h => h
        | ok newEndBlock =>
          dsimp only
          split_ifs <;> exact Proc.Triple.pure fun _ h => h
      · cases new with
        | none => exact Proc.Triple.pure fun log hlog => hlog
        | some newEndBlock =>
          refine Proc.Triple.bind (Q := StreamedUpTo start (minCommonAncestor + 1))
            (triple_tryStream (fun log hlog => hlog.reorg (by omega) hstart)
              fun log hlog => hlog.2) fun channel => ?_
          cases channel with
          | closed => exact Proc.Triple.pure fun log hlog => hlog
          | opened => exact ih newEndBlock

/-- **The historical stream** leaves a consumer that holds the whole range. -/
theorem triple_runSync (self : HistoricalRangeHandler Hash) {start : ℕ}
    (hle : self.start ≤ self.stop) (fuel : ℕ) :
    Proc.Triple (HoldsUpTo start self.start) (self.runSync fuel)
      (StreamedUpTo start (self.stop + 1)) (Always (RollsBack start)) := by
  refine Proc.Triple.bind (triple_streamFinalizedBlocks self start) fun res => ?_
  rcases res with _ | ⟨s, f⟩
  · exact Proc.Triple.pure fun log hlog => hlog
  · dsimp only
    split_ifs with hs
    · refine Proc.Triple.pure fun log hlog => ?_
      obtain ⟨hlog, heq, -⟩ := hlog
      rw [heq hs, Nat.max_eq_right (by omega)] at hlog
      exact hlog
    · refine Proc.Triple.bind
        (Q := fun _ log => HoldsUpTo start s log ∧ max (s - 1) f + 1 = s)
        (triple_call fun _ log h => ⟨h.1.cons (by simp), h.2.2 (by omega)⟩) fun answer => ?_
      cases answer with
      | error e =>
        refine Proc.Triple.bind (Q := fun _ => Always (RollsBack start))
          (triple_tryStream (fun _ h => ⟨trivial, h.1.2⟩) fun _ h => h.1.2) fun _ => ?_
        exact Proc.Triple.pure fun _ h => h
      | ok endBlock =>
        intro log hlog
        obtain ⟨hlog, heq⟩ := hlog
        have hstart := hlog.1.start_le
        have hloop := triple_streamUntilStable self start (max (s - 1) f) (by omega) (by omega) fuel
          endBlock
        rw [heq] at hloop
        exact hloop log hlog

end HistoricalRangeHandler

/-! ### The live phase -/

namespace LiveConfig

variable (cfg : LiveConfig Hash) (start : ℕ)

/-- The invariant of the live phase: the live phase began at the configured block, and the consumer
holds everything up to where the stream goes on. -/
def Restarting (s : LiveState Hash R) : Prop :=
  match s.phase with
  | .starting => HeldUpTo start s.log cfg.streamStart ∧ liveStart start s.log = cfg.streamStart
  | .streaming (.ready iter last) _ =>
    liveStart start s.log = cfg.streamStart ∧ HeldUpTo start s.log iter.current ∧
      ∀ b ∈ last, iter.current ≤ b.number + 1
  | .streaming (.sent _ b) _ =>
    liveStart start s.log = cfg.streamStart ∧ HeldUpTo start s.log (b.number + 1)
  | .waiting state =>
    liveStart start s.log = cfg.streamStart ∧
      ∀ b ∈ state.previousBatchEnd, HeldUpTo start s.log (b.number + 1)
  | .stopped => True

variable {cfg start} {log : Log Hash} {n : ℕ}

/-- What is streamed for a header starts where the state says. -/
lemma restarting_proceed {state : LiveStreamingState Hash} {h : R}
    (hlive : liveStart start log = cfg.streamStart) (hheld : HeldUpTo start log state.batchStart)
    (hprev : ∀ b ∈ state.previousBatchEnd, HeldUpTo start log (b.number + 1)) :
    cfg.Restarting start ⟨cfg.proceed n state, h, log⟩ := by
  unfold proceed
  split_ifs
  · exact ⟨hlive, hprev⟩
  · exact ⟨hlive, hheld, by simp⟩

/-- Behind a reorg found by the main loop the stream restarts at the consumer's position. -/
lemma restarting_afterReorg {a : Block Hash} {h : R}
    (hlive : liveStart start log = cfg.streamStart)
    (hheld : HeldUpTo start log (max (a.number + 1) start))
    (hmatch : max (a.number + 1) cfg.streamStart = max (a.number + 1) start) :
    cfg.Restarting start ⟨cfg.proceed n (cfg.afterReorg a), h, log⟩ := by
  rw [← hmatch] at hheld
  unfold afterReorg
  split_ifs with ha
  · rw [Nat.max_eq_right ha] at hheld
    exact restarting_proceed hlive hheld (by simp)
  · rw [Nat.max_eq_left (by omega)] at hheld
    refine restarting_proceed hlive hheld ?_
    rintro b ⟨⟩
    exact hheld

variable [ReorgHandler Hash R] {s t : LiveState Hash R}

/-- **One step keeps the consumer's position.**

**Proof sketch.** By cases on the step. A range moves the position behind it. A reorg moves the
position behind the ancestor, which the consumer holds because the ancestor is not above the
checked block; the condition says that the stream restarts there. An exhausted batch loop
stands behind the block it has checked last: it cannot stand further up, and not lower either,
since that block is not above the end of the range. -/
lemma restarting_step (hst : LiveStep cfg s t) (hC : Always (LiveRestartsMatch start) t.log)
    (hcut : cfg.Cutting s) (hI : cfg.Restarting start s) : cfg.Restarting start t := by
  cases hst with
  | first hrel hnotice =>
    obtain ⟨hheld, hlive⟩ := hI
    rcases hnotice with rfl | rfl
    · exact ⟨hlive, hheld.cons (by simp), by simp⟩
    · exact ⟨hheld.position_eq, (hheld.cons (by simp)).cons (by simp), by simp⟩
  | batch hb =>
    cases hb with
    | emit hnext hnum hsees =>
      obtain ⟨hlive, hheld, -⟩ := hI
      obtain ⟨hstart, hle, -⟩ := hcut.1.next hnext
      dsimp only at hheld
      rw [← hstart] at hheld
      refine ⟨hlive, ?_⟩
      rw [hnum]
      exact (hheld.cons (by simp)).sent hle
    | clean hcheck hreqs =>
      obtain ⟨hlive, hheld⟩ := hI
      refine ⟨(liveStart_append hreqs start _).trans hlive, ?_, ?_⟩
      · rw [hcut.2.2.2.1]
        exact (hheld.append (silentLog_of_isRequest hreqs)).cons (by simp)
      · rintro b ⟨⟩
        exact Nat.le_of_eq hcut.2.2.2.1
    | @reorg iter b a _ _ _ reqs hcheck hreqs =>
      obtain ⟨hlive, hheld⟩ := hI
      have hlive' := (liveStart_append hreqs start _).trans hlive
      obtain ⟨-, hlow, -, -, r, past, hlog⟩ := hcut
      dsimp only at hlog
      subst hlog
      obtain ⟨hle, hmatch⟩ := hC.2.1
      rw [if_pos (batchCheck_append hreqs r past), hlive'] at hmatch
      have hheld' := (hheld.append (silentLog_of_isRequest hreqs)).cons
        (e := .checked b (some a)) (by simp)
      refine ⟨hlive', ?_, ?_⟩
      · rw [RangeIterator.resetTo_current, minCommonAncestor, hmatch]
        exact hheld'.reorg (by omega)
      · rintro b' ⟨⟩
        rw [RangeIterator.resetTo_current]
        unfold minCommonAncestor
        omega
  | @batchesDone iter b resume h log hnext =>
    obtain ⟨hlive, hheld, hle⟩ := hI
    refine ⟨hlive, ?_⟩
    rintro b' ⟨⟩
    have hdone := hcut.1.wf.next_eq_none.mp hnext
    have hstop := (hcut.2 b rfl).2
    have heq : iter.current = b.number + 1 := Nat.le_antisymm (hle b rfl) (by omega)
    exact heq ▸ hheld
  | lagged | ignored => exact ⟨hI.1, fun b hb => (hI.2 b hb).cons (by simp)⟩
  | @header n batchStart b h h' log log' state hh =>
    obtain ⟨hlive, hheld⟩ := hI
    have hheld := hheld b rfl
    cases hh with
    | clean hcheck hreqs =>
      have hheld' := ((hheld.cons (e := .received (.ok n)) (by simp)).append
        (silentLog_of_isRequest hreqs)).cons (e := .checked b none) (by simp)
      refine restarting_proceed ((liveStart_append hreqs start _).trans hlive) hheld' ?_
      rintro b' ⟨⟩
      exact hheld'
    | @reorg a _ _ _ reqs hcheck hreqs =>
      have hlive' := (liveStart_append hreqs start (.received (.ok n) :: _)).trans hlive
      have hheld' := ((hheld.cons (e := .received (.ok n)) (by simp)).append
        (silentLog_of_isRequest hreqs)).cons (e := .checked b (some a)) (by simp)
      obtain ⟨hle, hmatch⟩ := hC.2.1
      rw [if_neg (not_batchCheck_append hreqs n _), hlive'] at hmatch
      exact restarting_afterReorg hlive' (hheld'.reorg (by omega)) hmatch
  | stop hextra => trivial

/-- **The live phase follows the rollback protocol**, from a log behind which the consumer holds
everything up to the start of the live phase, in every run that meets the condition. -/
theorem rollsBack_streamLiveBlocks (fuel : ℕ) (subscription : List SubscriptionItem) (h : R)
    (notifyAfterFirstBlock : Bool) (hheld : HoldsUpTo start cfg.streamStart log)
    (hlive : liveStart start log = cfg.streamStart)
    (hC : Always (LiveRestartsMatch start)
      ((cfg.streamLiveBlocks fuel subscription h notifyAfterFirstBlock).run log).2) :
    Always (RollsBack start)
      ((cfg.streamLiveBlocks fuel subscription h notifyAfterFirstBlock).run log).2 := by
  obtain ⟨t, ht, hlog⟩ := cfg.streamLiveBlocks_reach fuel subscription h notifyAfterFirstBlock log
  rw [← hlog] at hC ⊢
  refine (LoggedSystem.safe (I := fun s => cfg.Cutting s ∧ cfg.Restarting start s)
    (fun s t hst hC hI hφ => ?_) ht ⟨trivial, hheld.1, hlive⟩ hheld.2 hC).2
  refine ⟨⟨cutting_step hst hI.1, restarting_step hst hC hI.1 hI.2⟩, ?_⟩
  obtain ⟨hcut, hI⟩ := hI
  refine always_step_of_message (rollsBack_of_silent start) hst ?_
    (fun _ _ _ _ _ _ _ _ _ => trivial) hφ
  intro iter iter' last resume batch hphase hnext
  simp only [Cutting, hphase] at hcut
  simp only [Restarting, hphase] at hI
  obtain ⟨hstart, hle, -⟩ := hcut.1.next hnext
  have hheld := hI.2.1
  rw [← hstart] at hheld
  exact (hheld.cons (by simp)).rollsBack hle

end LiveConfig

/-! ### The whole stream -/

namespace SyncHandler

variable [DecidableEq Hash] (self : SyncHandler Hash) {start k : ℕ}

/-- What holds at the end of a sync stream: if the checks met the condition, the protocol was
followed. -/
def Followed (start : ℕ) (log : Log Hash) : Prop :=
  Always (LiveRestartsMatch start) log → Always (RollsBack start) log

variable {self} in
/-- Both phases follow the protocol, with a consumer that holds everything up to the next pass.

**Proof sketch.** Each pass streams up to its end. The live phase begins where the last pass has
ended. -/
lemma phasesKeep_followed : self.PhasesKeep (HoldsUpTo start) (Followed start) where
  request k r log h := h.cons (by simp)
  left k log h _ := h.2
  error k e log h _ := ⟨trivial, h.2⟩
  pass k tip fuel hlt := by
    refine (HistoricalRangeHandler.triple_runSync _ (Nat.le_of_lt hlt) fuel).conseq (fun _ h => h)
      (fun channel log hlog => ?_) fun _ h _ => h
    cases channel with
    | opened => exact ⟨fun _ => hlog.2, fun _ => hlog⟩
    | closed => exact ⟨fun _ => hlog, by simp⟩
  live k fuel subscription log h :=
    (self.liveConfig k).rollsBack_streamLiveBlocks fuel subscription self.reorgHandler false
      (h.cons (by simp)) h.1.position_eq

/-- **The sync stream follows the rollback protocol**, in every run in which the checks of the live
phase meet the condition: every range begins where the consumer needs it, behind the last range
or behind the last reported ancestor, and a consumer that rolls back misses no block.

**Proof sketch.** The catch-up phase leaves a consumer that holds everything up to the block at
which the live phase begins, and the live phase goes on from there. -/
theorem run_rollsBack (fuel : ℕ) (subscription : List SubscriptionItem)
    (hstart : ((getBlockNumberById self.provider self.startId).run []).1 = some (.ok start))
    (hC : Always (LiveRestartsMatch start) ((self.run fuel subscription).run []).2) :
    Always (RollsBack start) ((self.run fuel subscription).run []).2 := by
  have hnil : HoldsUpTo start start ([.request (.blockNumberById self.startId)] : Log Hash) :=
    HoldsUpTo.cons ⟨heldUpTo_nil start, trivial⟩ (by simp)
  have hresolved (start' : ℕ)
      (h : ((getBlockNumberById self.provider self.startId).run []).1 = some (.ok start')) :
      start' = start := by
    rw [hstart] at h
    simpa using h.symm
  refine phasesKeep_followed.run fuel subscription (fun _ => ?_) (fun start' h => ?_)
    (fun start' h => ?_) hC
  · exact ⟨trivial, trivial, trivial⟩
  · exact hresolved start' h ▸ hnil
  · obtain rfl := hresolved start' h
    exact (self.liveConfig start').rollsBack_streamLiveBlocks fuel subscription self.reorgHandler
      true ((hnil.cons (by simp)).cons (by simp)) rfl

/-! ### A reorg below the live phase -/

/-- Block `4` is replaced after the ninth provider call, by a chain with the given blocks `1`, `2`
and `3`, on which block `3` is final or block `0` is. -/
def belowLiveStart (low : List ℕ) (finalized : ℕ) : RobustProvider ℕ :=
  .healthy (switchAt 9 (.ofHashes 0 [1, 2, 3, 4] 0) (.ofHashes 0 (low ++ [14, 15]) finalized))

/-- The sync stream from block `1` on over a chain. -/
def syncFromOne (provider : RobustProvider ℕ) : SyncHandler ℕ :=
  SyncHandler.new provider defaultMaxBlockRange (.number (.number 1)) 1 .infinite ⟨none⟩

/-- A reorg to block `3`: the catch-up phase sends `1..=3`, the live phase begins at block `4` and
restarts there. -/
theorem run_rollsBack_aboveLiveStart :
    Always (RollsBack 1)
      (((syncFromOne (belowLiveStart [1, 2, 3] 3)).run 5 [.ok 5, .ok 5]).run []).2 :=
  run_rollsBack (syncFromOne (belowLiveStart [1, 2, 3] 3)) 5 [.ok 5, .ok 5] rfl (by decide)

/-- A reorg to block `0`: the consumer drops everything, but the live phase restarts at block `4`
again, though no final block is ever replaced. -/
theorem not_rollsBack_belowLiveStart :
    FinalityKept (belowLiveStart [11, 12, 13] 0).view ∧
      ¬Always (RollsBack 1)
        (((syncFromOne (belowLiveStart [11, 12, 13] 0)).run 5 [.ok 5, .ok 5]).run []).2 :=
  ⟨finalityKept_switchAt (by decide), by decide⟩

end SyncHandler

end EventScanner
