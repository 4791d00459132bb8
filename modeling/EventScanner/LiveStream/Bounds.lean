import EventScanner.LiveStream.Cursor

set_option relaxedAutoImplicit false
set_option autoImplicit false

/-!
# The bounds of the live stream

Which ranges the live stream sends: they end at the confirmed block of the header being
processed or before it, they are not longer than the configured maximum, and they start at the
start of the stream or behind it, as long as no check inside the batch loop reports an ancestor
below the block before the start.

## Main definitions

* `EventScanner.LiveConfig.InBounds` — the bounds on a range that is sent.
* `EventScanner.LiveConfig.BatchReorgsReachStart` — the condition on the checks.

## Main results

* `EventScanner.LiveConfig.ranges_inBounds` — every range is in bounds, in every run that meets
  the condition.
* `EventScanner.LiveConfig.not_inBounds_deepReorg` — a run that sends a range from before the
  start of the stream.
-/

namespace EventScanner

open HashChain EventLog

variable {Hash R : Type}

namespace LiveConfig

variable (cfg : LiveConfig Hash)

/-- A range that is sent lies between the start of the stream and the confirmed block of the
header being processed, and is not too long. -/
def InBounds : Event Hash → Log Hash → Prop
  | .sent (.ok (.data r)), past =>
    cfg.streamStart ≤ r.start ∧ r.start ≤ r.stop ∧
      (∃ n ∈ lastHeader past, r.stop ≤ cfg.confirmed n) ∧
      r.stop - r.start + 1 ≤ cfg.maxBlockRange
  | _, _ => True

/-- A check inside the batch loop that reports a common ancestor reports the block before the
start of the stream, or a later one. -/
def BatchReorgsReachStart : Event Hash → Log Hash → Prop
  | .checked _ (some a), past => BatchCheck past → cfg.streamStart ≤ a.number + 1
  | _, _ => True

instance (e : Event Hash) (past : Log Hash) : Decidable (cfg.InBounds e past) :=
  match e with
  | .sent (.ok (.data r)) =>
    inferInstanceAs (Decidable (cfg.streamStart ≤ r.start ∧ r.start ≤ r.stop ∧
      (∃ n ∈ lastHeader past, r.stop ≤ cfg.confirmed n) ∧
      r.stop - r.start + 1 ≤ (cfg.maxBlockRange : ℕ)))
  | .sent (.ok (.notification _)) | .sent (.error _) | .request _ | .received _ | .checked _ _ =>
    .isTrue trivial

instance (e : Event Hash) (past : Log Hash) : Decidable (cfg.BatchReorgsReachStart e past) :=
  match e with
  | .checked _ (some a) =>
    inferInstanceAs (Decidable (BatchCheck past → cfg.streamStart ≤ a.number + 1))
  | .checked _ none | .sent _ | .request _ | .received _ => .isTrue trivial

/-- Nothing but ranges can be out of bounds. -/
lemma inBounds_of_silent (e : Event Hash) (past : Log Hash) (h : e.Silent) :
    cfg.InBounds e past := by
  match e with
  | .sent (.ok (.data r)) => exact absurd h id
  | .sent (.ok (.notification _)) | .sent (.error _) | .request _ | .received _ | .checked _ _ =>
    trivial

/-- What the bounds rest on: nothing that is streamed next starts before the stream. -/
def Bounded (s : LiveState Hash R) : Prop :=
  match s.phase with
  | .streaming (.ready iter last) _ =>
    cfg.streamStart ≤ iter.current ∧ ∀ b ∈ last, cfg.streamStart ≤ b.number
  | .streaming (.sent iter b) _ => cfg.streamStart ≤ iter.current ∧ cfg.streamStart ≤ b.number
  | .waiting state => ∀ b ∈ state.previousBatchEnd, cfg.streamStart ≤ b.number
  | .starting | .stopped => True

variable {cfg} {log : Log Hash} {n : ℕ}

/-- What is streamed for a header starts where the state says. -/
lemma bounded_proceed {state : LiveStreamingState Hash} {h : R}
    (hstart : cfg.streamStart ≤ state.batchStart)
    (hprev : ∀ b ∈ state.previousBatchEnd, cfg.streamStart ≤ b.number) :
    cfg.Bounded ⟨cfg.proceed n state, h, log⟩ := by
  unfold proceed
  split_ifs
  · exact hprev
  · exact ⟨hstart, by simp⟩

/-- Behind a reorg found by the main loop nothing before the start is streamed. -/
lemma bounded_afterReorg (a : Block Hash) {h : R} :
    cfg.Bounded ⟨cfg.proceed n (cfg.afterReorg a), h, log⟩ := by
  unfold afterReorg
  split_ifs with ha
  · exact bounded_proceed (Nat.le_refl _) (by simp)
  · refine bounded_proceed (by dsimp only; omega) ?_
    rintro b ⟨⟩
    exact Nat.le_of_not_lt ha

variable [ReorgHandler Hash R] {s t : LiveState Hash R}

/-- **One step keeps the bounds.**

**Proof sketch.** By cases on the step. The only step that can move the cursor below the start
of the stream is a reorg found by the batch loop: it resets the cursor to the block behind the
common ancestor, but not below the block *before* the start. -/
lemma bounded_step (hst : LiveStep cfg s t) (hC : Always cfg.BatchReorgsReachStart t.log)
    (hI : cfg.Cutting s ∧ cfg.Bounded s) (hφ : Always cfg.InBounds s.log) :
    (cfg.Cutting t ∧ cfg.Bounded t) ∧ Always cfg.InBounds t.log := by
  obtain ⟨hcut, hI⟩ := hI
  have hcut' := cutting_step hst hcut
  refine ⟨⟨hcut', ?_⟩, ?_⟩
  · cases hst with
    | first hrel hnotice => exact ⟨Nat.le_refl _, by simp⟩
    | batch hb =>
      cases hb with
      | emit hnext hnum hsees =>
        obtain ⟨hstart, hle, -, -, -, hcur, -⟩ := hcut.1.next hnext
        obtain ⟨hI, -⟩ := hI
        exact ⟨by omega, by omega⟩
      | clean hcheck hreqs =>
        refine ⟨hI.1, ?_⟩
        rintro b ⟨⟩
        exact hI.2
      | @reorg iter b a h h' log reqs hcheck hreqs =>
        obtain ⟨-, -, -, -, r, past, hlog⟩ := hcut
        dsimp only at hlog
        subst hlog
        have ha : cfg.streamStart ≤ a.number + 1 := hC.2.1 (batchCheck_append hreqs r past)
        refine ⟨?_, ?_⟩
        · rw [RangeIterator.resetTo_current]
          omega
        · rintro b' ⟨⟩
          exact hI.2
    | batchesDone hnext => exact hI.2
    | lagged | ignored => exact hI
    | header hh =>
      cases hh with
      | clean hcheck hreqs =>
        have hb := hI _ rfl
        exact bounded_proceed (by dsimp only; omega) hI
      | reorg hcheck hreqs => exact bounded_afterReorg _
    | stop hextra => trivial
  · refine always_step_of_message cfg.inBounds_of_silent hst ?_
      (fun _ _ _ _ _ _ _ _ _ => trivial) hφ
    intro iter iter' last resume batch hphase hnext
    simp only [Cutting, hphase] at hcut
    simp only [Bounded, hphase] at hI
    obtain ⟨hstart, hle, -, hconf, hsize, -⟩ := hcut.1.next hnext
    exact ⟨hstart ▸ hI.1, hle, hconf, hsize⟩

/-- **The ranges of the live stream are in bounds**, in every run in which each check inside the
batch loop that reports a common ancestor reports one from the block before the start of the
stream on. -/
theorem ranges_inBounds (fuel : ℕ) (subscription : List SubscriptionItem) (h : R)
    (notifyAfterFirstBlock : Bool)
    (hC : Always cfg.BatchReorgsReachStart
      ((cfg.streamLiveBlocks fuel subscription h notifyAfterFirstBlock).run []).2) :
    Always cfg.InBounds
      ((cfg.streamLiveBlocks fuel subscription h notifyAfterFirstBlock).run []).2 := by
  obtain ⟨t, ht, hlog⟩ := cfg.streamLiveBlocks_reach fuel subscription h notifyAfterFirstBlock []
  rw [← hlog] at hC ⊢
  exact (LoggedSystem.safe (fun _ _ hst => bounded_step hst) ht ⟨trivial, trivial⟩ trivial hC).2

/-! ### A reorg inside a batch -/

/-- A chain of four blocks, all but the first of which are replaced between the first provider
call and the second. -/
def deepReorg : RobustProvider ℕ :=
  .healthy (switchAt 1 (.ofHashes 0 [1, 2, 3] 0) (.ofHashes 0 [11, 12, 13] 0))

/-- The live stream over that chain, on the header of block `3`. -/
def deepReorgConfig (streamStart : ℕ) : LiveConfig ℕ where
  streamStart := streamStart
  blockConfirmations := 0
  maxBlockRange := defaultMaxBlockRange
  sender := ⟨none⟩
  provider := deepReorg

/-- The log of the run from a given start on. -/
def deepReorgLog (streamStart : ℕ) : Log ℕ :=
  (((deepReorgConfig streamStart).streamLiveBlocks 5 [.ok 3]
    (DefaultReorgHandler.new deepReorg (.limited 4)) false).run []).2

/-- From block `1` on the reorg goes back to the block before the start, and all ranges are in
bounds. -/
theorem ranges_inBounds_deepReorg : Always (deepReorgConfig 1).InBounds (deepReorgLog 1) :=
  ranges_inBounds 5 [.ok 3] (DefaultReorgHandler.new deepReorg (.limited 4)) false (by decide)

/-- From block `3` on the reorg goes back further: `3..=3` and then `2..=3` are sent. -/
theorem not_inBounds_deepReorg : ¬Always (deepReorgConfig 3).InBounds (deepReorgLog 3) := by
  decide

end LiveConfig

end EventScanner
