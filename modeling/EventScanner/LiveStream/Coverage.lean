import EventScanner.LiveStream.Cursor

set_option relaxedAutoImplicit false
set_option autoImplicit false

/-!
# The live stream skips no block

Whenever the live stream sends a range, every block from the start of the stream up to that
range has been sent before, as long as no check that finds a block replaced finds the finalized
height above that block: only then can the reported common ancestor, and with it the position
at which the stream resumes, lie above what has been streamed.

## Main definitions

* `EventScanner.LiveConfig.NoGap` — the blocks before a range that is sent have been sent.
* `EventScanner.LiveConfig.FinalityBehindChecks` — the condition on the finalized height.

## Main results

* `EventScanner.LiveConfig.ranges_noGap` — no block is skipped, in every run that meets the
  condition.
* `EventScanner.LiveConfig.not_noGap_finalityAdvanced` — a run that skips a block.
-/

namespace EventScanner

open HashChain EventLog

variable {Hash : Type}

namespace LiveConfig

variable (cfg : LiveConfig Hash)

/-- Every block from the start of the stream up to a range that is sent, or up to a common ancestor
behind which the stream resumes, was sent before. -/
def NoGap : Event Hash → Log Hash → Prop
  | .sent (.ok (.data r)), past => ∀ n < r.start, cfg.streamStart ≤ n → Emitted past n
  | .sent (.ok (.notification (.reorgDetected a))), past =>
    ∀ n < a + 1, cfg.streamStart ≤ n → Emitted past n
  | _, _ => True

/-- When a check finds a block replaced, the finalized height of that moment does not exceed the
height of the block. -/
def FinalityBehindChecks : Event Hash → Log Hash → Prop
  | .checked b (some _), past => ∀ f ∈ (cfg.provider.current past).finalized, f ≤ b.number
  | _, _ => True

instance (e : Event Hash) (past : Log Hash) : Decidable (cfg.NoGap e past) :=
  match e with
  | .sent (.ok (.data r)) =>
    inferInstanceAs (Decidable (∀ n < r.start, cfg.streamStart ≤ n → Emitted past n))
  | .sent (.ok (.notification (.reorgDetected a))) =>
    inferInstanceAs (Decidable (∀ n < a + 1, cfg.streamStart ≤ n → Emitted past n))
  | .sent (.ok (.notification .switchingToLive)) | .sent (.ok (.notification .noPastLogsFound))
  | .sent (.error _) | .request _ | .received _ | .checked _ _ => .isTrue trivial

instance (e : Event Hash) (past : Log Hash) : Decidable (cfg.FinalityBehindChecks e past) :=
  match e with
  | .checked b (some _) =>
    inferInstanceAs (Decidable (∀ f ∈ (cfg.provider.current past).finalized, f ≤ b.number))
  | .checked _ none | .sent _ | .request _ | .received _ => .isTrue trivial

/-- Nothing but ranges and reorgs can leave a gap. -/
lemma noGap_of_silent (e : Event Hash) (past : Log Hash) (h : e.Silent) : cfg.NoGap e past := by
  match e with
  | .sent (.ok (.data _)) | .sent (.ok (.notification (.reorgDetected _))) => exact absurd h id
  | .sent (.ok (.notification .switchingToLive)) | .sent (.ok (.notification .noPastLogsFound))
  | .sent (.error _) | .request _ | .received _ | .checked _ _ => trivial

/-- The blocks from the start of the stream up to `k` (exclusively) have been sent. -/
def Covered (log : Log Hash) (k : ℕ) : Prop :=
  ∀ n < k, cfg.streamStart ≤ n → Emitted log n

variable {cfg} {log : Log Hash} {k k' : ℕ}

lemma Covered.mono (h : cfg.Covered log k) (hk : k' ≤ k) : cfg.Covered log k' :=
  fun n hlt hn => h n (by omega) hn

lemma Covered.append (h : cfg.Covered log k) (new : Log Hash) : cfg.Covered (new ++ log) k :=
  fun n hlt hn => (h n hlt hn).append new

lemma Covered.cons (h : cfg.Covered log k) (e : Event Hash) : cfg.Covered (e :: log) k :=
  h.append [e]

/-- Nothing needs to be covered up to the start of the stream. -/
lemma covered_of_le (h : k ≤ cfg.streamStart) : cfg.Covered log k :=
  fun n hlt hn => by omega

/-- Sending the range at the cursor moves the cursor behind it. -/
lemma Covered.sent {r : RangeInclusive} (h : cfg.Covered log r.start) :
    cfg.Covered (.sent (dataItem r) :: log) (r.stop + 1) := by
  intro n hlt hn
  by_cases hs : n < r.start
  · exact (h n hs hn).cons _
  · exact ⟨r, List.mem_cons_self, by omega, by omega⟩

variable (cfg)

/-- The handler asks the same node as the stream, and its buffer is in the order of heights. -/
structure Ordered (h : DefaultReorgHandler Hash) : Prop where
  /-- The handler and the stream share the provider. -/
  provider_eq : h.provider = cfg.provider
  /-- Newer entries are not lower. -/
  pairwise : h.buffer.inner.Pairwise fun newer older => older.number ≤ newer.number

/-- The stream may resume behind the block `b`: everything up to `b` has been sent, and no
buffered block is above `b`. -/
structure ResumesBehind (h : DefaultReorgHandler Hash) (log : Log Hash) (b : Block Hash) :
    Prop where
  /-- Everything up to the block has been sent. -/
  covered : cfg.Covered log (b.number + 1)
  /-- The buffered blocks are not above the block. -/
  buffer_le : ∀ c ∈ h.buffer.inner, c.number ≤ b.number

/-- The stream may resume at the position `k`: everything below has been sent, and the buffered
blocks are below. -/
structure ResumesAt (h : DefaultReorgHandler Hash) (log : Log Hash) (k : ℕ) : Prop where
  /-- Everything below the position has been sent. -/
  covered : cfg.Covered log k
  /-- The buffered blocks are below the position. -/
  buffer_lt : ∀ c ∈ h.buffer.inner, c.number < k

/-- The invariant: everything below the cursor has been sent. -/
def Covering (s : LiveState Hash (DefaultReorgHandler Hash)) : Prop :=
  match s.phase with
  | .starting => cfg.Ordered s.handler ∧ s.handler.buffer.inner = []
  | .streaming (.ready iter last) _ =>
    cfg.Ordered s.handler ∧ cfg.ResumesAt s.handler s.log iter.current ∧
      ∀ b ∈ last, cfg.ResumesBehind s.handler s.log b
  | .streaming (.sent _ b) _ => cfg.Ordered s.handler ∧ cfg.ResumesBehind s.handler s.log b
  | .waiting state =>
    cfg.Ordered s.handler ∧
      ∀ b ∈ state.previousBatchEnd, cfg.ResumesBehind s.handler s.log b
  | .stopped => True

variable {cfg} {h h' : DefaultReorgHandler Hash} {b a : Block Hash} {reqs : Log Hash}

lemma ResumesBehind.append (h' : cfg.ResumesBehind h log b) (new : Log Hash) :
    cfg.ResumesBehind h (new ++ log) b :=
  ⟨h'.covered.append new, h'.buffer_le⟩

lemma ResumesBehind.cons (h' : cfg.ResumesBehind h log b) (e : Event Hash) :
    cfg.ResumesBehind h (e :: log) b := h'.append [e]

lemma ResumesBehind.resumesAt (h' : cfg.ResumesBehind h log b) :
    cfg.ResumesAt h log (b.number + 1) :=
  ⟨h'.covered, fun c hc => Nat.lt_succ_of_le (h'.buffer_le c hc)⟩

/-- What is streamed for a header starts where the state says. -/
lemma covering_proceed {n : ℕ} {state : LiveStreamingState Hash} (ho : cfg.Ordered h)
    (hstart : cfg.ResumesAt h log state.batchStart)
    (hprev : ∀ b ∈ state.previousBatchEnd, cfg.ResumesBehind h log b) :
    cfg.Covering ⟨cfg.proceed n state, h, log⟩ := by
  unfold proceed
  split_ifs
  · exact ⟨ho, hprev⟩
  · exact ⟨ho, hstart, by simp⟩

/-- Behind a reorg found by the batch loop the cursor is at a covered position. -/
lemma resumesAt_reset (hle : a.number ≤ b.number) (hb : cfg.ResumesBehind h log b)
    (hbuf : ∀ c ∈ h.buffer.inner, c.number ≤ a.number) :
    cfg.ResumesAt h log (max (a.number + 1) cfg.minCommonAncestor) where
  covered := by
    intro n hlt hn
    unfold minCommonAncestor at hlt
    exact hb.covered n (by omega) hn
  buffer_lt c hc := by
    have := hbuf c hc
    omega

/-- Behind a reorg found by the main loop the stream resumes at a covered position. -/
lemma covering_afterReorg {n : ℕ} (ho : cfg.Ordered h) (hcov : cfg.Covered log (a.number + 1))
    (hbuf : ∀ c ∈ h.buffer.inner, c.number ≤ a.number) :
    cfg.Covering ⟨cfg.proceed n (cfg.afterReorg a), h, log⟩ := by
  unfold afterReorg
  split_ifs with ha
  · refine covering_proceed ho ⟨covered_of_le (Nat.le_refl _), ?_⟩ (by simp)
    intro c hc
    exact Nat.lt_of_le_of_lt (hbuf c hc) ha
  · have hback : cfg.ResumesBehind h log a := ⟨hcov, hbuf⟩
    refine covering_proceed ho hback.resumesAt ?_
    rintro b ⟨⟩
    exact hback

variable {s t : LiveState Hash (DefaultReorgHandler Hash)}

/-- Everything up to a block that is checked has been sent. -/
lemma Covering.checks (hI : cfg.Covering s) (hchecks : Checks s b log) :
    cfg.Ordered s.handler ∧ cfg.ResumesBehind s.handler log b := by
  unfold Covering at hI
  cases hchecks with
  | batch hphase =>
    rw [hphase] at hI
    exact hI
  | header hphase =>
    rw [hphase] at hI
    exact ⟨hI.1, (hI.2 _ rfl).cons _⟩

variable [DecidableEq Hash]

/-- A check without a reorg keeps everything in order. -/
lemma resumesBehind_of_clean (ho : cfg.Ordered h) (hb : cfg.ResumesBehind h log b)
    (hcheck : (ReorgHandler.check h b).run log = (some (.ok none, h'), reqs ++ log)) :
    cfg.Ordered h' ∧ cfg.ResumesBehind h' (.checked b none :: (reqs ++ log)) b := by
  obtain ⟨rfl, -, -⟩ := DefaultReorgHandler.check_eq_ok_none hcheck
  refine ⟨⟨by rw [DefaultReorgHandler.remember_provider, ho.provider_eq],
    DefaultReorgHandler.pairwise_remember ho.pairwise hb.buffer_le⟩,
    (hb.covered.append reqs).cons _, ?_⟩
  intro c hc
  rcases DefaultReorgHandler.mem_of_mem_remember hc with rfl | hc
  · exact Nat.le_refl _
  · exact hb.buffer_le c hc

/-- A check that finds a block replaced, with the finalized height not above that block, reports
an ancestor that is not above it either; nor are the blocks left in the buffer above the
ancestor. -/
lemma resumesBehind_of_reorg (ho : cfg.Ordered h) (hb : cfg.ResumesBehind h log b)
    (hcheck : (ReorgHandler.check h b).run log = (some (.ok (some a), h'), reqs ++ log))
    (hC : cfg.FinalityBehindChecks (.checked b (some a)) (reqs ++ log)) (new : Log Hash) :
    cfg.Ordered h' ∧ a.number ≤ b.number ∧ (∀ c ∈ h'.buffer.inner, c.number ≤ a.number) ∧
      cfg.ResumesBehind h' (new ++ (reqs ++ log)) b := by
  obtain ⟨hprov, -, hsearch⟩ := DefaultReorgHandler.check_eq_ok_some hcheck
  have hanswer : cfg.Ordered h' ∧ a.number ≤ b.number ∧
      ∀ c ∈ h'.buffer.inner, c.number ≤ a.number := by
    obtain ⟨-, f, hf, ⟨older, hkept, hsuffix, -⟩ | ⟨rfl, hkept⟩⟩ := hsearch.answer
    · have hpw := ho.pairwise.sublist hsuffix.sublist
      refine ⟨⟨hprov.trans ho.provider_eq, hpw⟩, ?_, ?_⟩
      · exact hb.buffer_le a (hsuffix.subset (by rw [hkept]; exact List.mem_cons_self))
      · intro c hc
        rw [hkept] at hpw hc
        rcases List.mem_cons.mp hc with rfl | hc
        · exact Nat.le_refl _
        · exact (List.pairwise_cons.mp hpw).1 c hc
    · refine ⟨⟨hprov.trans ho.provider_eq, by rw [hkept]; exact List.Pairwise.nil⟩, ?_, ?_⟩
      · have hfin := hf.2.2
        rw [ho.provider_eq] at hfin
        exact hC a.number hfin
      · rw [hkept]
        simp
  obtain ⟨ho', hle, hbuf⟩ := hanswer
  refine ⟨ho', hle, hbuf, (hb.covered.append reqs).append new, ?_⟩
  exact fun c hc => Nat.le_trans (hbuf c hc) hle

/-- **One step keeps the invariant.**

**Proof sketch.** By cases on the step. A range that is sent starts at the cursor, so the cursor
behind it is covered again; a clean check changes nothing. After a reorg the cursor goes to the
block behind the ancestor, which is not above the checked block, or to the start of the stream,
or (inside the batch loop) to the block before the start. -/
lemma covering_step (hst : LiveStep cfg s t) (hC : Always cfg.FinalityBehindChecks t.log)
    (hcut : cfg.Cutting s) (hI : cfg.Covering s) : cfg.Covering t := by
  cases hst with
  | first hrel hnotice =>
    obtain ⟨ho, hempty⟩ := hI
    dsimp only at hempty
    refine ⟨ho, ⟨covered_of_le (Nat.le_refl _), ?_⟩, by simp⟩
    rw [hempty]
    simp
  | batch hb =>
    cases hb with
    | @emit iter iter' last _ _ batch b hnext hnum hsees =>
      obtain ⟨ho, hcur, -⟩ := hI
      obtain ⟨hstart, hle, -⟩ := hcut.1.next hnext
      have hcov := hcur.covered
      rw [← hstart] at hcov
      refine ⟨ho, ?_, ?_⟩
      · rw [hnum]
        exact (hcov.cons _).sent
      · intro c hc
        have := hcur.buffer_lt c hc
        omega
    | clean hcheck hreqs =>
      obtain ⟨ho', hb'⟩ := resumesBehind_of_clean hI.1 hI.2 hcheck
      refine ⟨ho', ?_, by rintro b ⟨⟩; exact hb'⟩
      rw [hcut.2.2.2.1]
      exact hb'.resumesAt
    | reorg hcheck hreqs =>
      obtain ⟨ho', hle, hbuf, hb⟩ := resumesBehind_of_reorg hI.1 hI.2 hcheck hC.2.1 [_, _]
      exact ⟨ho', resumesAt_reset hle hb hbuf, by rintro b ⟨⟩; exact hb⟩
  | batchesDone hnext => exact ⟨hI.1, hI.2.2⟩
  | lagged | ignored => exact ⟨hI.1, fun b hb => (hI.2 b hb).cons _⟩
  | header hh =>
    cases hh with
    | clean hcheck hreqs =>
      obtain ⟨ho', hb'⟩ := resumesBehind_of_clean hI.1 ((hI.2 _ rfl).cons _) hcheck
      exact covering_proceed ho' hb'.resumesAt (by rintro b ⟨⟩; exact hb')
    | reorg hcheck hreqs =>
      obtain ⟨ho', hle, hbuf, hb⟩ := resumesBehind_of_reorg hI.1 ((hI.2 _ rfl).cons _) hcheck
        hC.2.1 [_, _]
      exact covering_afterReorg ho' (hb.covered.mono (Nat.succ_le_succ hle)) hbuf
  | stop hextra => trivial

/-- **The live stream skips no block**, in every run in which each check that finds a block
replaced finds the finalized height not above that block. -/
theorem ranges_noGap (fuel : ℕ) (subscription : List SubscriptionItem)
    (capacity : RingBufferCapacity) (notifyAfterFirstBlock : Bool)
    (hC : Always cfg.FinalityBehindChecks
      ((cfg.streamLiveBlocks fuel subscription (DefaultReorgHandler.new cfg.provider capacity)
        notifyAfterFirstBlock).run []).2) :
    Always cfg.NoGap
      ((cfg.streamLiveBlocks fuel subscription (DefaultReorgHandler.new cfg.provider capacity)
        notifyAfterFirstBlock).run []).2 := by
  obtain ⟨t, ht, hlog⟩ := cfg.streamLiveBlocks_reach fuel subscription
    (DefaultReorgHandler.new cfg.provider capacity) notifyAfterFirstBlock []
  rw [← hlog] at hC ⊢
  refine (LoggedSystem.safe (I := fun s => cfg.Cutting s ∧ cfg.Covering s)
    (fun s t hst hC hI hφ => ?_) ht ⟨trivial, ⟨rfl, List.Pairwise.nil⟩, rfl⟩ trivial hC).2
  refine ⟨⟨cutting_step hst hI.1, covering_step hst hC hI.1 hI.2⟩, ?_⟩
  obtain ⟨hcut, hcov⟩ := hI
  refine always_step_of_message cfg.noGap_of_silent hst ?_ ?_ hφ
  · intro iter iter' last resume batch hphase hnext n hlt hn
    simp only [Cutting, hphase] at hcut
    simp only [Covering, hphase] at hcov
    obtain ⟨hstart, -⟩ := hcut.1.next hnext
    exact (hcov.2.1.covered n (hstart ▸ hlt) hn).cons _
  · intro b a h' reqs log hchecks hcheck hreqs hlog
    rw [liveSystem_log, hlog] at hC
    obtain ⟨ho, hb⟩ := Covering.checks hcov hchecks
    obtain ⟨-, hle, -, hb'⟩ := resumesBehind_of_reorg ho hb hcheck hC.2.1 [.checked b (some a)]
    exact hb'.covered.mono (Nat.succ_le_succ hle)

/-! ### Finality that has overtaken the stream -/

/-- Blocks `2` and `3` are replaced after the second provider call, on a fork that is final up to
block `finalized` by then. -/
def finalityAdvanced (finalized : ℕ) : RobustProvider ℕ :=
  .healthy (switchAt 2 (.ofHashes 0 [1, 2, 3] 0)
    (.ofHashes 0 [1, 12, 13, 14, 15, 16, 17] finalized))

/-- The live stream over that chain, from block `1` on. -/
def finalityAdvancedConfig (finalized : ℕ) : LiveConfig ℕ where
  streamStart := 1
  blockConfirmations := 0
  maxBlockRange := defaultMaxBlockRange
  sender := ⟨none⟩
  provider := finalityAdvanced finalized

/-- The log of its run on the headers `3`, `5` and `7`. -/
def finalityAdvancedLog (finalized : ℕ) : Log ℕ :=
  (((finalityAdvancedConfig finalized).streamLiveBlocks 5 [.ok 3, .ok 5, .ok 7]
    (DefaultReorgHandler.new (finalityAdvanced finalized) .infinite) false).run []).2

/-- With block `0` still the final one, nothing is skipped: after `1..=3` the stream goes back to
`1..=5`. -/
theorem ranges_noGap_finalityAdvanced :
    Always (finalityAdvancedConfig 0).NoGap (finalityAdvancedLog 0) :=
  ranges_noGap 5 [.ok 3, .ok 5, .ok 7] .infinite false (by decide)

/-- With block `5` final, the stream resumes at block `6` after `1..=3`: the blocks `4` and `5`
are never sent, though no final block is ever replaced. -/
theorem not_noGap_finalityAdvanced :
    FinalityKept (finalityAdvanced 5).view ∧
      ¬Always (finalityAdvancedConfig 5).NoGap (finalityAdvancedLog 5) :=
  ⟨finalityKept_switchAt (by decide), by decide⟩

end LiveConfig

end EventScanner
