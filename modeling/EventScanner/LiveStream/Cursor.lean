import EventScanner.LiveStream.History

set_option relaxedAutoImplicit false
set_option autoImplicit false

/-!
# The cursor of the live stream

What holds of the batch loop in every run, without any assumption: its iterator cuts a range
that ends at the confirmed block of the header being processed, and a batch that was sent ends
right before the cursor.

## Main definitions

* `EventScanner.LiveConfig.IterOk` — the iterator of the batch loop.
* `EventScanner.LiveConfig.Cutting` — the invariant.
* `EventScanner.LiveConfig.Checks` — the block that is checked next.

## Main results

* `EventScanner.LiveConfig.cutting_step` — every step keeps the invariant.
* `EventScanner.LiveConfig.always_step_of_message` — a property of the messages sent is kept by
  a step when the range or the reorg it sends has the property.
-/

namespace EventScanner

open HashChain

variable {Hash R : Type}

namespace LiveConfig

variable (cfg : LiveConfig Hash)

/-- The iterator of the batch loop cuts a range that ends at the confirmed block. -/
structure IterOk (iter : RangeIterator .forward) (log : Log Hash) : Prop where
  /-- The batch counter fits the cursor. -/
  wf : iter.Wf
  /-- The batch size is the configured one. -/
  rangeSize_eq : iter.rangeSize = cfg.maxBlockRange
  /-- The range ends at the confirmed block of the header being processed. -/
  stop_eq : ∃ n ∈ lastHeader log, iter.stop = cfg.confirmed n
  /-- The range does not end before the stream. -/
  start_le_stop : cfg.streamStart ≤ iter.stop
  /-- The cursor is at most one block before the stream. -/
  start_le_current : cfg.streamStart ≤ iter.current + 1

variable {cfg} {iter iter' : RangeIterator .forward} {log log' : Log Hash} {n : ℕ}
  {batch : RangeInclusive}

/-- The iterator over a range from the start of the stream on, or from behind it. -/
lemma iterOk_forward {s : ℕ} (h : lastHeader log = some n) (hs : cfg.streamStart ≤ s)
    (hn : s ≤ cfg.confirmed n) :
    cfg.IterOk (.forward s (cfg.confirmed n) cfg.maxBlockRange) log where
  wf := RangeIterator.wf_forward ..
  rangeSize_eq := rfl
  stop_eq := ⟨n, h, rfl⟩
  start_le_stop := Nat.le_trans hs hn
  start_le_current := Nat.le_succ_of_le hs

/-- The iterator stays fine as long as no other header arrives. -/
lemma IterOk.of_lastHeader_eq (h : cfg.IterOk iter log) (heq : lastHeader log' = lastHeader log) :
    cfg.IterOk iter log' :=
  ⟨h.wf, h.rangeSize_eq, heq ▸ h.stop_eq, h.start_le_stop, h.start_le_current⟩

/-- The iterator stays fine when the batch loop resets it behind a common ancestor. -/
lemma IterOk.reset (h : cfg.IterOk iter log) (a : ℕ) :
    cfg.IterOk (iter.resetTo (max (a + 1) cfg.minCommonAncestor)) log where
  wf := h.wf.resetTo _
  rangeSize_eq := h.rangeSize_eq
  stop_eq := h.stop_eq
  start_le_stop := h.start_le_stop
  start_le_current := by
    rw [RangeIterator.resetTo_current]
    unfold minCommonAncestor
    omega

/-- The next batch starts at the cursor and fits; the cursor moves behind it. -/
lemma IterOk.next (h : cfg.IterOk iter log) (hn : iter.next = some (batch, iter')) :
    batch.start = iter.current ∧ batch.start ≤ batch.stop ∧ batch.stop ≤ iter'.stop ∧
      (∃ n ∈ lastHeader log, batch.stop ≤ cfg.confirmed n) ∧
      batch.stop - batch.start + 1 ≤ cfg.maxBlockRange ∧
      iter'.current = batch.stop + 1 ∧ cfg.IterOk iter' log := by
  obtain ⟨hle, rfl, hcur, hstop, hsize, hwf⟩ := h.wf.next_eq_some hn
  obtain ⟨n, hn, hstop'⟩ := h.stop_eq
  have hm := h.rangeSize_eq
  have hpos := cfg.maxBlockRange.2
  have hstart := h.start_le_current
  dsimp only at hcur ⊢
  have hok : cfg.IterOk iter' log :=
    ⟨hwf, hsize.trans hm, ⟨n, hn, hstop.trans hstop'⟩, hstop ▸ h.start_le_stop, by omega⟩
  exact ⟨rfl, by omega, by omega, ⟨n, hn, by omega⟩, by omega, hcur, hok⟩

variable (cfg)

/-- The invariant of the batch loop: the iterator is fine, and the blocks that a check may be made
of are neither below the block before the stream nor above the end of the range. Between
sending a batch and checking its last block the cursor stands right behind that block. -/
def Cutting (s : LiveState Hash R) : Prop :=
  match s.phase with
  | .streaming (.ready iter last) _ =>
    cfg.IterOk iter s.log ∧ ∀ b ∈ last, cfg.streamStart ≤ b.number + 1 ∧ b.number ≤ iter.stop
  | .streaming (.sent iter b) _ =>
    cfg.IterOk iter s.log ∧ cfg.streamStart ≤ b.number + 1 ∧ b.number ≤ iter.stop ∧
      iter.current = b.number + 1 ∧ ∃ r past, s.log = .sent (dataItem r) :: past
  | .waiting state => ∀ b ∈ state.previousBatchEnd, cfg.streamStart ≤ b.number + 1
  | .starting | .stopped => True

variable {cfg}

/-- What is streamed for a header starts where the state says. -/
lemma cutting_proceed {state : LiveStreamingState Hash} {h : R} (hn : lastHeader log = some n)
    (hstart : cfg.streamStart ≤ state.batchStart)
    (hprev : ∀ b ∈ state.previousBatchEnd, cfg.streamStart ≤ b.number + 1) :
    cfg.Cutting ⟨cfg.proceed n state, h, log⟩ := by
  unfold proceed
  split_ifs with hlt
  · exact hprev
  · exact ⟨iterOk_forward hn hstart (Nat.le_of_not_lt hlt), by simp⟩

/-- Behind a reorg found by the main loop nothing before the stream is streamed. -/
lemma cutting_afterReorg (a : Block Hash) {h : R} (hn : lastHeader log = some n) :
    cfg.Cutting ⟨cfg.proceed n (cfg.afterReorg a), h, log⟩ := by
  unfold afterReorg
  split_ifs with ha
  · exact cutting_proceed hn (Nat.le_refl _) (by simp)
  · refine cutting_proceed hn (by dsimp only; omega) ?_
    rintro b ⟨⟩
    omega

variable [ReorgHandler Hash R] {s t : LiveState Hash R}

/-- One step keeps the invariant of the batch loop. -/
lemma cutting_step (hst : LiveStep cfg s t) (hI : cfg.Cutting s) : cfg.Cutting t := by
  cases hst with
  | first hrel hnotice =>
    refine ⟨?_, by simp⟩
    rcases hnotice with rfl | rfl <;> exact iterOk_forward rfl (Nat.le_refl _) hrel
  | batch hb =>
    cases hb with
    | emit hnext hnum hsees =>
      obtain ⟨hstart, hle, hstop, -, -, hcur, hiter⟩ := hI.1.next hnext
      have hcur' := hI.1.start_le_current
      exact ⟨hiter.of_lastHeader_eq rfl, by omega, by omega, by omega, _, _, rfl⟩
    | clean hcheck hreqs =>
      refine ⟨hI.1.of_lastHeader_eq (lastHeader_append hreqs _), ?_⟩
      rintro b ⟨⟩
      exact ⟨hI.2.1, hI.2.2.1⟩
    | reorg hcheck hreqs =>
      refine ⟨(hI.1.reset _).of_lastHeader_eq (lastHeader_append hreqs _), ?_⟩
      rintro b ⟨⟩
      exact ⟨hI.2.1, hI.2.2.1⟩
  | batchesDone =>
    intro b hb
    exact (hI.2 b hb).1
  | lagged | ignored => exact hI
  | header hh =>
    cases hh with
    | clean hcheck hreqs => exact cutting_proceed (lastHeader_append hreqs _) (hI _ rfl) hI
    | reorg hcheck hreqs => exact cutting_afterReorg _ (lastHeader_append hreqs _)
  | stop => trivial

/-- A step sends no range, or the next batch of the batch loop. -/
lemma sentRanges_step (hst : LiveStep cfg s t) :
    sentRanges t.log = sentRanges s.log ∨
      ∃ iter iter' last resume batch, s.phase = .streaming (.ready iter last) resume ∧
        iter.next = some (batch, iter') ∧ sentRanges t.log = batch :: sentRanges s.log := by
  cases hst with
  | first hrel hnotice => rcases hnotice with rfl | rfl <;> exact Or.inl rfl
  | batch hb =>
    cases hb with
    | emit hnext hnum hsees => exact Or.inr ⟨_, _, _, _, _, rfl, hnext, rfl⟩
    | clean hcheck hreqs =>
      exact Or.inl (sentRanges_of_silent (silentLog_of_isRequest hreqs) _)
    | reorg hcheck hreqs =>
      exact Or.inl (sentRanges_of_silent (silentLog_of_isRequest hreqs) _)
  | batchesDone | lagged | ignored => exact Or.inl rfl
  | header hh =>
    cases hh with
    | clean hcheck hreqs =>
      exact Or.inl (sentRanges_of_silent (silentLog_of_isRequest hreqs) _)
    | reorg hcheck hreqs =>
      exact Or.inl (sentRanges_of_silent (silentLog_of_isRequest hreqs) _)
  | stop hextra => exact Or.inl (sentRanges_of_silent hextra _)

/-- The block `b` is checked next, when the log is `log`: it is the last block of the batch that
was just sent, or the previous batch end when a header arrives. -/
inductive Checks (s : LiveState Hash R) : Block Hash → Log Hash → Prop
  /-- In the batch loop. -/
  | batch {iter : RangeIterator .forward} {b : Block Hash} {resume : ℕ} :
      s.phase = .streaming (.sent iter b) resume → Checks s b s.log
  /-- In the main loop. -/
  | header {batchStart n : ℕ} {b : Block Hash} :
      s.phase = .waiting ⟨batchStart, some b⟩ → Checks s b (.received (.ok n) :: s.log)

omit [ReorgHandler Hash R] in
/-- When a block is checked, the last event is not a provider call. -/
lemma Checks.dropWhile_eq {b : Block Hash} (hchecks : Checks s b log) (hcut : cfg.Cutting s) :
    log.dropWhile Event.isRequest = log := by
  cases hchecks with
  | batch hphase =>
    unfold Cutting at hcut
    rw [hphase] at hcut
    obtain ⟨-, -, -, -, r, past, hlog⟩ := hcut
    rw [hlog]
    rfl
  | header => rfl

/-- A property of the messages sent is kept by a step when it holds of the range the batch loop
sends and of the reorg a check reports. -/
lemma always_step_of_message {φ : Event Hash → Log Hash → Prop}
    (hsilent : ∀ e past, e.Silent → φ e past) (hst : LiveStep cfg s t)
    (hemit : ∀ iter iter' last resume batch, s.phase = .streaming (.ready iter last) resume →
      iter.next = some (batch, iter') →
      φ (.sent (dataItem batch)) (.request (.blockByNumber (.number batch.stop)) :: s.log))
    (hreorg : ∀ b a h' reqs log, Checks s b log →
      (ReorgHandler.check s.handler b).run log = (some (.ok (some a), h'), reqs ++ log) →
      (∀ e ∈ reqs, e.isRequest = true) →
      t.log = .sent (reorgItem a.number) :: .checked b (some a) :: (reqs ++ log) →
      φ (.sent (reorgItem a.number)) (.checked b (some a) :: (reqs ++ log)))
    (h : EventLog.Always φ s.log) : EventLog.Always φ t.log := by
  have happend {new log : Log Hash} (hnew : SilentLog new) (h : EventLog.Always φ log) :
      EventLog.Always φ (new ++ log) :=
    EventLog.always_append (fun e he past => hsilent e past (hnew e he)) h
  have hreqs' {reqs log : Log Hash} (hreqs : ∀ e ∈ reqs, e.isRequest = true)
      (h : EventLog.Always φ log) : EventLog.Always φ (reqs ++ log) :=
    happend (silentLog_of_isRequest hreqs) h
  cases hst with
  | first hrel hnotice =>
    rcases hnotice with rfl | rfl
    · exact ⟨hsilent _ _ (by simp), h⟩
    · exact ⟨hsilent _ _ (by simp), hsilent _ _ (by simp), h⟩
  | batch hb =>
    cases hb with
    | emit hnext hnum hsees => exact ⟨hemit _ _ _ _ _ rfl hnext, hsilent _ _ (by simp), h⟩
    | clean hcheck hreqs => exact ⟨hsilent _ _ (by simp), hreqs' hreqs h⟩
    | reorg hcheck hreqs =>
      exact ⟨hreorg _ _ _ _ _ (.batch rfl) hcheck hreqs rfl, hsilent _ _ (by simp),
        hreqs' hreqs h⟩
  | batchesDone hnext => exact h
  | lagged | ignored => exact ⟨hsilent _ _ (by simp), h⟩
  | header hh =>
    cases hh with
    | clean hcheck hreqs =>
      exact ⟨hsilent _ _ (by simp), hreqs' hreqs ⟨hsilent _ _ (by simp), h⟩⟩
    | reorg hcheck hreqs =>
      exact ⟨hreorg _ _ _ _ _ (.header rfl) hcheck hreqs rfl, hsilent _ _ (by simp),
        hreqs' hreqs ⟨hsilent _ _ (by simp), h⟩⟩
  | stop hextra => exact happend hextra h

end LiveConfig

end EventScanner
