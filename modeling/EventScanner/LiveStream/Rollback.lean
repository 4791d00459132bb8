import EventScanner.LiveStream.Lineage

set_option relaxedAutoImplicit false
set_option autoImplicit false

/-!
# Reported common ancestors are sound rollback points

When the live stream reports a reorg after the check of a block `b`, the reported ancestor is
below `b`, it lies on the chain of `b` and is still canonical, and no block up to it has changed
since it was last sent. This holds in every run that meets the conditions of the lineage and in
which the chain up to the checked block does not change during a check that reports a reorg.

## Main definitions

* `EventScanner.LiveConfig.UnchangedDuringCheck`, `EventScanner.LiveConfig.NothingSentBelowStart` —
  the further conditions.
* `EventScanner.LastSent` — when a block was last sent.
* `EventScanner.LiveConfig.SoundRollback` — a reported ancestor to which the consumer can roll back.

## Main results

* `EventScanner.LiveConfig.reorgs_soundRollback` — reported ancestors are sound rollback points,
  in every run that meets the conditions.
* `EventScanner.LiveConfig.not_soundRollback_finalityOvertakes` — a run that reports a finalized
  block of the new fork as the common ancestor.
-/

namespace EventScanner

open HashChain EventLog

variable {Hash : Type}

/-! ### Blocks that were sent again -/

/-- The block `n` was last sent when the log was `before`. -/
def LastSent (log : Log Hash) (n : ℕ) (before : Log Hash) : Prop :=
  ∃ news r, log = news ++ .sent (dataItem r) :: before ∧ r.Contains n ∧ ¬Emitted news n

/-- An event that is not a range with the block does not send the block. -/
lemma LastSent.of_cons {e : Event Hash} {log before : Log Hash} {n : ℕ}
    (h : LastSent (e :: log) n before) (he : ∀ r, e = .sent (dataItem r) → ¬r.Contains n) :
    LastSent log n before := by
  obtain ⟨news, r, heq, hn, hnot⟩ := h
  cases news with
  | nil =>
    obtain ⟨rfl, -⟩ := List.cons.inj heq
    exact absurd hn (he r rfl)
  | cons e' news =>
    obtain ⟨-, rfl⟩ := List.cons.inj heq
    exact ⟨news, r, rfl, hn, fun hem => hnot (hem.cons e')⟩

/-- A block in the range that was just sent was last sent now. -/
lemma LastSent.before_eq {r : RangeInclusive} {log before : Log Hash} {n : ℕ}
    (h : LastSent (.sent (dataItem r) :: log) n before) (hn : r.Contains n) : before = log := by
  obtain ⟨news, r', heq, -, hnot⟩ := h
  cases news with
  | nil => exact (List.cons.inj heq).2.symm
  | cons e' news =>
    obtain ⟨rfl, -⟩ := List.cons.inj heq
    exact absurd ⟨r, List.mem_cons_self, hn⟩ hnot

lemma LastSent.emitted {log before : Log Hash} {n : ℕ} (h : LastSent log n before) :
    Emitted log n := by
  obtain ⟨news, r, rfl, hn, -⟩ := h
  refine ⟨r, ?_, hn⟩
  rw [sentRanges_append]
  exact List.mem_append_right _ List.mem_cons_self

/-- Up to the height `t`, what was last sent still stands. -/
def LastSentStands (log : Log Hash) (t : ℕ) : Prop :=
  ∀ n ≤ t, ∀ before, LastSent log n before → Standing log n before

section LastSentStands

variable {log new : Log Hash} {t : ℕ} {e : Event Hash} {r : RangeInclusive}

lemma lastSentStands_of_sentRanges_eq_nil (h : sentRanges log = []) : LastSentStands log t := by
  intro n _ before hlast
  obtain ⟨r, hr, -⟩ := hlast.emitted
  simp [h] at hr

lemma LastSentStands.cons (h : LastSentStands log t) (he : e.Silent) :
    LastSentStands (e :: log) t := by
  intro n hn before hlast
  refine standing_cons_iff.mpr (Or.inr ⟨h n hn before (hlast.of_cons ?_), ?_⟩)
  · rintro r rfl
    exact absurd he id
  · rintro a rfl
    exact absurd he id

lemma LastSentStands.append (h : LastSentStands log t) (hnew : SilentLog new) :
    LastSentStands (new ++ log) t := by
  induction new with
  | nil => exact h
  | cons e new ih =>
    obtain ⟨he, hnew⟩ := silentLog_cons.mp hnew
    exact (ih hnew).cons he

/-- A range is sent behind the height `t`, with no block sent between. -/
lemma LastSentStands.emit (h : LastSentStands log t)
    (hgap : ∀ n, t < n → n < r.start → ¬Emitted log n) :
    LastSentStands (.sent (dataItem r) :: log) r.stop := by
  intro n hn before hlast
  by_cases hr : r.Contains n
  · exact standing_cons_iff.mpr (Or.inl ⟨r, rfl, hr, hlast.before_eq hr⟩)
  · have hlast' : LastSent log n before := by
      refine hlast.of_cons ?_
      rintro r' heq
      obtain rfl : r = r' := by simpa using heq
      exact hr
    have hlt : n < r.start := by
      by_contra hge
      exact hr ⟨by omega, hn⟩
    have hle : n ≤ t := by
      by_contra hgt
      exact hgap n (by omega) hlt hlast'.emitted
    exact standing_cons_iff.mpr (Or.inr ⟨h n hle before hlast', by simp⟩)

/-- A reorg goes back to the height `a`. -/
lemma LastSentStands.reorg {a : ℕ} (h : LastSentStands log t) (ha : a ≤ t) :
    LastSentStands (.sent (reorgItem a) :: log) a := by
  intro n hn before hlast
  refine standing_cons_iff.mpr (Or.inr ⟨h n (by omega) before (hlast.of_cons (by simp)), ?_⟩)
  intro a' heq
  obtain rfl : a = a' := by simpa using heq
  exact hn

end LastSentStands

namespace LiveConfig

variable (cfg : LiveConfig Hash)

/-! ### Sound rollback points, and what an answer must satisfy -/

/-- While a check that finds its block replaced is going on, the chain up to that block does not
change. -/
def UnchangedDuringCheck : Event Hash → Log Hash → Prop
  | .checked b (some _), past =>
    ∀ k < clock past, clock (past.dropWhile Event.isRequest) ≤ k → ∀ n ≤ b.number,
      (cfg.provider.view k).hashAt n = (cfg.provider.current past).hashAt n
  | _, _ => True

/-- When the main loop finds a reorg back to below the block before the start of the stream, no
range was sent from before the start. -/
def NothingSentBelowStart : Event Hash → Log Hash → Prop
  | .checked _ (some a), past =>
    (checkedHeader past).isSome → a.number + 1 < cfg.streamStart →
      ∀ r ∈ sentRanges past, cfg.streamStart ≤ r.start
  | _, _ => True

instance [DecidableEq Hash] (e : Event Hash) (past : Log Hash) :
    Decidable (cfg.UnchangedDuringCheck e past) :=
  match e with
  | .checked b (some _) =>
    inferInstanceAs (Decidable (∀ k < clock past,
      clock (past.dropWhile Event.isRequest) ≤ k → ∀ n ≤ b.number,
        (cfg.provider.view k).hashAt n = (cfg.provider.current past).hashAt n))
  | .checked _ none | .sent _ | .request _ | .received _ => .isTrue trivial

instance (e : Event Hash) (past : Log Hash) : Decidable (cfg.NothingSentBelowStart e past) :=
  match e with
  | .checked _ (some a) =>
    inferInstanceAs (Decidable ((checkedHeader past).isSome → a.number + 1 < cfg.streamStart →
      ∀ r ∈ sentRanges past, cfg.streamStart ≤ r.start))
  | .checked _ none | .sent _ | .request _ | .received _ => .isTrue trivial

/-- A reported ancestor is below the checked block, it is the canonical block at its height and
lies on the chain of the checked block, and no block up to it has another hash now than when it
was last sent. -/
def SoundRollback : Event Hash → Log Hash → Prop
  | .sent (.ok (.notification (.reorgDetected a))), past =>
    ∀ b ∈ lastChecked past, a < b.number ∧
      (∃ c, (cfg.provider.current past).blockAt a = some c ∧ IsAncestor cfg.provider.view c b) ∧
      ∀ n ≤ a, ∀ before, LastSent past n before →
        (cfg.provider.current past).hashAt n = (cfg.provider.current before).hashAt n
  | _, _ => True

lemma soundRollback_of_silent (e : Event Hash) (past : Log Hash) (h : e.Silent) :
    cfg.SoundRollback e past := by
  match e with
  | .sent (.ok (.data _)) | .sent (.ok (.notification (.reorgDetected _))) => exact absurd h id
  | .sent (.ok (.notification .switchingToLive)) | .sent (.ok (.notification .noPastLogsFound))
  | .sent (.error _) | .request _ | .received _ | .checked _ _ => trivial

/-! ### The invariant -/

/-- The stream resumes at the position `k`: what was last sent up to the remembered block still
stands, and nothing was sent between that block and `k`. -/
def ResumesAfter (log : Log Hash) (tip : Option (Block Hash)) (k : ℕ) : Prop :=
  match tip with
  | none => sentRanges log = []
  | some v => LastSentStands log v.number ∧ ∀ n, v.number < n → n < k → ¬Emitted log n

/-- No range was sent that starts before the block before the start of the stream. -/
def FromStart (s : LiveState Hash (DefaultReorgHandler Hash)) : Prop :=
  ∀ r ∈ sentRanges s.log, cfg.streamStart ≤ r.start + 1

/-- The invariant: what was last sent up to the remembered block still stands. -/
def Restreamed (s : LiveState Hash (DefaultReorgHandler Hash)) : Prop :=
  match s.phase with
  | .starting => sentRanges s.log = []
  | .streaming (.ready iter _) _ => ResumesAfter s.log (lastVouched s.log) iter.current
  | .streaming (.sent _ b) _ => LastSentStands s.log b.number
  | .waiting ⟨_, some b⟩ => LastSentStands s.log b.number
  | .waiting ⟨_, none⟩ | .stopped => True

variable {cfg} {s t : LiveState Hash (DefaultReorgHandler Hash)} {log new : Log Hash}
  {h : DefaultReorgHandler Hash} {n : ℕ}

/-- What is streamed for a header resumes behind the remembered block. -/
lemma restreamed_proceed {batchStart : ℕ} {b : Block Hash} (hb : lastVouched log = some b)
    (hstands : LastSentStands log b.number)
    (hgap : ∀ n, b.number < n → n < batchStart → ¬Emitted log n)
    {state : LiveStreamingState Hash} (hstart : state.batchStart = batchStart)
    (hprev : state.previousBatchEnd = some b ∨ state.previousBatchEnd = none) :
    Restreamed ⟨cfg.proceed n state, h, log⟩ := by
  have hresumes : ResumesAfter log (lastVouched log) batchStart := by
    rw [hb]
    exact ⟨hstands, hgap⟩
  obtain ⟨k, prev⟩ := state
  dsimp only at hstart hprev
  subst hstart
  unfold proceed
  rcases hprev with rfl | rfl
  · split_ifs
    · exact hstands
    · exact hresumes
  · split_ifs
    · trivial
    · exact hresumes

/-- The range at the position where the stream resumes is sent. -/
lemma ResumesAfter.emit {tip : Option (Block Hash)} {r : RangeInclusive}
    (h : ResumesAfter log tip r.start) {e : Event Hash} (he : e.Silent) :
    LastSentStands (.sent (dataItem r) :: e :: log) r.stop := by
  have hranges : sentRanges (e :: log) = sentRanges log :=
    sentRanges_of_silent (silentLog_cons.mpr ⟨he, silentLog_nil⟩) log
  cases tip with
  | none =>
    have hnil : sentRanges (e :: log) = [] := hranges.trans h
    refine LastSentStands.emit (t := 0) (lastSentStands_of_sentRanges_eq_nil hnil) ?_
    rintro n - - ⟨r, hr, -⟩
    simp [hnil] at hr
  | some v =>
    obtain ⟨hstands, hgap⟩ := h
    refine (hstands.cons he).emit ?_
    rintro n hv hlt ⟨r, hr, hn⟩
    rw [hranges] at hr
    exact hgap n hv hlt ⟨r, hr, hn⟩

/-- A block that is checked is the tip of the lineage; what was last sent up to it stands, and the
log ends with an event that is not a provider call. -/
lemma checks_tip {b : Block Hash} (hcut : cfg.Cutting s) (hlin : cfg.Lineage s)
    (hI : Restreamed s) (hchecks : Checks s b log) :
    cfg.LineageAt s.handler log (some b) ∧ LastSentStands log b.number ∧
      log.dropWhile Event.isRequest = log := by
  refine and_assoc.mp ⟨?_, hchecks.dropWhile_eq hcut⟩
  cases hchecks with
  | batch hphase =>
    unfold Lineage at hlin
    unfold Restreamed at hI
    rw [hphase] at hlin hI
    exact ⟨hlin, hI⟩
  | header hphase =>
    unfold Lineage at hlin
    unfold Restreamed at hI
    rw [hphase] at hlin hI
    exact ⟨hlin.2.cons (Event.silent_received _), hI.cons (Event.silent_received _)⟩

variable [DecidableEq Hash]

/-- One step sends no range from before the block before the start. -/
lemma fromStart_step (hst : LiveStep cfg s t) (hcut : cfg.Cutting s) (hI : cfg.FromStart s) :
    cfg.FromStart t := by
  intro r hr
  rcases sentRanges_step hst with heq | ⟨iter, iter', last, resume, batch, hphase, hnext, heq⟩
  · rw [heq] at hr
    exact hI r hr
  · rw [heq] at hr
    rcases List.mem_cons.mp hr with rfl | hr
    · simp only [Cutting, hphase] at hcut
      obtain ⟨hcur, -⟩ := hcut.1.next hnext
      have := hcut.1.start_le_current
      omega
    · exact hI r hr

/-- **One step keeps the invariant.**

**Proof sketch.** By cases on the step. A range is sent from the position where the stream
resumes; up to the remembered block the last ranges still stand, and nothing was sent between. A
reorg withdraws only blocks above the ancestor, from where the stream resumes; where it resumes
later, at the start of the stream or right before it, nothing was sent in between. -/
lemma restreamed_step (hl : Linked cfg.provider.view) (hst : LiveStep cfg s t)
    (hW : Always cfg.StreamsOnVouched t.log) (hF : Always cfg.FinalizedOnCheckedChain t.log)
    (hQ : Always cfg.NothingSentBelowStart t.log) (hcut : cfg.Cutting s) (hlin : cfg.Lineage s)
    (hstart : cfg.FromStart t) (hI : Restreamed s) : Restreamed t := by
  have hlin' := lineage_step hl hst hW hF hcut hlin
  cases hst with
  | @first n h log notice hrel hnotice =>
    have hsilent : SilentLog (notice ++ [.received (.ok n)]) := by
      rcases hnotice with rfl | rfl <;> simp
    have hranges := sentRanges_of_silent hsilent log
    have hvouched : lastVouched (notice ++ .received (.ok n) :: log) = none := by
      rcases hnotice with rfl | rfl <;> simpa using hlin.1
    rw [List.append_assoc, List.singleton_append] at hranges
    unfold Restreamed
    dsimp only
    rw [hvouched]
    exact hranges.trans hI
  | batch hb =>
    cases hb with
    | emit hnext hnum hsees =>
      obtain ⟨hcur, -⟩ := hcut.1.next hnext
      unfold Restreamed at hI ⊢
      dsimp only at hI ⊢
      rw [← hcur] at hI
      rw [hnum]
      exact hI.emit (Event.silent_request _)
    | clean hcheck hreqs =>
      refine ⟨(hI.append (silentLog_of_isRequest hreqs)).cons (Event.silent_checked _ _), ?_⟩
      intro n hn hlt
      have := hcut.2.2.2.1
      omega
    | reorg hcheck hreqs =>
      obtain ⟨hanc, -⟩ := LineageAt.reorg hl hlin hcheck hreqs (hF.2.1 _)
      refine ⟨((hI.append (silentLog_of_isRequest hreqs)).cons (Event.silent_checked _ _)).reorg
        hanc.1, ?_⟩
      rintro n hn hlt ⟨r, hr, hrn⟩
      have hr' := hstart r hr
      have hle := hrn.1
      rw [RangeIterator.resetTo_current] at hlt
      unfold minCommonAncestor at hlt
      omega
  | batchesDone hnext =>
    obtain ⟨hvouched, -⟩ := hlin'
    unfold Restreamed at hI
    dsimp only at hvouched hI
    rw [hvouched] at hI
    exact hI.1
  | @lagged state _ _ _ =>
    obtain ⟨batchStart, _ | b⟩ := state
    · trivial
    · exact LastSentStands.cons hI (Event.silent_received _)
  | ignored => trivial
  | @header n _ b _ _ _ _ _ hh =>
    have hI' := LastSentStands.cons hI (Event.silent_received (.ok n))
    cases hh with
    | clean hcheck hreqs =>
      refine restreamed_proceed rfl ?_ ?_ rfl (Or.inl rfl)
      · exact (hI'.append (silentLog_of_isRequest hreqs)).cons (Event.silent_checked _ _)
      · intro n hn hlt
        dsimp only at hlt
        omega
    | @reorg a _ _ _ _ hcheck hreqs =>
      obtain ⟨hanc, -⟩ := (hlin.2.cons (Event.silent_received _)).reorg hl hcheck hreqs (hF.2.1 _)
      have hstands := ((hI'.append (silentLog_of_isRequest hreqs)).cons
        (Event.silent_checked b (some a))).reorg hanc.1
      unfold afterReorg
      split_ifs with ha
      · refine restreamed_proceed rfl hstands ?_ rfl (Or.inr rfl)
        rintro m hm hlt ⟨r, hr, hrm⟩
        dsimp only at hlt
        have hr' := hstart r hr
        have hle := hrm.1
        have hheader := checkedHeader_append hreqs n
        have hbelow := hQ.2.1 (by rw [hheader]; rfl) (by omega) r hr
        omega
      · refine restreamed_proceed rfl hstands ?_ rfl (Or.inl rfl)
        intro m hm hlt
        dsimp only at hlt
        omega
  | stop hextra => trivial

/-! ### Reported ancestors -/

/-- **A reported ancestor is a sound rollback point.**

**Proof sketch.** The ancestor lies on the chain of the checked block and was canonical at a call
of the check, so it still is, as the chain up to the checked block did not change. The checked
block was not canonical at the first call, hence it is not the ancestor. What was last sent up
to the ancestor still stands, so it lies on the chain of the checked block, and hence on that
of the ancestor. -/
lemma soundRollback_of_check (hl : Linked cfg.provider.view)
    (hfault : ∀ k, cfg.provider.fault k ≠ some .blockNotFound) {b a : Block Hash}
    {h h' : DefaultReorgHandler Hash} {reqs : Log Hash} (hlin : cfg.LineageAt h log (some b))
    (hstands : LastSentStands log b.number) (hlog : log.dropWhile Event.isRequest = log)
    (hcheck : (ReorgHandler.check h b).run log = (some (.ok (some a), h'), reqs ++ log))
    (hreqs : ∀ e ∈ reqs, e.isRequest = true)
    (hF : cfg.FinalizedOnCheckedChain (.checked b (some a)) (reqs ++ log))
    (hX : cfg.UnchangedDuringCheck (.checked b (some a)) (reqs ++ log)) :
    cfg.SoundRollback (.sent (reorgItem a.number)) (.checked b (some a) :: (reqs ++ log)) := by
  obtain ⟨hanc, -, k, hk, hlt, ha⟩ := hlin.reorg hl hcheck hreqs (hF _)
  have hdrop : (reqs ++ log).dropWhile Event.isRequest = log :=
    dropWhile_isRequest_append hreqs hlog
  have hsame : ∀ k, clock log ≤ k → k < clock (reqs ++ log) → ∀ n ≤ b.number,
      (cfg.provider.view k).hashAt n = (cfg.provider.current (reqs ++ log)).hashAt n := by
    intro k hk hlt n hn
    exact hX k hlt (by rw [hdrop]; exact hk) n hn
  have hcurrent : (cfg.provider.current (reqs ++ log)).Canonical a := by
    unfold Chain.Canonical at ha ⊢
    rw [← hsame k hk hlt a.number hanc.1]
    exact ha
  have hbelow : a.number < b.number := by
    by_contra hge
    obtain rfl : a = b := hanc.eq_of_le (by omega)
    obtain ⟨-, hmiss, -⟩ := DefaultReorgHandler.check_eq_ok_some hcheck
    rw [hlin.provider_eq] at hmiss
    rcases hmiss with hnotFound | ⟨-, hnot⟩
    · exact hfault _ hnotFound
    · apply hnot
      unfold Chain.Canonical at hcurrent ⊢
      rw [hsame (clock log) (Nat.le_refl _) (by omega) a.number (Nat.le_refl _)]
      exact hcurrent
  have hclock : cfg.provider.current (.checked b (some a) :: (reqs ++ log)) =
      cfg.provider.current (reqs ++ log) := by
    unfold RobustProvider.current
    rw [clock_checked]
  intro b' hb'
  obtain rfl : b = b' := by simpa [lastChecked] using hb'
  refine ⟨hbelow, ⟨a, ?_, hanc⟩, ?_⟩
  · rw [hclock]
    exact (Chain.blockAt_eq_some_iff _ _ _).mpr ⟨rfl, hcurrent⟩
  · intro n hn before hlast
    rw [hclock]
    have hsilent : SilentLog (.checked b (some a) :: reqs) := by
      simp [silentLog_of_isRequest hreqs]
    have hstands' : LastSentStands (.checked b (some a) :: (reqs ++ log)) b.number :=
      hstands.append hsilent
    have hstanding := hstands' n (by omega) before hlast
    have hbacked : cfg.Backed (some b) (.checked b (some a) :: (reqs ++ log)) :=
      hlin.backed.append hsilent
    obtain ⟨v, hv, hash, hhash, hancn⟩ := hbacked n before hstanding
    obtain rfl : b = v := by simpa using hv
    rw [hhash]
    exact (hancn.of_number_le hl hanc hn).canonical hl hcurrent

variable (cfg) in
/-- The conditions together. -/
def RollbackConditions (e : Event Hash) (past : Log Hash) : Prop :=
  cfg.StreamsOnVouched e past ∧ cfg.FinalizedOnCheckedChain e past ∧
    cfg.UnchangedDuringCheck e past ∧ cfg.NothingSentBelowStart e past

/-- **Reported common ancestors are sound rollback points**, in every run that meets the
conditions. -/
theorem reorgs_soundRollback (hl : Linked cfg.provider.view)
    (hfault : ∀ k, cfg.provider.fault k ≠ some .blockNotFound) (fuel : ℕ)
    (subscription : List SubscriptionItem) (capacity : RingBufferCapacity)
    (notifyAfterFirstBlock : Bool)
    (hC : Always cfg.RollbackConditions ((cfg.streamLiveBlocks fuel subscription
      (DefaultReorgHandler.new cfg.provider capacity) notifyAfterFirstBlock).run []).2) :
    Always cfg.SoundRollback ((cfg.streamLiveBlocks fuel subscription
      (DefaultReorgHandler.new cfg.provider capacity) notifyAfterFirstBlock).run []).2 := by
  obtain ⟨t, ht, hlog⟩ := cfg.streamLiveBlocks_reach fuel subscription
    (DefaultReorgHandler.new cfg.provider capacity) notifyAfterFirstBlock []
  rw [← hlog] at hC ⊢
  have hnothing : cfg.Backed none [] := fun n before hs => absurd hs not_standing_nil
  refine (LoggedSystem.safe
    (I := fun s => cfg.Cutting s ∧ cfg.Lineage s ∧ cfg.FromStart s ∧ Restreamed s)
    (fun s t hst hC hI hφ => ?_) ht
    ⟨trivial, ⟨rfl, rfl, List.Pairwise.nil, by simp [DefaultReorgHandler.new, RingBuffer.new],
      hnothing⟩, by simp [FromStart, sentRanges], rfl⟩ trivial hC).2
  obtain ⟨hW, hC⟩ := always_and.mp hC
  obtain ⟨hF, hC⟩ := always_and.mp hC
  obtain ⟨hX, hQ⟩ := always_and.mp hC
  obtain ⟨hcut, hlin, hstart, hI⟩ := hI
  have hstart' := fromStart_step hst hcut hstart
  refine ⟨⟨cutting_step hst hcut, lineage_step hl hst hW hF hcut hlin, hstart',
    restreamed_step hl hst hW hF hQ hcut hlin hstart' hI⟩, ?_⟩
  refine always_step_of_message cfg.soundRollback_of_silent hst (fun _ _ _ _ _ _ _ => trivial) ?_ hφ
  intro b a h' reqs log hchecks hcheck hreqs hlog
  rw [liveSystem_log, hlog] at hF hX
  obtain ⟨htip, hstands, hdrop⟩ := checks_tip hcut hlin hI hchecks
  exact soundRollback_of_check hl hfault htip hstands hdrop hcheck hreqs hF.2.1 hX.2.1

/-! ### A finalized block of the new fork -/

/-- Blocks `2` and `3` are replaced after the second provider call, on a fork that is final up to
block `finalized` by then. -/
def finalityOvertakes (finalized : ℕ) : RobustProvider ℕ :=
  .healthy (switchAt 2 (.ofHashes 0 [1, 2, 3] 0) (.ofHashes 0 [1, 12, 13, 14, 15] finalized))

/-- The live stream over that chain, from block `1` on. -/
def finalityOvertakesConfig (finalized : ℕ) : LiveConfig ℕ where
  streamStart := 1
  blockConfirmations := 0
  maxBlockRange := defaultMaxBlockRange
  sender := ⟨none⟩
  provider := finalityOvertakes finalized

/-- The log of its run on the headers `3` and `5`. -/
def finalityOvertakesLog (finalized : ℕ) : Log ℕ :=
  (((finalityOvertakesConfig finalized).streamLiveBlocks 5 [.ok 3, .ok 5]
    (DefaultReorgHandler.new (finalityOvertakes finalized) .infinite) false).run []).2

instance (finalized : ℕ) (a b : Block ℕ) :
    Decidable (IsAncestor (finalityOvertakesConfig finalized).provider.view a b) :=
  inferInstanceAs (Decidable (IsAncestor (switchAt 2 _ _) a b))

instance (finalized : ℕ) (e : Event ℕ) (past : Log ℕ) :
    Decidable ((finalityOvertakesConfig finalized).RollbackConditions e past) :=
  inferInstanceAs (Decidable (_ ∧ _ ∧ _ ∧ _))

/-- With block `1` final, which both forks share, the reported ancestor is sound. -/
theorem reorgs_soundRollback_finalityOvertakes :
    Always (finalityOvertakesConfig 1).SoundRollback (finalityOvertakesLog 1) :=
  reorgs_soundRollback (linked_switchAt (by decide)) (by simp [finalityOvertakesConfig,
    finalityOvertakes, RobustProvider.healthy]) 5 [.ok 3, .ok 5] .infinite false (by decide)

/-- With block `3` of the new fork final, the check of block `3` of the old fork reports it as the
common ancestor, though the blocks `2` and `3` were sent and replaced. -/
theorem not_soundRollback_finalityOvertakes :
    FinalityKept (finalityOvertakes 3).view ∧ Linked (finalityOvertakes 3).view ∧
      ¬Always (finalityOvertakesConfig 3).SoundRollback (finalityOvertakesLog 3) := by
  refine ⟨finalityKept_switchAt (by decide), linked_switchAt (by decide), ?_⟩
  intro h
  have hreport : .sent (reorgItem 3) :: (finalityOvertakesLog 3).drop 5 <:+
      finalityOvertakesLog 3 := ⟨(finalityOvertakesLog 3).take 4, rfl⟩
  obtain ⟨hlt, -⟩ := always_iff.mp h _ _ hreport ⟨3, 3⟩ rfl
  exact Nat.lt_irrefl 3 hlt

end LiveConfig

end EventScanner
