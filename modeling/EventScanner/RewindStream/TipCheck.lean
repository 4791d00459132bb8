import EventScanner.BlockRangeScanner.RewindRun
import EventScanner.LiveStream.History

set_option relaxedAutoImplicit false
set_option autoImplicit false

/-!
# The last check of a rewind

Behind each of its ranges the rewind checks its tip. When the check behind the last range finds the
tip replaced, the blocks behind the common ancestor are sent again and a new tip is fetched, but
nothing is checked any more.

## Main definitions

* `EventScanner.TipVerified` — since the last range and the last reorg a check has found the tip.
* `EventScanner.TipSeenAtEnd` — the condition on the check behind the last range.

## Main results

* `EventScanner.tipVerified_iff` — exactly the rewinds that meet the condition end with a verified
  tip.
* `EventScanner.not_tipVerified_lastRange` — a rewind that ends without.
-/

namespace EventScanner

open HashChain EventLog

variable {Hash : Type}

/-- Behind the last range that was sent, and behind the last reorg that was reported, a check has
found the tip of the given height on the chain. The tip only changes behind a reported reorg, so it
is the current one. -/
def TipVerified (high : ℕ) : Log Hash → Prop :=
  Since (fun e _ => e.Silent) fun e _ => ∃ b, b.number = high ∧ e = .checked b none

/-- When the tip is checked behind the range that starts at `low`, the first call of the check finds
it on the chain. -/
def TipSeenAtEnd (provider : RobustProvider Hash) (low : ℕ) : Event Hash → Log Hash → Prop
  | .checked b _, past => ∀ r ∈ (sentRanges past).head?, r.start = low →
    DefaultReorgHandler.Sees provider (clock (past.dropWhile Event.isRequest)) b
  | _, _ => True

section TipVerified

variable {high : ℕ} {log : Log Hash}

/-- Behind a range or a reorg the tip is not verified. -/
lemma not_tipVerified_of_not_silent {e : Event Hash} (he : ¬e.Silent) :
    ¬TipVerified high (e :: log) := by
  rintro (⟨b, -, rfl⟩ | ⟨hsilent, -⟩)
  · exact he trivial
  · exact he hsilent

/-- A provider call does not verify the tip. -/
lemma not_tipVerified_request (h : ¬TipVerified high log) (r : Request Hash) :
    ¬TipVerified high (.request r :: log) := by
  rintro (⟨b, -, heq⟩ | ⟨-, hv⟩)
  · cases heq
  · exact h hv

end TipVerified

/-- The condition on a check behind a range. -/
lemma tipSeenAtEnd_checked {provider : RobustProvider Hash} {low : ℕ} {b : Block Hash}
    {a : Option (Block Hash)} {reqs past : Log Hash} {r : RangeInclusive}
    (hreqs : ∀ e ∈ reqs, e.isRequest = true) :
    TipSeenAtEnd provider low (.checked b a) (reqs ++ .sent (dataItem r) :: past) ↔
      (r.start = low → DefaultReorgHandler.Sees provider (clock past) b) := by
  have hdrop : (reqs ++ .sent (dataItem r) :: past).dropWhile Event.isRequest =
      .sent (dataItem r) :: past := dropWhile_isRequest_append hreqs rfl
  change (∀ r' ∈ (sentRanges (reqs ++ .sent (dataItem r) :: past)).head?, r'.start = low →
    DefaultReorgHandler.Sees provider (clock ((reqs ++ .sent (dataItem r) :: past).dropWhile
      Event.isRequest)) b) ↔ _
  rw [sentRanges_of_silent (silentLog_of_isRequest hreqs), hdrop, clock_sent]
  simp [sentRanges]

section Steps

variable [DecidableEq Hash] {provider : RobustProvider Hash} {maxBlockRange : MaxBlockRange}
  {high low : ℕ} {start : Log Hash} {s t : RewindState Hash (DefaultReorgHandler Hash)}

/-- The condition, for the part of a log behind `start`. -/
abbrev SeenAtEnd (provider : RobustProvider Hash) (low : ℕ) (start : Log Hash) : Log Hash → Prop :=
  AlwaysSince start (TipSeenAtEnd provider low)

omit [DecidableEq Hash] in
/-- Behind a reorg the tip stays unverified, and a condition that was broken stays broken. -/
lemma unverified_cons {reached : ℕ} {e : Event Hash} {log : Log Hash}
    (hbegun : start <:+ log) (he : TipSeenAtEnd provider low e log)
    (hnot : ¬TipVerified high log → ¬TipVerified high (e :: log))
    (h : (low < reached → SeenAtEnd provider low start log) ∧
      (reached ≤ low → ¬TipVerified high log ∧ ¬SeenAtEnd provider low start log)) :
    (low < reached → SeenAtEnd provider low start (e :: log)) ∧
      (reached ≤ low → ¬TipVerified high (e :: log) ∧
        ¬SeenAtEnd provider low start (e :: log)) := by
  refine ⟨fun hlt => (alwaysSince_cons hbegun).mpr ⟨he, h.1 hlt⟩, fun hle => ⟨?_, fun hC => ?_⟩⟩
  · exact hnot (h.2 hle).1
  · exact (h.2 hle).2 ((alwaysSince_cons hbegun).mp hC).2

/-- Where the rewind stands, what is known of the condition and of the tip: as long as ranges are
left, the condition was met; behind the last range, the tip is verified if and only if it was, and
while the blocks behind a reorg are sent again, neither is the case. -/
def RewindState.Checked (provider : RobustProvider Hash) (high low : ℕ) (start : Log Hash)
    (s : RewindState Hash (DefaultReorgHandler Hash)) : Prop :=
  match s.phase with
  | .rewinding reached _ =>
    s.handler.provider = provider ∧ start <:+ s.log ∧
      (low < reached → SeenAtEnd provider low start s.log) ∧
      (reached ≤ low → (TipVerified high s.log ↔ SeenAtEnd provider low start s.log))
  | .checking reached _ =>
    s.handler.provider = provider ∧ start <:+ s.log ∧ SeenAtEnd provider low start s.log ∧
      low ≤ reached ∧ ∃ r past, s.log = .sent (dataItem r) :: past ∧ r.start = reached
  | .refetching _ reached _ | .rescanning _ _ _ reached _ =>
    s.handler.provider = provider ∧ start <:+ s.log ∧
      (low < reached → SeenAtEnd provider low start s.log) ∧
      (reached ≤ low → ¬TipVerified high s.log ∧ ¬SeenAtEnd provider low start s.log)
  | .stopped => True

/-- **Every step of a rewind that checks its tip keeps the invariant.** -/
lemma RewindStep.checked (hst : RewindStep maxBlockRange true s t)
    (hcut : s.Cutting maxBlockRange high low) (hI : s.Checked provider high low start) :
    t.Checked provider high low start := by
  cases hst with
  | send =>
    obtain ⟨hprov, hbegun, hC, -⟩ := hI
    obtain ⟨-, -, hlow, -⟩ := hcut.2.next
    have hC' := hC (hcut.2.lt (List.cons_ne_nil _ _))
    exact ⟨hprov, hbegun.trans (List.suffix_cons _ _), (alwaysSince_cons hbegun).mpr ⟨trivial, hC'⟩,
      hlow, _, _, rfl, rfl⟩
  | skip hcheck => cases hcheck
  | clean _ hcheck hreqs =>
    obtain ⟨hprov, hbegun, hC, -, r, past, hlog, -⟩ := hI
    dsimp only at hlog hprov hbegun hC
    subst hlog
    obtain ⟨hbegun', hC'⟩ := alwaysSince_requests (fun _ _ => trivial) hreqs hbegun hC
    obtain ⟨-, hsees, -⟩ := DefaultReorgHandler.check_eq_ok_none hcheck
    rw [hprov, clock_sent] at hsees
    have hC'' := (alwaysSince_cons (e := .checked _ none) hbegun').mpr
      ⟨(tipSeenAtEnd_checked hreqs).mpr fun _ => hsees, hC'⟩
    exact ⟨(DefaultReorgHandler.check_provider hcheck).trans hprov,
      hbegun'.trans (List.suffix_cons _ _), fun _ => hC'',
      fun _ => iff_of_true (Or.inl ⟨_, hcut.1, rfl⟩) hC''⟩
  | @reorg reached ranges tip a h h' log reqs _ hcheck hreqs =>
    obtain ⟨hprov, hbegun, hC, hlow, r, past, hlog, hr⟩ := hI
    dsimp only at hlog hprov hbegun hC
    subst hlog
    obtain ⟨hbegun', hC'⟩ := alwaysSince_requests (fun _ _ => trivial) hreqs hbegun hC
    obtain ⟨-, hmiss, -⟩ := DefaultReorgHandler.check_eq_ok_some hcheck
    rw [hprov, clock_sent] at hmiss
    have hbegun'' := hbegun'.trans (List.suffix_cons (.checked tip (some a)) _)
    refine ⟨(DefaultReorgHandler.check_provider hcheck).trans hprov,
      hbegun''.trans (List.suffix_cons _ _), fun hlt => ?_, fun hle => ⟨?_, fun hC'' => ?_⟩⟩
    · refine (alwaysSince_cons hbegun'').mpr ⟨trivial, (alwaysSince_cons hbegun').mpr ⟨?_, hC'⟩⟩
      exact (tipSeenAtEnd_checked hreqs).mpr fun hend => absurd hend (by omega)
    · exact not_tipVerified_of_not_silent id
    · have hφ := ((alwaysSince_cons hbegun').mp ((alwaysSince_cons hbegun'').mp hC'').2).1
      exact hmiss.not_sees ((tipSeenAtEnd_checked hreqs).mp hφ (by omega))
  | refetch =>
    obtain ⟨hprov, hbegun, hnot⟩ := hI
    exact ⟨hprov, hbegun.trans (List.suffix_cons _ _),
      unverified_cons hbegun trivial (fun h => not_tipVerified_request h _) hnot⟩
  | rescan =>
    obtain ⟨hprov, hbegun, hnot⟩ := hI
    exact ⟨hprov, hbegun.trans (List.suffix_cons _ _),
      unverified_cons hbegun trivial (fun _ => not_tipVerified_of_not_silent id) hnot⟩
  | rescanned =>
    obtain ⟨hprov, hbegun, hC, hnot⟩ := hI
    exact ⟨hprov, hbegun, hC, fun hle => iff_of_false (hnot hle).1 (hnot hle).2⟩
  | stop => trivial

omit [DecidableEq Hash] in
/-- At the start nothing was checked, and there are ranges left. -/
lemma RewindState.checked_start {tip toBlock : Block Hash} {h : DefaultReorgHandler Hash}
    (hprov : h.provider = provider) (hle : toBlock.number ≤ tip.number) (high : ℕ)
    (log : Log Hash) :
    RewindState.Checked provider high toBlock.number log
      (RewindState.start tip toBlock maxBlockRange h
        (.request (.blockNumberById (.number .finalized)) :: log)) := by
  have hbegun := List.suffix_refl log
  have hstart : SeenAtEnd provider toBlock.number log log := alwaysSince_refl log
  refine ⟨hprov, hbegun.trans (List.suffix_cons _ _),
    fun _ => (alwaysSince_cons hbegun).mpr ⟨trivial, hstart⟩, fun hdone => ?_⟩
  omega

/-- Every run that checks its tip keeps the invariant.

**Proof sketch.** Induction on the run, together with the cut of the ranges left. -/
lemma rewindSystem_checked (hreach : (rewindSystem maxBlockRange true).Reach s t)
    (hcut : s.Cutting maxBlockRange high low) (hI : s.Checked provider high low start) :
    t.Cutting maxBlockRange high low ∧ t.Checked provider high low start := by
  induction hreach with
  | refl => exact ⟨hcut, hI⟩
  | tail _ hst ih => exact ⟨RewindStep.cutting hst ih.1, RewindStep.checked hst ih.1 ih.2⟩

end Steps

section Run

variable [DecidableEq Hash] {provider : RobustProvider Hash} {maxBlockRange : MaxBlockRange}
  {tip toBlock : Block Hash} {h : DefaultReorgHandler Hash} {sender : Sender} {log log' : Log Hash}

omit [DecidableEq Hash] in
/-- A tip above the finalized height, or above block `0` while no block is final, is above the
height that the rewind compares it with, even when the call for that height fails. -/
lemma finalizedBlockNum_lt {k high : ℕ} (hhigh : (provider.view k).finalized.getD 0 < high) :
    (provider.answer k fun chain =>
      (provider.findId k (.number .finalized) chain).map Block.number).toOption.getD 0 < high := by
  unfold RobustProvider.answer
  cases provider.fault k with
  | some e => exact Nat.zero_lt_of_lt hhigh
  | none =>
    dsimp only
    cases hfind : (provider.findId k (.number .finalized) (provider.view k)).map Block.number with
    | none => exact Nat.zero_lt_of_lt hhigh
    | some n =>
      obtain ⟨b, hb, hnum⟩ := Option.map_eq_some_iff.mp hfind
      obtain ⟨f, hf, hb⟩ := Option.bind_eq_some_iff.mp hb
      obtain ⟨rfl, -⟩ := ((provider.view k).blockAt_eq_some_iff f b).mp hb
      rw [hf] at hhigh
      exact hnum ▸ hhigh

/-- **A finished rewind has a verified tip exactly if the check behind its last range finds the
tip.** The rewind goes from the block `tip`, above the finalized height, down to `toBlock`, and was
not cut short. -/
theorem tipVerified_iff (hle : toBlock.number ≤ tip.number)
    (hhigh : (provider.view (clock log)).finalized.getD 0 < tip.number)
    (hprov : h.provider = provider)
    (hrun : (handleStreamRewind tip toBlock maxBlockRange sender provider h).run log =
      (some (), log'))
    (hfull : ¬CutShort sender log') :
    TipVerified tip.number log' ↔
      AlwaysSince log (TipSeenAtEnd provider toBlock.number) log' := by
  have hcheck : decide (tip.number > (provider.answer (clock log) fun chain =>
      (provider.findId (clock log) (.number .finalized) chain).map
        Block.number).toOption.getD 0) = true := decide_eq_true (finalizedBlockNum_lt hhigh)
  obtain ⟨t, hreach, hlog, hend⟩ := rewindRanges_reach maxBlockRange true sender provider
    (tip.number + 1) (RangeIterator.reverse tip.number toBlock.number maxBlockRange).ranges tip h
    (.request (.blockNumberById (.number .finalized)) :: log)
  have hlog' : t.log = log' := by
    unfold handleStreamRewind getBlockNumberById at hrun
    rw [Proc.run_bind_some (run_call ..)] at hrun
    dsimp only at hrun
    rw [hcheck] at hrun
    rw [hlog, hrun]
  rw [← hlog, hlog'] at hend
  obtain ⟨hcut, hI⟩ := rewindSystem_checked hreach (RewindState.cutting_start tip toBlock h _)
    (RewindState.checked_start hprov hle tip.number log)
  obtain ⟨reached, hphase⟩ : ∃ reached, t.phase = .rewinding reached [] := by
    rcases hend with hdone | hclosed | herror
    · exact hdone
    · exact absurd (Or.inr hclosed) hfull
    · exact absurd (Or.inl herror) hfull
  unfold RewindState.Cutting at hcut
  unfold RewindState.Checked at hI
  rw [hphase] at hcut hI
  rw [← hlog']
  exact hI.2.2.2 hcut.2.le

end Run

/-! ### A reorg behind the last range -/

/-- The blocks `1` and `2` are replaced after the second provider call. -/
def replacedDuringRewind : RobustProvider ℕ :=
  .healthy (switchAt 1 (.ofHashes 0 [1, 2] 0) (.ofHashes 0 [11, 12] 0))

/-- The log of a rewind from block `2` to block `1`. -/
def replacedDuringRewindLog (maxBlockRange : MaxBlockRange) : Log ℕ :=
  ((handleStreamRewind ⟨2, 2⟩ ⟨1, 1⟩ maxBlockRange ⟨none⟩ replacedDuringRewind
    (DefaultReorgHandler.new replacedDuringRewind .infinite)).run []).2

/-- In ranges of one block the reorg is found behind the first range, and the check behind the last
one finds the new tip. -/
theorem tipVerified_iff_firstRange :
    TipVerified 2 (replacedDuringRewindLog ⟨1, by decide⟩) ↔
      AlwaysSince [] (TipSeenAtEnd replacedDuringRewind 1)
        (replacedDuringRewindLog ⟨1, by decide⟩) := by
  have hmessages : messages (replacedDuringRewindLog ⟨1, by decide⟩) =
      [dataItem ⟨2, 2⟩, reorgItem 0, dataItem ⟨1, 1⟩, dataItem ⟨2, 2⟩, dataItem ⟨1, 1⟩] := rfl
  have hfull : ¬CutShort ⟨none⟩ (replacedDuringRewindLog ⟨1, by decide⟩) := by
    rintro (⟨e, he⟩ | hclosed)
    · have hmem := mem_messages.mpr he
      rw [hmessages] at hmem
      simp at hmem
    · cases hclosed
  have hrun : (handleStreamRewind ⟨2, 2⟩ ⟨1, 1⟩ ⟨1, by decide⟩ ⟨none⟩ replacedDuringRewind
      (DefaultReorgHandler.new replacedDuringRewind .infinite)).run [] =
        (some (), replacedDuringRewindLog ⟨1, by decide⟩) := rfl
  have hprov : (DefaultReorgHandler.new replacedDuringRewind .infinite).provider =
      replacedDuringRewind := rfl
  refine tipVerified_iff ?_ ?_ hprov hrun hfull
  · exact Nat.le_succ 1
  · exact Nat.succ_pos 1

/-- In a single range the reorg is found behind the last one, and the blocks that are sent again
are not checked any more. -/
theorem not_tipVerified_lastRange :
    FinalityKept replacedDuringRewind.view ∧
      (handleStreamRewind ⟨2, 2⟩ ⟨1, 1⟩ defaultMaxBlockRange ⟨none⟩ replacedDuringRewind
        (DefaultReorgHandler.new replacedDuringRewind .infinite)).run [] =
          (some (), replacedDuringRewindLog defaultMaxBlockRange) ∧
      messages (replacedDuringRewindLog defaultMaxBlockRange) =
        [dataItem ⟨1, 2⟩, reorgItem 0, dataItem ⟨1, 2⟩] ∧
      ¬TipVerified 2 (replacedDuringRewindLog defaultMaxBlockRange) := by
  refine ⟨finalityKept_switchAt (by decide), rfl, rfl, ?_⟩
  exact not_tipVerified_of_not_silent (e := .sent (dataItem ⟨1, 2⟩)) id

end EventScanner
