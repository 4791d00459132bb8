import EventScanner.BlockRangeScanner.RewindRun
import EventScanner.BlockRangeScanner.Scanner

set_option relaxedAutoImplicit false
set_option autoImplicit false

/-!
# The bounds of the rewind stream

The rewind cuts the requested range, and behind a reorg it sends everything above the reported
ancestor up to the tip again. The reorg handler has only been shown tips: when none of them is on
the chain any more, its answer is the finalized block. Nobody compares that block with the lower
end of the range, so the rewind leaves the range when it lies further down than the block before.

## Main definitions

* `EventScanner.WithinRange` — a range that is sent lies in the requested range.
* `EventScanner.FallbackReachesRange` — the condition on the finalized block.

## Main results

* `EventScanner.BlockRangeScanner.streamRewind_withinRange` — every range lies in the requested
  one, in every run that meets the condition.
* `EventScanner.BlockRangeScanner.not_withinRange_deepReorg` — a run that leaves it.
-/

namespace EventScanner

open HashChain EventLog

variable {Hash : Type}

/-- A range that is sent is a nonempty part of `low..=high`. -/
def WithinRange (low high : ℕ) : Event Hash → Log Hash → Prop
  | .sent (.ok (.data r)), _ => low ≤ r.start ∧ r.start ≤ r.stop ∧ r.stop ≤ high
  | _, _ => True

/-- Whenever a reorg check answers with the finalized block, that is the block before `low`, or a
later one. -/
def FallbackReachesRange (provider : RobustProvider Hash) (low : ℕ) : Event Hash → Log Hash → Prop
  | .checked _ (some a), past =>
    (provider.current past).finalizedBlock = some a → low ≤ a.number + 1
  | _, _ => True

instance (low high : ℕ) (e : Event Hash) (past : Log Hash) :
    Decidable (WithinRange low high e past) :=
  match e with
  | .sent (.ok (.data r)) =>
    inferInstanceAs (Decidable (low ≤ r.start ∧ r.start ≤ r.stop ∧ r.stop ≤ high))
  | .sent (.ok (.notification _)) | .sent (.error _) | .request _ | .received _
  | .checked _ _ => .isTrue trivial

instance [DecidableEq Hash] (provider : RobustProvider Hash) (low : ℕ) (e : Event Hash)
    (past : Log Hash) : Decidable (FallbackReachesRange provider low e past) :=
  match e with
  | .checked _ (some a) => inferInstanceAs
      (Decidable ((provider.current past).finalizedBlock = some a → low ≤ a.number + 1))
  | .checked _ none | .sent _ | .request _ | .received _ => .isTrue trivial

/-- Only ranges can leave the requested range. -/
lemma withinRange_of_silent {low high : ℕ} (e : Event Hash) (past : Log Hash) (h : e.Silent) :
    WithinRange low high e past := by
  match e with
  | .sent (.ok (.data _)) => exact absurd h id
  | .sent (.ok (.notification _)) | .sent (.error _) | .request _ | .received _
  | .checked _ _ => trivial

/-- All ranges are nonempty parts of `low..=high`. -/
def AllWithin (low high : ℕ) (ranges : List RangeInclusive) : Prop :=
  ∀ r ∈ ranges, low ≤ r.start ∧ r.start ≤ r.stop ∧ r.stop ≤ high

/-- The reorg handler has been shown blocks of the height `high` only. -/
structure OnlyTips (provider : RobustProvider Hash) (high : ℕ) (h : DefaultReorgHandler Hash) :
    Prop where
  /-- It asks the node of the stream. -/
  provider_eq : h.provider = provider
  /-- The buffered blocks are former tips. -/
  buffered : ∀ c ∈ h.buffer.inner, c.number = high

section Check

variable [DecidableEq Hash] {provider : RobustProvider Hash} {low high : ℕ} {tip : Block Hash}
  {h h' : DefaultReorgHandler Hash} {log reqs : Log Hash}

/-- A check that the tip passes shows the handler a tip. -/
lemma OnlyTips.clean (htips : OnlyTips provider high h) (htip : tip.number = high)
    (hcheck : (ReorgHandler.check h tip).run log = (some (.ok none, h'), reqs ++ log)) :
    OnlyTips provider high h' := by
  obtain ⟨rfl, -⟩ := DefaultReorgHandler.check_eq_ok_none hcheck
  refine ⟨by rw [DefaultReorgHandler.remember_provider, htips.provider_eq], fun c hc => ?_⟩
  rcases DefaultReorgHandler.mem_of_mem_remember hc with rfl | hc
  · exact htip
  · exact htips.buffered c hc

/-- A check that finds the tip replaced answers with a former tip or with the finalized block. -/
lemma OnlyTips.reorg {a : Block Hash} (htips : OnlyTips provider high h)
    (hcheck : (ReorgHandler.check h tip).run log = (some (.ok (some a), h'), reqs ++ log))
    (hC : FallbackReachesRange provider low (.checked tip (some a)) (reqs ++ log))
    (hle : low ≤ high) : OnlyTips provider high h' ∧ low ≤ a.number + 1 := by
  obtain ⟨hprovider, -, hsearch⟩ := DefaultReorgHandler.check_eq_ok_some hcheck
  obtain ⟨-, f, hf, ⟨older, hkept, hsuffix, -⟩ | ⟨rfl, hkept⟩⟩ := hsearch.answer
  · have ha : a.number = high := htips.buffered a (hsuffix.subset (by simp [hkept]))
    exact ⟨⟨hprovider.trans htips.provider_eq, fun c hc => htips.buffered c (hsuffix.subset hc)⟩,
      by omega⟩
  · rw [htips.provider_eq] at hf
    exact ⟨⟨hprovider.trans htips.provider_eq, by simp [hkept]⟩, hC hf.finalizedBlock_eq⟩

end Check

namespace RewindState

/-- The invariant of the rewind: the tip is the upper end of the requested range, the handler has
only seen tips, and what is left to send lies in the range. -/
def Within (provider : RobustProvider Hash) (low high : ℕ)
    (s : RewindState Hash (DefaultReorgHandler Hash)) : Prop :=
  match s.phase with
  | .rewinding _ ranges | .checking _ ranges =>
    s.tip.number = high ∧ OnlyTips provider high s.handler ∧ AllWithin low high ranges
  | .refetching a _ ranges =>
    s.tip.number = high ∧ OnlyTips provider high s.handler ∧ low ≤ a + 1 ∧
      AllWithin low high ranges
  | .rescanning _ _ rescan _ ranges =>
    s.tip.number = high ∧ OnlyTips provider high s.handler ∧ AllWithin low high rescan ∧
      AllWithin low high ranges
  | .stopped => True

variable [DecidableEq Hash]

/-- **One step keeps the rewind in the requested range.** -/
lemma Within.step {provider : RobustProvider Hash} {maxBlockRange : MaxBlockRange}
    {checkReorg : Bool} {low high : ℕ} {s t : RewindState Hash (DefaultReorgHandler Hash)}
    (hst : RewindStep maxBlockRange checkReorg s t) (hle : low ≤ high)
    (hC : Always (FallbackReachesRange provider low) t.log) (hI : Within provider low high s)
    (hlog : Always (WithinRange low high) s.log) :
    Within provider low high t ∧ Always (WithinRange low high) t.log := by
  have hquiet {reqs log : Log Hash} (hreqs : ∀ e ∈ reqs, e.isRequest = true)
      (h : Always (WithinRange low high) log) : Always (WithinRange low high) (reqs ++ log) :=
    always_append (fun e he past =>
      withinRange_of_silent e past (Event.silent_of_isRequest (hreqs e he))) h
  cases hst with
  | send =>
    obtain ⟨htip, htips, hall⟩ := hI
    exact ⟨⟨htip, htips, fun r hr => hall r (List.mem_cons_of_mem _ hr)⟩,
      hall _ List.mem_cons_self, hlog⟩
  | skip => exact ⟨hI, hlog⟩
  | clean _ hcheck hreqs =>
    obtain ⟨htip, htips, hall⟩ := hI
    exact ⟨⟨htip, htips.clean htip hcheck, hall⟩, trivial, hquiet hreqs hlog⟩
  | reorg _ hcheck hreqs =>
    obtain ⟨htip, htips, hall⟩ := hI
    obtain ⟨htips', ha⟩ := htips.reorg hcheck hC.2.1 hle
    exact ⟨⟨htip, htips', ha, hall⟩, trivial, trivial, hquiet hreqs hlog⟩
  | @refetch a reached ranges tip newTip h log hnum =>
    obtain ⟨htip, htips, ha, hall⟩ := hI
    have hrescan : AllWithin low high
        (RangeIterator.forward (a + 1) tip.number maxBlockRange).ranges := by
      intro r hr
      have hbounds := (RangeIterator.ranges_forward (a + 1) tip.number maxBlockRange).bounds hr
      simp only at htip
      omega
    exact ⟨⟨hnum.trans htip, htips, hrescan, hall⟩, trivial, hlog⟩
  | rescan =>
    obtain ⟨htip, htips, hrescan, hall⟩ := hI
    exact ⟨⟨htip, htips, fun r hr => hrescan r (List.mem_cons_of_mem _ hr), hall⟩,
      hrescan _ List.mem_cons_self, hlog⟩
  | rescanned => exact ⟨⟨hI.1, hI.2.1, hI.2.2.2⟩, hlog⟩
  | stop hextra =>
    exact ⟨trivial,
      always_append (fun e he past => withinRange_of_silent e past (hextra e he)) hlog⟩

end RewindState

/-- The rewind between two blocks stays between them, or above a lower bound of its own. -/
lemma handleStreamRewind_withinRange [DecidableEq Hash] {tip toBlock : Block Hash} {low : ℕ}
    (hle : toBlock.number ≤ tip.number) (hlow : low ≤ toBlock.number)
    (maxBlockRange : MaxBlockRange) (capacity : RingBufferCapacity) (sender : Sender)
    (provider : RobustProvider Hash)
    {before : Log Hash} (hbefore : Always (WithinRange low tip.number) before)
    (hC : Always (FallbackReachesRange provider low)
      ((handleStreamRewind tip toBlock maxBlockRange sender provider
        (DefaultReorgHandler.new provider capacity)).run before).2) :
    Always (WithinRange low tip.number)
      ((handleStreamRewind tip toBlock maxBlockRange sender provider
        (DefaultReorgHandler.new provider capacity)).run before).2 := by
  obtain ⟨checkReorg, t, ht, hlog, -⟩ := handleStreamRewind_reach maxBlockRange sender tip
    toBlock provider (DefaultReorgHandler.new provider capacity) before
  have hstart : RewindState.Within provider low tip.number
      (RewindState.start tip toBlock maxBlockRange (DefaultReorgHandler.new provider capacity)
        (.request (.blockNumberById (.number .finalized)) :: before)) := by
    refine ⟨rfl, ⟨rfl, fun c hc => absurd hc List.not_mem_nil⟩, fun r hr => ?_⟩
    have hbounds :=
      (RangeIterator.ranges_reverse tip.number toBlock.number maxBlockRange).bounds hr
    omega
  rw [← hlog] at hC ⊢
  have hstep (s t : RewindState Hash (DefaultReorgHandler Hash))
      (hst : RewindStep maxBlockRange checkReorg s t)
      (hC : Always (FallbackReachesRange provider low) t.log)
      (hI : s.Within provider low tip.number)
      (hφ : Always (WithinRange low tip.number) s.log) :
      t.Within provider low tip.number ∧
        Always (WithinRange low tip.number) t.log :=
    hI.step hst (hlow.trans hle) hC hφ
  exact (LoggedSystem.safe (S := rewindSystem maxBlockRange checkReorg) hstep ht hstart
    ⟨trivial, hbefore⟩ hC).2

namespace BlockRangeScanner

variable [DecidableEq Hash] (self : BlockRangeScanner Hash)

/-- **The rewind stays in the requested range**, given by two blocks in either order, in every run
in which the reorg checks do not fall back to a block below the one before the range. -/
theorem streamRewind_withinRange (sender : Sender) (startId endId : BlockId Hash) {a b : Block Hash}
    (ha : self.provider.answer 0 (self.provider.findId 0 startId) = .ok a)
    (hb : self.provider.answer 1 (self.provider.findId 1 endId) = .ok b)
    (hC : Always (FallbackReachesRange self.provider (min a.number b.number))
      ((self.streamRewind sender startId endId).run []).2) :
    Always (WithinRange (min a.number b.number) (max a.number b.number))
      ((self.streamRewind sender startId endId).run []).2 := by
  have hbefore (low high : ℕ) : Always (WithinRange low high)
      [.request (.block endId), .request (.block startId)] := ⟨trivial, trivial, trivial⟩
  obtain ⟨tip, toBlock, htip, hto, hrun⟩ := RewindHandler.exists_run_eq
    (RewindHandler.new self.provider self.maxBlockRange startId endId
      self.pastBlocksStorageCapacity sender) [] ha hb
  unfold streamRewind at hC ⊢
  rw [hrun, Proc.snd_run_bind_pure, ← hto] at hC
  rw [hrun, Proc.snd_run_bind_pure, ← hto, ← htip]
  have horder : toBlock.number ≤ tip.number := by omega
  exact handleStreamRewind_withinRange horder (Nat.le_refl _) _ _ sender self.provider
    (hbefore _ _) hC

/-! ### A reorg to below the range -/

/-- Blocks `2` and `3` are replaced before the fourth provider call; block `low` is final. -/
def rewound (low : ℕ) : BlockRangeScanner ℕ where
  provider := .healthy (switchAt 3 (.ofHashes 0 [1, 2, 3] low) (.ofHashes 0 [1, 12, 13] low))
  maxBlockRange := defaultMaxBlockRange
  pastBlocksStorageCapacity := .infinite

/-- The log of a rewind from block `3` to block `2`. -/
def rewoundLog (low : ℕ) : Log ℕ :=
  (((rewound low).streamRewind ⟨none⟩ (.number (.number 2)) (.number (.number 3))).run []).2

/-- Block `1` is final: the blocks `2` and `3` are sent again. -/
theorem streamRewind_withinRange_shallowReorg :
    .sent (reorgItem 1) ∈ rewoundLog 1 ∧ Always (WithinRange 2 3) (rewoundLog 1) :=
  ⟨by decide, (rewound 1).streamRewind_withinRange ⟨none⟩ (.number (.number 2))
    (.number (.number 3)) (a := ⟨2, 2⟩) (b := ⟨3, 3⟩) rfl rfl (by decide)⟩

/-- Block `0` is final: the block `1`, which nobody asked for, is sent with them. -/
theorem not_withinRange_deepReorg :
    FinalityKept (rewound 0).provider.view ∧ ¬Always (WithinRange 2 3) (rewoundLog 0) :=
  ⟨finalityKept_switchAt (by decide), by decide⟩

end BlockRangeScanner

end EventScanner
