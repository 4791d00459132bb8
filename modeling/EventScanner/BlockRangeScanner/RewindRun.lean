import EventScanner.BlockRangeScanner.BatchRun
import EventScanner.BlockRangeScanner.RewindHandler

set_option relaxedAutoImplicit false
set_option autoImplicit false

/-!
# The rewind as a transition system

What the rewind stream can do in one step, and that every run of `handle_stream_rewind` is a run
of these steps. Its phases say which ranges are left: those of the rewind itself, and those of a
rescan that is under way.

## Main definitions

* `EventScanner.RewindPhase`, `EventScanner.RewindState` — where the rewind stands.
* `EventScanner.RewindStep`, `EventScanner.rewindSystem` — its steps.
* `EventScanner.RangesLeft`, `EventScanner.RewindState.Cutting` — the ranges left are the cut of
  the blocks left.

## Main results

* `EventScanner.rewindRanges_reach`, `EventScanner.handleStreamRewind_reach` — runs of the rewind
  are runs of the steps.
* `EventScanner.RewindStep.cutting` — every step keeps the cut.
-/

namespace EventScanner

open HashChain

variable {Hash R : Type}

/-- Where the rewind stands. It has sent everything from the block `reached` up to the tip, and
`ranges` are the ranges of the rewind still to be sent. -/
inductive RewindPhase
  /-- At the top of the loop. -/
  | rewinding (reached : ℕ) (ranges : List RangeInclusive)
  /-- A range has been sent; the tip is still to be checked. -/
  | checking (reached : ℕ) (ranges : List RangeInclusive)
  /-- A reorg has been reported; the new tip is still to be fetched. -/
  | refetching (ancestor reached : ℕ) (ranges : List RangeInclusive)
  /-- The blocks behind the ancestor are sent again, from `next` on; `rescan` are the ranges of
  this rescan still to be sent. -/
  | rescanning (ancestor next : ℕ) (rescan : List RangeInclusive) (reached : ℕ)
    (ranges : List RangeInclusive)
  /-- The stream has ended early. -/
  | stopped

/-- The state of the rewind. -/
structure RewindState (Hash R : Type) where
  /-- Where the rewind stands. -/
  phase : RewindPhase
  /-- The block whose replacement is a reorg. -/
  tip : Block Hash
  /-- The reorg handler. -/
  handler : R
  /-- The events so far. -/
  log : Log Hash

section Steps

variable [ReorgHandler Hash R]

/-- A step of the rewind. -/
inductive RewindStep (maxBlockRange : MaxBlockRange) (checkReorg : Bool) :
    RewindState Hash R → RewindState Hash R → Prop
  /-- The next range is sent. -/
  | send {range : RangeInclusive} {reached : ℕ} {ranges : List RangeInclusive} {tip : Block Hash}
      {h : R} {log : Log Hash} :
      RewindStep maxBlockRange checkReorg ⟨.rewinding reached (range :: ranges), tip, h, log⟩
        ⟨.checking range.start ranges, tip, h, .sent (dataItem range) :: log⟩
  /-- A finalized tip is not checked. -/
  | skip {reached : ℕ} {ranges : List RangeInclusive} {tip : Block Hash} {h : R}
      {log : Log Hash} :
      checkReorg = false →
      RewindStep maxBlockRange checkReorg ⟨.checking reached ranges, tip, h, log⟩
        ⟨.rewinding reached ranges, tip, h, log⟩
  /-- The tip is still there. -/
  | clean {reached : ℕ} {ranges : List RangeInclusive} {tip : Block Hash} {h h' : R}
      {log reqs : Log Hash} :
      checkReorg = true →
      (ReorgHandler.check h tip).run log = (some (.ok none, h'), reqs ++ log) →
      (∀ e ∈ reqs, e.isRequest = true) →
      RewindStep maxBlockRange checkReorg ⟨.checking reached ranges, tip, h, log⟩
        ⟨.rewinding reached ranges, tip, h', .checked tip none :: (reqs ++ log)⟩
  /-- The tip was replaced. -/
  | reorg {reached : ℕ} {ranges : List RangeInclusive} {tip a : Block Hash} {h h' : R}
      {log reqs : Log Hash} :
      checkReorg = true →
      (ReorgHandler.check h tip).run log = (some (.ok (some a), h'), reqs ++ log) →
      (∀ e ∈ reqs, e.isRequest = true) →
      RewindStep maxBlockRange checkReorg ⟨.checking reached ranges, tip, h, log⟩
        ⟨.refetching a.number reached ranges, tip, h',
          .sent (reorgItem a.number) :: .checked tip (some a) :: (reqs ++ log)⟩
  /-- The new tip is fetched. -/
  | refetch {a reached : ℕ} {ranges : List RangeInclusive} {tip newTip : Block Hash} {h : R}
      {log : Log Hash} :
      newTip.number = tip.number →
      RewindStep maxBlockRange checkReorg ⟨.refetching a reached ranges, tip, h, log⟩
        ⟨.rescanning a (a + 1) (RangeIterator.forward (a + 1) tip.number maxBlockRange).ranges
          reached ranges, newTip, h, .request (.blockByNumber (.number tip.number)) :: log⟩
  /-- The next range of the rescan is sent. -/
  | rescan {range : RangeInclusive} {a next reached : ℕ} {rescan ranges : List RangeInclusive}
      {tip : Block Hash} {h : R} {log : Log Hash} :
      RewindStep maxBlockRange checkReorg
        ⟨.rescanning a next (range :: rescan) reached ranges, tip, h, log⟩
        ⟨.rescanning a (range.stop + 1) rescan reached ranges, tip, h,
          .sent (dataItem range) :: log⟩
  /-- The rescan is done. -/
  | rescanned {a next reached : ℕ} {ranges : List RangeInclusive} {tip : Block Hash} {h : R}
      {log : Log Hash} :
      RewindStep maxBlockRange checkReorg ⟨.rescanning a next [] reached ranges, tip, h, log⟩
        ⟨.rewinding reached ranges, tip, h, log⟩
  /-- The stream ends early: the receiver is gone, or a call failed. -/
  | stop {p : RewindPhase} {tip tip' : Block Hash} {h h' : R} {log extra : Log Hash} :
      SilentLog extra →
      RewindStep maxBlockRange checkReorg ⟨p, tip, h, log⟩ ⟨.stopped, tip', h', extra ++ log⟩

/-- The rewind as a logged transition system. -/
def rewindSystem (maxBlockRange : MaxBlockRange) (checkReorg : Bool) :
    EventLog.LoggedSystem (RewindState Hash R) (Event Hash) where
  log := RewindState.log
  step := RewindStep maxBlockRange checkReorg
  log_suffix := by
    intro s t hst
    cases hst with
    | send | refetch | rescan => exact List.suffix_cons _ _
    | skip | rescanned => exact List.suffix_refl _
    | clean => exact (List.suffix_append _ _).trans (List.suffix_cons _ _)
    | reorg =>
      exact ((List.suffix_append _ _).trans (List.suffix_cons _ _)).trans (List.suffix_cons _ _)
    | stop => exact List.suffix_append _ _

@[simp] lemma rewindSystem_log (maxBlockRange : MaxBlockRange) (checkReorg : Bool)
    (s : RewindState Hash R) : (rewindSystem maxBlockRange checkReorg).log s = s.log := rfl

/-! ### Runs of the rewind -/

variable {maxBlockRange : MaxBlockRange} {checkReorg : Bool} {sender : Sender}
  {s t : RewindState Hash R} {log' : Log Hash}

/-- How a run of the rewind with final log `log'` ends: with nothing left to send, or early, with
an error sent or the receiver gone. -/
def RewindEnds (maxBlockRange : MaxBlockRange) (checkReorg : Bool) (sender : Sender)
    (s : RewindState Hash R) (log' : Log Hash) : Prop :=
  ∃ t, (rewindSystem maxBlockRange checkReorg).Reach s t ∧ t.log = log' ∧
    ((∃ reached, t.phase = .rewinding reached []) ∨
      sender.isOpen log' = false ∨ ∃ e, .sent (.error e) ∈ log')

lemma RewindEnds.head (hst : RewindStep maxBlockRange checkReorg s t)
    (h : RewindEnds maxBlockRange checkReorg sender t log') :
    RewindEnds maxBlockRange checkReorg sender s log' := by
  obtain ⟨u, hu, hend⟩ := h
  exact ⟨u, .head hst hu, hend⟩

/-- A run that is left because the receiver is gone. -/
lemma RewindEnds.closed (s : RewindState Hash R) (extra : Log Hash) (hextra : SilentLog extra)
    (hclosed : ¬sender.isOpen (extra ++ s.log) = true) :
    RewindEnds maxBlockRange checkReorg sender s (extra ++ s.log) :=
  ⟨⟨.stopped, s.tip, s.handler, extra ++ s.log⟩, .single (RewindStep.stop hextra), rfl,
    Or.inr (Or.inl (by simpa using hclosed))⟩

variable (maxBlockRange checkReorg sender)

/-- A run that is left after an error. -/
lemma RewindEnds.failed (s : RewindState Hash R) (e : ScannerError) (reqs : Log Hash)
    (hreqs : ∀ e ∈ reqs, e.isRequest = true) :
    RewindEnds maxBlockRange checkReorg sender s
      ((tryStream sender (.error e)).run (reqs ++ s.log)).2 := by
  rw [run_tryStream]
  split_ifs with hopen
  · have hextra : SilentLog (.sent (.error e) :: reqs) := by
      simp [silentLog_of_isRequest hreqs]
    exact ⟨⟨.stopped, s.tip, s.handler, .sent (.error e) :: (reqs ++ s.log)⟩,
      .single (RewindStep.stop hextra), rfl, Or.inr (Or.inr ⟨e, List.mem_cons_self⟩)⟩
  · exact RewindEnds.closed s reqs (silentLog_of_isRequest hreqs) hopen

/-- A rescan is a run of steps: to its end, or until the receiver is gone.

**Proof sketch.** Induction on the ranges left. -/
lemma streamRanges_reach (a next : ℕ) (rescan : List RangeInclusive) (reached : ℕ)
    (ranges : List RangeInclusive) (tip : Block Hash) (h : R) (log : Log Hash) :
    ∃ channel log' next' rescan', (streamRanges sender rescan).run log = (some channel, log') ∧
      (rewindSystem maxBlockRange checkReorg).Reach
        ⟨.rescanning a next rescan reached ranges, tip, h, log⟩
        ⟨.rescanning a next' rescan' reached ranges, tip, h, log'⟩ ∧
      (channel = .opened ∧ rescan' = [] ∨ channel = .closed ∧ ¬sender.isOpen log' = true) := by
  induction rescan generalizing next log with
  | nil => exact ⟨.opened, log, next, [], rfl, .refl, Or.inl ⟨rfl, rfl⟩⟩
  | cons range rescan ih =>
    by_cases hopen : sender.isOpen log = true
    · obtain ⟨channel, log', next', rescan', hrun, hreach, hend⟩ := ih (range.stop + 1)
        (.sent (dataItem range) :: log)
      refine ⟨channel, log', next', rescan', ?_, .head RewindStep.rescan hreach, hend⟩
      unfold streamRanges
      rw [Proc.run_bind_some (by rw [run_tryStream, if_pos hopen])]
      exact hrun
    · refine ⟨.closed, log, next, range :: rescan, ?_, .refl, Or.inr ⟨rfl, hopen⟩⟩
      unfold streamRanges
      rw [Proc.run_bind_some (by rw [run_tryStream, if_neg hopen])]
      rfl

/-- The part of a round behind a reported reorg: the rescan runs to its end, and the rewind goes
on, or the round is left. -/
lemma handleReorgRescan_reach (provider : RobustProvider Hash) (tip a : Block Hash) (h : R)
    (reached : ℕ) (ranges : List RangeInclusive) (log : Log Hash)
    (hopen : sender.isOpen log = true) :
    ∃ result log', (handleReorgRescan tip a maxBlockRange sender provider).run log =
        (some result, log') ∧
      (result.1 = .opened ∧ (rewindSystem maxBlockRange checkReorg).Reach
          ⟨.refetching a.number reached ranges, tip, h, .sent (reorgItem a.number) :: log⟩
          ⟨.rewinding reached ranges, result.2, h, log'⟩ ∨
        result.1 = .closed ∧ RewindEnds maxBlockRange checkReorg sender
          ⟨.refetching a.number reached ranges, tip, h, .sent (reorgItem a.number) :: log⟩
          log') := by
  unfold handleReorgRescan
  rw [Proc.run_bind_some (by rw [run_tryStream, if_pos hopen])]
  simp only [ChannelState.isClosed, Bool.false_eq_true, if_false, getBlockByNumber]
  rw [Proc.run_bind_some (run_call _ _ _ _)]
  cases hfetch : provider.answer (clock (.sent (reorgItem a.number) :: log))
      (provider.findTag (clock (.sent (reorgItem a.number) :: log)) (.number tip.number)) with
  | error e =>
    dsimp only
    obtain ⟨channel, extra, hrun, -⟩ := tryStream_error sender (.ofProvider e)
      (.request (.blockByNumber (.number tip.number)) :: .sent (reorgItem a.number) :: log)
    rw [Proc.run_bind_some hrun]
    refine ⟨_, _, rfl, Or.inr ⟨rfl, ?_⟩⟩
    have hend := RewindEnds.failed maxBlockRange checkReorg sender
      (⟨.refetching a.number reached ranges, tip, h, .sent (reorgItem a.number) :: log⟩ :
        RewindState Hash R) (.ofProvider e) [.request (.blockByNumber (.number tip.number))]
      (by simp)
    rw [List.singleton_append, hrun] at hend
    exact hend
  | ok newTip =>
    obtain ⟨hnum, -⟩ := DefaultReorgHandler.answer_number_eq_ok hfetch
    dsimp only
    obtain ⟨channel, log', next', rescan', hrun, hreach, hend⟩ := streamRanges_reach
      maxBlockRange checkReorg sender a.number (a.number + 1)
      (RangeIterator.forward (a.number + 1) tip.number maxBlockRange).ranges reached ranges newTip h
      (.request (.blockByNumber (.number tip.number)) :: .sent (reorgItem a.number) :: log)
    rw [Proc.run_bind_some hrun]
    have hreach' := Relation.ReflTransGen.head (RewindStep.refetch hnum) hreach
    refine ⟨_, _, rfl, ?_⟩
    rcases hend with ⟨rfl, rfl⟩ | ⟨rfl, hclosed⟩
    · exact Or.inl ⟨rfl, hreach'.tail RewindStep.rescanned⟩
    · exact Or.inr ⟨rfl, _, hreach', rfl, Or.inr (Or.inl (by simpa using hclosed))⟩

/-- **Runs of the loop of the rewind are runs of the steps.**

**Proof sketch.** Induction on the ranges left. A round sends a range and, if the tip is not
final, checks the tip; a replaced tip is reported and the rescan follows. -/
theorem rewindRanges_reach (provider : RobustProvider Hash) (reached : ℕ)
    (ranges : List RangeInclusive) (tip : Block Hash) (h : R) (log : Log Hash) :
    RewindEnds maxBlockRange checkReorg sender ⟨.rewinding reached ranges, tip, h, log⟩
      ((rewindRanges maxBlockRange sender provider checkReorg ranges tip h).run log).2 := by
  induction ranges generalizing reached tip h log with
  | nil => exact ⟨_, .refl, rfl, Or.inl ⟨reached, rfl⟩⟩
  | cons range ranges ih =>
    unfold rewindRanges
    by_cases hopen : sender.isOpen log = true
    · rw [Proc.run_bind_some (by rw [run_tryStream, if_pos hopen])]
      simp only [ChannelState.isClosed, Bool.false_eq_true, if_false]
      refine RewindEnds.head RewindStep.send ?_
      cases checkReorg with
      | false => exact RewindEnds.head (.skip rfl) (ih range.start tip h _)
      | true =>
        simp only [Bool.true_eq_false, if_false]
        obtain ⟨h', reqs, hreqs, ⟨e, -, hrun⟩ | ⟨a, hcheck, hrun⟩⟩ :=
          checkBlock_cases h tip (.sent (dataItem range) :: log)
        · rw [Proc.run_bind_some hrun]
          dsimp only
          obtain ⟨channel, extra, hrun', -⟩ := tryStream_error sender e
            (reqs ++ .sent (dataItem range) :: log)
          rw [Proc.run_bind_some hrun']
          have hend := RewindEnds.failed maxBlockRange true sender
            ⟨.checking range.start ranges, tip, h, .sent (dataItem range) :: log⟩ e reqs hreqs
          rw [hrun'] at hend
          exact hend
        · rw [Proc.run_bind_some hrun]
          cases a with
          | none => exact RewindEnds.head (.clean rfl hcheck hreqs) (ih range.start tip h' _)
          | some a =>
            dsimp only
            by_cases hopen' : sender.isOpen
                (.checked tip (some a) :: (reqs ++ .sent (dataItem range) :: log)) = true
            · obtain ⟨result, log', hrun', hend⟩ := handleReorgRescan_reach maxBlockRange true
                sender provider tip a h' range.start ranges _ hopen'
              rw [Proc.run_bind_some hrun']
              refine RewindEnds.head (.reorg rfl hcheck hreqs) ?_
              rcases hend with ⟨hchannel, hreach⟩ | ⟨hchannel, hend⟩
              · rw [hchannel]
                obtain ⟨u, hu, hlog, hcause⟩ := ih range.start result.2 h' log'
                exact ⟨u, hreach.trans hu, hlog, hcause⟩
              · rw [hchannel]
                exact hend
            · have hclosed : (handleReorgRescan tip a maxBlockRange sender provider).run
                  (.checked tip (some a) :: (reqs ++ .sent (dataItem range) :: log)) =
                  (some (.closed, tip),
                    .checked tip (some a) :: (reqs ++ .sent (dataItem range) :: log)) := by
                unfold handleReorgRescan
                rw [Proc.run_bind_some (by rw [run_tryStream, if_neg hopen'])]
                rfl
              rw [Proc.run_bind_some hclosed]
              rw [← List.cons_append] at hopen' ⊢
              exact RewindEnds.closed _ _ (by simp [silentLog_of_isRequest hreqs]) hopen'
    · rw [Proc.run_bind_some (by rw [run_tryStream, if_neg hopen])]
      exact RewindEnds.closed ⟨.rewinding reached (range :: ranges), tip, h, log⟩ []
        silentLog_nil hopen

/-- The rewind starts above its tip, with all ranges left. -/
def RewindState.start (tip toBlock : Block Hash) (maxBlockRange : MaxBlockRange) (h : R)
    (log : Log Hash) : RewindState Hash R :=
  ⟨.rewinding (tip.number + 1)
    (RangeIterator.reverse tip.number toBlock.number maxBlockRange).ranges, tip, h, log⟩

/-- **Runs of the rewind are runs of the steps**, behind the call for the finalized height. -/
theorem handleStreamRewind_reach (tip toBlock : Block Hash) (provider : RobustProvider Hash)
    (h : R) (log : Log Hash) :
    ∃ checkReorg, RewindEnds maxBlockRange checkReorg sender
      (RewindState.start tip toBlock maxBlockRange h
        (.request (.blockNumberById (.number .finalized)) :: log))
      ((handleStreamRewind tip toBlock maxBlockRange sender provider h).run log).2 :=
  ⟨_, rewindRanges_reach maxBlockRange _ sender provider _ _ tip h _⟩

/-! ### The ranges left -/

/-- The ranges left are the cut of the blocks below `reached` down to `toBlock`. -/
def RangesLeft (m toBlock reached : ℕ) (ranges : List RangeInclusive) : Prop :=
  (ranges = [] ∧ reached ≤ toBlock) ∨
    ∃ high, high + 1 = reached ∧ RangeInclusive.RevChunks m high toBlock ranges

section RangesLeft

variable {m toBlock reached : ℕ} {range : RangeInclusive} {ranges : List RangeInclusive}

/-- The next range ends right below the blocks that were reached. -/
lemma RangesLeft.next (h : RangesLeft m toBlock reached (range :: ranges)) :
    range.stop + 1 = reached ∧ range.start ≤ range.stop ∧ toBlock ≤ range.start ∧
      RangesLeft m toBlock range.start ranges := by
  rcases h with ⟨hnil, -⟩ | ⟨high, rfl, hle, hr, hrest⟩
  · cases hnil
  · have hbounds : range.stop = high ∧ range.start ≤ range.stop ∧ toBlock ≤ range.start := by
      rw [hr]
      dsimp only
      omega
    refine ⟨by omega, hbounds.2.1, hbounds.2.2, ?_⟩
    split_ifs at hrest with hlast
    · exact Or.inl ⟨hrest, Nat.le_of_eq hlast⟩
    · exact Or.inr ⟨range.start - 1, by omega, hrest⟩

/-- With ranges left, the end of the rewind has not been reached. -/
lemma RangesLeft.lt (h : RangesLeft m toBlock reached ranges) (hne : ranges ≠ []) :
    toBlock < reached := by
  cases ranges with
  | nil => exact absurd rfl hne
  | cons range ranges =>
    obtain ⟨hstop, hle, hlow, -⟩ := h.next
    omega

/-- Without ranges left, the end of the rewind has been reached. -/
lemma RangesLeft.le (h : RangesLeft m toBlock reached []) : reached ≤ toBlock := by
  rcases h with ⟨-, hle⟩ | ⟨high, rfl, hlt⟩
  · exact hle
  · exact hlt

end RangesLeft

/-- The tip keeps its height, and the ranges left are the cuts of the blocks left. -/
def RewindState.Cutting (m tipNumber toBlock : ℕ) (s : RewindState Hash R) : Prop :=
  match s.phase with
  | .rewinding reached ranges | .checking reached ranges | .refetching _ reached ranges =>
    s.tip.number = tipNumber ∧ RangesLeft m toBlock reached ranges
  | .rescanning a next rescan reached ranges =>
    s.tip.number = tipNumber ∧ RangesLeft m toBlock reached ranges ∧ a < next ∧
      RangeInclusive.Chunks m next tipNumber rescan
  | .stopped => True

variable {maxBlockRange checkReorg}

omit [ReorgHandler Hash R] in
/-- At the start all blocks are left. -/
lemma RewindState.cutting_start (tip toBlock : Block Hash) (h : R) (log : Log Hash) :
    (RewindState.start tip toBlock maxBlockRange h log).Cutting maxBlockRange tip.number
      toBlock.number :=
  ⟨rfl, Or.inr ⟨tip.number, rfl, RangeIterator.ranges_reverse _ _ _⟩⟩

/-- Every step keeps the cut. -/
lemma RewindStep.cutting {tipNumber toBlock : ℕ} (hst : RewindStep maxBlockRange checkReorg s t)
    (hI : s.Cutting maxBlockRange tipNumber toBlock) :
    t.Cutting maxBlockRange tipNumber toBlock := by
  cases hst with
  | send => exact ⟨hI.1, hI.2.next.2.2.2⟩
  | skip | clean | reorg => exact hI
  | refetch hnum =>
    obtain ⟨htip, hleft⟩ := hI
    dsimp only at htip
    refine ⟨hnum.trans htip, hleft, Nat.lt_succ_self _, ?_⟩
    rw [← htip]
    exact RangeIterator.ranges_forward _ _ _
  | rescan =>
    obtain ⟨htip, hleft, ha, hle, hr, hrest⟩ := hI
    refine ⟨htip, hleft, ?_, hrest⟩
    rw [hr]
    dsimp only
    omega
  | rescanned => exact ⟨hI.1, hI.2.1⟩
  | stop => trivial

end Steps

/-- **The rewind between two blocks in either order** is the rewind from the upper to the lower one,
behind the two calls for them. -/
theorem RewindHandler.exists_run_eq [DecidableEq Hash] (handler : RewindHandler Hash)
    (log : Log Hash) {a b : Block Hash}
    (ha : handler.provider.answer (clock log)
      (handler.provider.findId (clock log) handler.startId) = .ok a)
    (hb : handler.provider.answer (clock log + 1)
      (handler.provider.findId (clock log + 1) handler.endId) = .ok b) :
    ∃ tip toBlock, tip.number = max a.number b.number ∧ toBlock.number = min a.number b.number ∧
      handler.run.run log =
        (handleStreamRewind tip toBlock handler.maxBlockRange handler.sender handler.provider
          handler.reorgHandler >>= fun _ => pure (.ok ())).run
            (.request (.block handler.endId) :: .request (.block handler.startId) :: log) := by
  have hstart : (getBlock handler.provider handler.startId).run log =
      (some (.ok a), .request (.block handler.startId) :: log) := by
    rw [← ha]
    exact run_call ..
  have hend : (getBlock handler.provider handler.endId).run
      (.request (.block handler.startId) :: log) =
        (some (.ok b), .request (.block handler.endId) ::
          .request (.block handler.startId) :: log) := by
    rw [← hb, ← clock_request]
    exact run_call ..
  unfold RewindHandler.run
  rw [Proc.run_bind_some hstart, Proc.run_bind_some hend]
  dsimp only
  split_ifs with horder
  · exact ⟨a, b, (Nat.max_eq_left horder.le).symm, (Nat.min_eq_right horder.le).symm, rfl⟩
  · have horder' : a.number ≤ b.number := Nat.le_of_not_lt horder
    exact ⟨b, a, (Nat.max_eq_right horder').symm, (Nat.min_eq_left horder').symm, rfl⟩

end EventScanner
