import EventScanner.BlockRangeScanner.BatchRun

set_option relaxedAutoImplicit false
set_option autoImplicit false

/-!
# The live stream as a transition system

What the live stream can do in one step, and that every run of `stream_live_blocks` is a run of
these steps. The invariants of the live stream are proved about the steps.

## Main definitions

* `EventScanner.LivePhase`, `EventScanner.LiveState` — where the live stream stands.
* `EventScanner.LiveStep`, `EventScanner.liveSystem` — its steps.
* `EventScanner.LiveConfig.LoopTop` — the states at the top of the main loop.

## Main results

* `EventScanner.LiveConfig.liveIteration_reach` — a round of the main loop is a run of steps.
* `EventScanner.LiveConfig.streamLiveBlocks_reach` — so is the whole stream.
* `EventScanner.LiveConfig.LoopTop.reach` — the tops of the main loop are reached by steps.
-/

namespace EventScanner

open HashChain

variable {Hash R : Type}

/-- Where the live stream stands. -/
inductive LivePhase (Hash : Type)
  /-- Waiting for the first relevant header. -/
  | starting
  /-- Inside the batch loop; behind it, the next batch starts at `resume`. -/
  | streaming (phase : BatchPhase Hash) (resume : ℕ)
  /-- At the top of the main loop. -/
  | waiting (state : LiveStreamingState Hash)
  /-- The stream has ended. -/
  | stopped

/-- The state of the live stream. -/
structure LiveState (Hash R : Type) where
  /-- Where the stream stands. -/
  phase : LivePhase Hash
  /-- The reorg handler. -/
  handler : R
  /-- The events so far. -/
  log : Log Hash

namespace LiveConfig

variable (cfg : LiveConfig Hash)

/-- The block before the start of the stream, the bound for resets inside a batch run. -/
def minCommonAncestor : ℕ := cfg.streamStart - 1

/-- The confirmed block for a header. -/
def confirmed (header : ℕ) : ℕ := header - cfg.blockConfirmations

/-- Where the stream stands behind a reported reorg. -/
def afterReorg (a : Block Hash) : LiveStreamingState Hash :=
  if a.number < cfg.streamStart then ⟨cfg.streamStart, none⟩ else ⟨a.number + 1, some a⟩

/-- Where the stream stands when it starts to stream up to the confirmed block of a header. -/
def proceed (header : ℕ) (state : LiveStreamingState Hash) : LivePhase Hash :=
  if cfg.confirmed header < state.batchStart then .waiting state
  else .streaming
    (.ready (.forward state.batchStart (cfg.confirmed header) cfg.maxBlockRange) none)
    (cfg.confirmed header + 1)

end LiveConfig

section Steps

variable [ReorgHandler Hash R]

/-- What a header does while `b` is the previous batch end: the check of `b`, from a handler and a
log to the state from which the stream goes on, the handler and the log after it. -/
inductive HeaderStep (cfg : LiveConfig Hash) (n : ℕ) (b : Block Hash) :
    R → Log Hash → LiveStreamingState Hash → R → Log Hash → Prop
  /-- The previous batch end is still there. -/
  | clean {h h' : R} {log reqs : Log Hash} :
      (ReorgHandler.check h b).run (.received (.ok n) :: log) =
        (some (.ok none, h'), reqs ++ .received (.ok n) :: log) →
      (∀ e ∈ reqs, e.isRequest = true) →
      HeaderStep cfg n b h log ⟨b.number + 1, some b⟩ h'
        (.checked b none :: (reqs ++ .received (.ok n) :: log))
  /-- The previous batch end was replaced. -/
  | reorg {a : Block Hash} {h h' : R} {log reqs : Log Hash} :
      (ReorgHandler.check h b).run (.received (.ok n) :: log) =
        (some (.ok (some a), h'), reqs ++ .received (.ok n) :: log) →
      (∀ e ∈ reqs, e.isRequest = true) →
      HeaderStep cfg n b h log (cfg.afterReorg a) h'
        (.sent (reorgItem a.number) :: .checked b (some a) ::
          (reqs ++ .received (.ok n) :: log))

/-- A step of the live stream. -/
inductive LiveStep (cfg : LiveConfig Hash) : LiveState Hash R → LiveState Hash R → Prop
  /-- The first relevant header arrives. -/
  | first {n : ℕ} {h : R} {log notice : Log Hash} :
      cfg.streamStart ≤ cfg.confirmed n →
      notice = [] ∨ notice = [.sent (notificationItem .switchingToLive)] →
      LiveStep cfg ⟨.starting, h, log⟩
        ⟨.streaming (.ready (.forward cfg.streamStart (cfg.confirmed n) cfg.maxBlockRange) none)
          cfg.streamStart, h, notice ++ .received (.ok n) :: log⟩
  /-- A step of the batch loop. -/
  | batch {p p' : BatchPhase Hash} {resume : ℕ} {h h' : R} {log log' : Log Hash} :
      BatchStep cfg.provider cfg.minCommonAncestor ⟨p, h, log⟩ ⟨p', h', log'⟩ →
      LiveStep cfg ⟨.streaming p resume, h, log⟩ ⟨.streaming p' resume, h', log'⟩
  /-- The batch loop is done. -/
  | batchesDone {iter : RangeIterator .forward} {b : Block Hash} {resume : ℕ} {h : R}
      {log : Log Hash} :
      iter.next = none →
      LiveStep cfg ⟨.streaming (.ready iter (some b)) resume, h, log⟩
        ⟨.waiting ⟨resume, some b⟩, h, log⟩
  /-- The subscription lagged. -/
  | lagged {state : LiveStreamingState Hash} {skipped : ℕ} {h : R} {log : Log Hash} :
      LiveStep cfg ⟨.waiting state, h, log⟩
        ⟨.waiting state, h, .received (.error (.lagged skipped)) :: log⟩
  /-- A header arrives while no previous batch end is known. -/
  | ignored {n batchStart : ℕ} {h : R} {log : Log Hash} :
      LiveStep cfg ⟨.waiting ⟨batchStart, none⟩, h, log⟩
        ⟨.waiting ⟨batchStart, none⟩, h, .received (.ok n) :: log⟩
  /-- A header arrives, and the previous batch end is checked. -/
  | header {n batchStart : ℕ} {b : Block Hash} {h h' : R} {log log' : Log Hash}
      {state : LiveStreamingState Hash} :
      HeaderStep cfg n b h log state h' log' →
      LiveStep cfg ⟨.waiting ⟨batchStart, some b⟩, h, log⟩ ⟨cfg.proceed n state, h', log'⟩
  /-- The stream ends: the subscription is over, the receiver is gone, or a call failed. -/
  | stop {p : LivePhase Hash} {h h' : R} {log extra : Log Hash} :
      SilentLog extra → LiveStep cfg ⟨p, h, log⟩ ⟨.stopped, h', extra ++ log⟩

/-- The live stream as a logged transition system. -/
def liveSystem (cfg : LiveConfig Hash) :
    EventLog.LoggedSystem (LiveState Hash R) (Event Hash) where
  log := LiveState.log
  step := LiveStep cfg
  log_suffix := by
    rintro s t hst
    cases hst with
    | first => exact (List.suffix_cons _ _).trans (List.suffix_append _ _)
    | batch hb => exact (batchSystem cfg.provider cfg.minCommonAncestor).log_suffix hb
    | batchesDone => exact List.suffix_refl _
    | lagged | ignored => exact List.suffix_cons _ _
    | header hh =>
      cases hh with
      | clean =>
        exact ((List.suffix_cons _ _).trans (List.suffix_append _ _)).trans (List.suffix_cons _ _)
      | reorg =>
        exact (((List.suffix_cons _ _).trans (List.suffix_append _ _)).trans
          (List.suffix_cons _ _)).trans (List.suffix_cons _ _)
    | stop => exact List.suffix_append _ _

@[simp] lemma liveSystem_log (cfg : LiveConfig Hash) (s : LiveState Hash R) :
    (liveSystem cfg).log s = s.log := rfl

namespace LiveConfig

variable {cfg : LiveConfig Hash} {s t : LiveState Hash R}
  {res : Option (Option (LiveStreamingState Hash × R))} {log' : Log Hash}

/-- How a run from `s` with result `res` and final log `log'` ends: somewhere with that log, and
at the top of the main loop if there is a result. -/
def Ends (cfg : LiveConfig Hash) (s : LiveState Hash R)
    (res : Option (Option (LiveStreamingState Hash × R))) (log' : Log Hash) : Prop :=
  ∃ t, (liveSystem cfg).Reach s t ∧ t.log = log' ∧
    ∀ state h, res = some (some (state, h)) → t = ⟨.waiting state, h, log'⟩

/-- The stream can end anywhere. -/
lemma reach_stopped (s : LiveState Hash R) (extra : Log Hash) (hextra : SilentLog extra) :
    (liveSystem cfg).Reach s ⟨.stopped, s.handler, extra ++ s.log⟩ :=
  .single (LiveStep.stop hextra)

/-- A run that stays where it is, without a result. -/
lemma Ends.left (s : LiveState Hash R) (extra : Log Hash) (hextra : SilentLog extra)
    (hres : res = none ∨ res = some none) : Ends cfg s res (extra ++ s.log) := by
  refine ⟨_, reach_stopped s extra hextra, rfl, ?_⟩
  rintro state h rfl
  simp at hres

/-- A step before a run. -/
lemma Ends.head (hst : LiveStep cfg s t) (h : Ends cfg t res log') : Ends cfg s res log' := by
  obtain ⟨u, hu, hend⟩ := h
  exact ⟨u, .head hst hu, hend⟩

/-- Runs of the batch loop, as part of the live stream. -/
lemma reach_streaming {p : BatchPhase Hash} (resume : ℕ) {h : R} {log : Log Hash}
    {u : BatchState Hash R}
    (hr : (batchSystem cfg.provider cfg.minCommonAncestor).Reach ⟨p, h, log⟩ u) :
    (liveSystem cfg).Reach ⟨.streaming p resume, h, log⟩
      ⟨.streaming u.phase resume, u.handler, u.log⟩ := by
  induction hr with
  | refl => exact .refl
  | tail _ hst ih => exact ih.tail (LiveStep.batch hst)

/-- The end of a batch run inside the live stream: at the top of the main loop when the batch
loop returns a block, and left behind otherwise. -/
lemma Ends.of_batchEnds {p : BatchPhase Hash} (resume : ℕ) {h : R} {log : Log Hash}
    {batchRes : Option (Option (Block Hash) × R)}
    (hb : BatchEnds cfg.provider cfg.minCommonAncestor ⟨p, h, log⟩ batchRes log')
    (hres : res = none ∨ res = some none ∨
      ∃ b h', batchRes = some (some b, h') ∧ res = some (some (⟨resume, some b⟩, h'))) :
    Ends cfg ⟨.streaming p resume, h, log⟩ res log' := by
  obtain ⟨u, hu, ⟨iter, last, hnext, hphase, hbatch, rfl⟩ | ⟨hbatch, extra, hextra, rfl⟩⟩ := hb
  · rcases hres with rfl | rfl | ⟨b, h', hbatch', rfl⟩
    · exact ⟨_, reach_streaming resume hu, rfl, by simp⟩
    · exact ⟨_, reach_streaming resume hu, rfl, by simp⟩
    · rw [hbatch] at hbatch'
      simp only [Option.some.injEq, Prod.mk.injEq] at hbatch'
      obtain ⟨rfl, rfl⟩ := hbatch'
      have hdone := reach_streaming resume hu
      rw [hphase] at hdone
      refine ⟨_, hdone.tail (LiveStep.batchesDone hnext), rfl, ?_⟩
      intro state h' heq
      simp only [Option.some.injEq, Prod.mk.injEq] at heq
      obtain ⟨rfl, rfl⟩ := heq
      rfl
  · have hnone : res = none ∨ res = some none := by
      rcases hres with rfl | rfl | ⟨b, h', rfl, _⟩
      · exact Or.inl rfl
      · exact Or.inr rfl
      · simp at hbatch
    obtain ⟨v, hv, hend⟩ : Ends cfg ⟨.streaming u.phase resume, u.handler, u.log⟩ res
        (extra ++ u.log) := Ends.left _ extra hextra hnone
    exact ⟨v, (reach_streaming resume hu).trans hv, hend⟩

section Runs

variable (cfg) {fuel n : ℕ} {state : LiveStreamingState Hash} {h : R} {log : Log Hash}

/-- With no new confirmed block there is nothing to stream. -/
lemma run_streamUpTo_of_lt (hlt : cfg.confirmed n < state.batchStart) :
    (cfg.streamUpTo fuel n state h).run log = (some (some (state, h)), log) := by
  have hlt' : n - cfg.blockConfirmations < state.batchStart := hlt
  simp only [streamUpTo, streamNextBatch, if_pos hlt']
  rfl

/-- Otherwise the batch loop runs up to the confirmed block, and decides how it goes on. -/
lemma run_streamUpTo_of_le (hle : state.batchStart ≤ cfg.confirmed n) :
    (cfg.streamUpTo fuel n state h).run log =
      match (streamBatches cfg.sender cfg.provider cfg.minCommonAncestor fuel
        (.forward state.batchStart (cfg.confirmed n) cfg.maxBlockRange) none h).run log with
      | (none, log') => (none, log')
      | (some (none, _), log') => (some none, log')
      | (some (some b, h'), log') =>
        (some (some (⟨cfg.confirmed n + 1, some b⟩, h')), log') := by
  have hle' : ¬n - cfg.blockConfirmations < state.batchStart := Nat.not_lt_of_le hle
  simp only [streamUpTo, streamNextBatch, if_neg hle', streamRangeWithReorgHandling]
  rw [Proc.run_bind_assoc]
  unfold minCommonAncestor confirmed
  rcases hrun : (streamBatches cfg.sender cfg.provider (cfg.streamStart - 1) fuel
    (.forward state.batchStart (n - cfg.blockConfirmations) cfg.maxBlockRange)
    none h).run log with ⟨_ | ⟨_ | b, h'⟩, log'⟩
  · rw [Proc.run_bind_none hrun]
  · rw [Proc.run_bind_some hrun]
    rfl
  · rw [Proc.run_bind_some hrun]
    rfl

/-- Streaming up to the confirmed block of a header is a run of steps. -/
lemma streamUpTo_reach (fuel n : ℕ) (state : LiveStreamingState Hash) (h : R) (log : Log Hash) :
    Ends cfg ⟨cfg.proceed n state, h, log⟩ ((cfg.streamUpTo fuel n state h).run log).1
      ((cfg.streamUpTo fuel n state h).run log).2 := by
  unfold proceed
  split_ifs with hlt
  · rw [cfg.run_streamUpTo_of_lt hlt]
    refine ⟨_, .refl, rfl, ?_⟩
    rintro state' h' heq
    simp only [Option.some.injEq, Prod.mk.injEq] at heq
    obtain ⟨rfl, rfl⟩ := heq
    rfl
  · rw [cfg.run_streamUpTo_of_le (Nat.le_of_not_lt hlt)]
    have hb := streamBatches_reach cfg.provider cfg.minCommonAncestor cfg.sender fuel
      (.forward state.batchStart (cfg.confirmed n) cfg.maxBlockRange) none h log
    rcases hrun : (streamBatches cfg.sender cfg.provider cfg.minCommonAncestor fuel
      (.forward state.batchStart (cfg.confirmed n) cfg.maxBlockRange)
      none h).run log with ⟨_ | ⟨_ | b, h'⟩, log'⟩
    all_goals rw [hrun] at hb
    · exact Ends.of_batchEnds _ hb (Or.inl rfl)
    · exact Ends.of_batchEnds _ hb (Or.inr (Or.inl rfl))
    · exact Ends.of_batchEnds _ hb (Or.inr (Or.inr ⟨b, h', rfl, rfl⟩))

/-- Reporting a reorg: either the receiver is gone, or the report is sent and the stream stands
behind the common ancestor. -/
lemma run_handleReorgDetected (a : Block Hash) (state : LiveStreamingState Hash)
    (log : Log Hash) :
    (cfg.handleReorgDetected a state).run log =
      if cfg.sender.isOpen log then
        (some (.opened, cfg.afterReorg a), .sent (reorgItem a.number) :: log)
      else (some (.closed, state), log) := by
  unfold handleReorgDetected
  split_ifs with hopen
  · rw [Proc.run_bind_some (by rw [run_tryStream, if_pos hopen])]
    simp only [ChannelState.isClosed, Bool.false_eq_true, if_false, afterReorg]
    split_ifs <;> rfl
  · rw [Proc.run_bind_some (by rw [run_tryStream, if_neg hopen])]
    rfl

/-- A header with a known previous batch end: either the check of that block decides from where
the stream goes on up to the confirmed block, or the loop is left after silent events. -/
lemma run_liveIteration_header (fuel n batchStart : ℕ) (b : Block Hash) (h : R)
    (log : Log Hash) :
    (∃ state h' log', HeaderStep cfg n b h log state h' log' ∧
        (cfg.liveIteration fuel (.ok n) ⟨batchStart, some b⟩ h).run log =
          (cfg.streamUpTo fuel n state h').run log') ∨
      ∃ extra, SilentLog extra ∧
        (cfg.liveIteration fuel (.ok n) ⟨batchStart, some b⟩ h).run log =
          (some none, extra ++ log) := by
  unfold liveIteration
  rw [Proc.run_bind_emit]
  dsimp only
  obtain ⟨h', reqs, hreqs, ⟨e, hcheck, hrun⟩ | ⟨a, hcheck, hrun⟩⟩ := checkBlock_cases h b
    (.received (.ok n) :: log)
  · obtain ⟨channel, extra, hrun', hextra⟩ := tryStream_error cfg.sender e
      (reqs ++ .received (.ok n) :: log)
    refine Or.inr ⟨extra ++ reqs ++ [.received (.ok n)], ?_, ?_⟩
    · simp [hextra, silentLog_of_isRequest hreqs]
    · rw [Proc.run_bind_some hrun]
      dsimp only
      rw [Proc.run_bind_some hrun']
      simp
  · rw [Proc.run_bind_some hrun]
    cases a with
    | none => exact Or.inl ⟨_, _, _, .clean hcheck hreqs, rfl⟩
    | some a =>
      dsimp only
      by_cases hopen : cfg.sender.isOpen (.checked b (some a) :: (reqs ++ .received (.ok n) :: log))
      · refine Or.inl ⟨_, _, _, .reorg hcheck hreqs, ?_⟩
        rw [Proc.run_bind_some (by rw [run_handleReorgDetected, if_pos hopen])]
        rfl
      · refine Or.inr ⟨.checked b (some a) :: (reqs ++ [.received (.ok n)]), ?_, ?_⟩
        · simp [silentLog_of_isRequest hreqs]
        · rw [Proc.run_bind_some (by rw [run_handleReorgDetected, if_neg hopen])]
          simp [ChannelState.isClosed]

/-- **A round of the main loop is a run of steps** from the top of the loop; when it does not
leave the loop, it ends at the top of the loop with the state it returns. -/
theorem liveIteration_reach (fuel : ℕ) (item : SubscriptionItem) (state : LiveStreamingState Hash)
    (h : R) (log : Log Hash) :
    Ends cfg ⟨.waiting state, h, log⟩ ((cfg.liveIteration fuel item state h).run log).1
      ((cfg.liveIteration fuel item state h).run log).2 := by
  have hleft (e : RobustProviderError) :
      Ends cfg ⟨.waiting state, h, log⟩
        ((streamSubscriptionError cfg.sender e >>= fun _ => pure none).run
          (.received (.error e) :: log)).1
        ((streamSubscriptionError cfg.sender e >>= fun _ =>
          (pure none : Proc (Event Hash) (Option (LiveStreamingState Hash × R)))).run
          (.received (.error e) :: log)).2 := by
    obtain ⟨channel, extra, hrun, hextra⟩ := tryStream_error cfg.sender (.ofProvider e)
      (.received (.error e) :: log)
    unfold streamSubscriptionError
    rw [Proc.run_bind_some hrun]
    rw [List.append_cons]
    exact Ends.left ⟨.waiting state, h, log⟩ _ (by simp [hextra]) (Or.inr rfl)
  match item with
  | .ok n =>
    obtain ⟨batchStart, _ | b⟩ := state
    · refine ⟨_, .single LiveStep.ignored, rfl, ?_⟩
      rintro state' h' heq
      simp only [liveIteration, Proc.run_bind_emit, Proc.run_pure, Option.some.injEq,
        Prod.mk.injEq] at heq
      obtain ⟨rfl, rfl⟩ := heq
      rfl
    · rcases cfg.run_liveIteration_header fuel n batchStart b h log with
        ⟨state', h', log', hstep, hrun⟩ | ⟨extra, hextra, hrun⟩
      · rw [hrun]
        exact Ends.head (.header hstep) (cfg.streamUpTo_reach ..)
      · rw [hrun]
        exact Ends.left ⟨.waiting ⟨batchStart, some b⟩, h, log⟩ extra hextra (Or.inr rfl)
  | .error (.lagged skipped) =>
    refine ⟨_, .single LiveStep.lagged, rfl, ?_⟩
    rintro state' h' heq
    simp only [liveIteration, Proc.run_bind_emit, Proc.run_pure, Option.some.injEq,
      Prod.mk.injEq] at heq
    obtain ⟨rfl, rfl⟩ := heq
    rfl
  | .error .timeout | .error (.rpcError _) | .error .closed | .error .blockNotFound =>
    unfold liveIteration
    rw [Proc.run_bind_emit]
    exact hleft _

/-- The main loop is a run of steps from its top. -/
theorem streamBlocksContinuously_reach (fuel : ℕ) (stream : List SubscriptionItem)
    (state : LiveStreamingState Hash) (h : R) (log : Log Hash) :
    ∃ t, (liveSystem cfg).Reach ⟨.waiting state, h, log⟩ t ∧
      t.log = ((cfg.streamBlocksContinuously fuel stream state h).run log).2 := by
  induction stream generalizing state h log with
  | nil => exact ⟨_, .refl, rfl⟩
  | cons item stream ih =>
    obtain ⟨t, ht, hlog, hend⟩ := cfg.liveIteration_reach fuel item state h log
    simp only [streamBlocksContinuously]
    rcases hrun : (cfg.liveIteration fuel item state h).run log with
      ⟨_ | _ | ⟨state', h'⟩, log'⟩
    all_goals rw [hrun] at hlog hend
    · rw [Proc.run_bind_none hrun]
      exact ⟨t, ht, hlog⟩
    · rw [Proc.run_bind_some hrun]
      exact ⟨t, ht, hlog⟩
    · rw [Proc.run_bind_some hrun]
      obtain ⟨u, hu, hlog'⟩ := ih state' h' log'
      rw [hend state' h' rfl] at ht
      exact ⟨u, ht.trans hu, hlog'⟩

/-- The catch-up behind the first header is a run of the batch loop. -/
lemma run_initializeLiveStreamingState :
    (cfg.initializeLiveStreamingState fuel n h).run log =
      match (streamBatches cfg.sender cfg.provider cfg.minCommonAncestor fuel
        (.forward cfg.streamStart (cfg.confirmed n) cfg.maxBlockRange) none h).run log with
      | (none, log') => (none, log')
      | (some (none, h'), log') => (some (none, h'), log')
      | (some (some b, h'), log') => (some (some ⟨cfg.streamStart, some b⟩, h'), log') := by
  simp only [initializeLiveStreamingState, streamRangeWithReorgHandling]
  unfold minCommonAncestor confirmed
  rcases hrun : (streamBatches cfg.sender cfg.provider (cfg.streamStart - 1) fuel
    (.forward cfg.streamStart (n - cfg.blockConfirmations) cfg.maxBlockRange)
    none h).run log with ⟨_ | ⟨_ | b, h'⟩, log'⟩
  · rw [Proc.run_bind_none hrun]
  · rw [Proc.run_bind_some hrun]
    rfl
  · rw [Proc.run_bind_some hrun]
    rfl

/-- The state in which the batch loop of the catch-up starts. -/
def catchUp (h : R) (n : ℕ) (log : Log Hash) : LiveState Hash R :=
  ⟨.streaming (.ready (.forward cfg.streamStart (cfg.confirmed n) cfg.maxBlockRange) none)
    cfg.streamStart, h, log⟩

/-- The catch-up behind the first header is a run of steps. It ends at the top of the main loop
if it returns a state. -/
lemma initializeLiveStreamingState_reach (fuel n : ℕ) (h : R) (log : Log Hash) :
    ∃ t, (liveSystem cfg).Reach (cfg.catchUp h n log) t ∧
      t.log = ((cfg.initializeLiveStreamingState fuel n h).run log).2 ∧
      ∀ state h', ((cfg.initializeLiveStreamingState fuel n h).run log).1 =
          some (some state, h') →
        t = ⟨.waiting state, h', ((cfg.initializeLiveStreamingState fuel n h).run log).2⟩ := by
  have hb := streamBatches_reach cfg.provider cfg.minCommonAncestor cfg.sender fuel
    (.forward cfg.streamStart (cfg.confirmed n) cfg.maxBlockRange) none h log
  rw [run_initializeLiveStreamingState]
  rcases hrun : (streamBatches cfg.sender cfg.provider cfg.minCommonAncestor fuel
    (.forward cfg.streamStart (cfg.confirmed n) cfg.maxBlockRange)
    none h).run log with ⟨_ | ⟨_ | b, h'⟩, log'⟩
  all_goals rw [hrun] at hb
  · obtain ⟨t, ht, hlog, -⟩ := Ends.of_batchEnds cfg.streamStart hb (Or.inl rfl)
    exact ⟨t, ht, hlog, by simp⟩
  · obtain ⟨t, ht, hlog, -⟩ := Ends.of_batchEnds cfg.streamStart hb
      (Or.inr (Or.inl rfl))
    exact ⟨t, ht, hlog, by simp⟩
  · obtain ⟨t, ht, hlog, hend⟩ := Ends.of_batchEnds cfg.streamStart hb
      (Or.inr (Or.inr ⟨b, h', rfl, rfl⟩))
    refine ⟨t, ht, hlog, ?_⟩
    intro state h'' heq
    simp only [Option.some.injEq, Prod.mk.injEq] at heq
    obtain ⟨rfl, rfl⟩ := heq
    exact hend _ _ rfl

/-- Waiting for the first relevant header: either the stream ends after silent events, or the
header that is returned has a confirmed block from the start of the stream on. -/
lemma getFirstBlock_cases (subscription : List SubscriptionItem) (log : Log Hash) :
    (∃ extra, SilentLog extra ∧
        (getFirstBlock cfg.sender (skipToFirstRelevantBlock subscription cfg.streamStart
          cfg.blockConfirmations)).run log = (some none, extra ++ log)) ∨
      ∃ n rest, cfg.streamStart ≤ cfg.confirmed n ∧
        (getFirstBlock cfg.sender (skipToFirstRelevantBlock subscription cfg.streamStart
          cfg.blockConfirmations)).run log = (some (some (n, rest)), .received (.ok n) :: log) := by
  induction subscription with
  | nil => exact Or.inl ⟨[], silentLog_nil, rfl⟩
  | cons item rest ih =>
    have hleft (e : RobustProviderError) : ∃ extra, SilentLog extra ∧
        (streamSubscriptionError cfg.sender e >>= fun _ =>
          (pure none : Proc (Event Hash) (Option (ℕ × List SubscriptionItem)))).run log =
            (some none, extra ++ log) := by
      obtain ⟨channel, extra, hrun, hextra⟩ := tryStream_error cfg.sender (.ofProvider e) log
      exact ⟨extra, hextra, Proc.run_bind_some hrun⟩
    match item with
    | .ok n =>
      by_cases hlt : n - cfg.blockConfirmations < cfg.streamStart
      · simp only [skipToFirstRelevantBlock, List.dropWhile_cons, hlt, decide_true, if_true]
        exact ih
      · simp only [skipToFirstRelevantBlock, List.dropWhile_cons, hlt, decide_false]
        exact Or.inr ⟨n, rest, Nat.le_of_not_lt hlt, rfl⟩
    | .error (.lagged k) =>
      simp only [skipToFirstRelevantBlock, List.dropWhile_cons, if_true]
      exact ih
    | .error .timeout | .error (.rpcError _) | .error .closed | .error .blockNotFound =>
      simp only [skipToFirstRelevantBlock, List.dropWhile_cons]
      exact Or.inl (hleft _)

/-- **Every run of the live stream is a run of steps** from its start. -/
theorem streamLiveBlocks_reach (fuel : ℕ) (subscription : List SubscriptionItem) (h : R)
    (notifyAfterFirstBlock : Bool) (log : Log Hash) :
    ∃ t, (liveSystem cfg).Reach ⟨.starting, h, log⟩ t ∧
      t.log = ((cfg.streamLiveBlocks fuel subscription h notifyAfterFirstBlock).run log).2 := by
  have hcont (n : ℕ) (rest : List SubscriptionItem) (log' : Log Hash)
      (hstart : (liveSystem cfg).Reach ⟨.starting, h, log⟩ (cfg.catchUp h n log'))
      (tail : Option (LiveStreamingState Hash) × R → Proc (Event Hash) Unit)
      (hnone : ∀ h', tail (none, h') = pure ())
      (hsome : ∀ state h',
        tail (some state, h') = cfg.streamBlocksContinuously fuel rest state h') :
      ∃ t, (liveSystem cfg).Reach ⟨.starting, h, log⟩ t ∧
        t.log = ((cfg.initializeLiveStreamingState fuel n h >>= tail).run log').2 := by
    obtain ⟨t, ht, hlog, hend⟩ := cfg.initializeLiveStreamingState_reach fuel n h log'
    rcases hrun : (cfg.initializeLiveStreamingState fuel n h).run log' with
      ⟨_ | ⟨_ | state, h'⟩, log''⟩
    all_goals rw [hrun] at hlog hend
    · rw [Proc.run_bind_none hrun]
      exact ⟨t, hstart.trans ht, hlog⟩
    · rw [Proc.run_bind_some hrun, hnone]
      exact ⟨t, hstart.trans ht, hlog⟩
    · rw [Proc.run_bind_some hrun, hsome]
      obtain ⟨u, hu, hlog'⟩ := cfg.streamBlocksContinuously_reach fuel rest state h' log''
      rw [hend state h' rfl] at ht
      exact ⟨u, (hstart.trans ht).trans hu, hlog'⟩
  unfold streamLiveBlocks
  rcases cfg.getFirstBlock_cases subscription log with
    ⟨extra, hextra, hrun⟩ | ⟨n, rest, hrel, hrun⟩
  · dsimp only
    rw [Proc.run_bind_some hrun]
    exact ⟨_, reach_stopped ⟨.starting, h, log⟩ extra hextra, rfl⟩
  · dsimp only
    rw [Proc.run_bind_some hrun]
    cases notifyAfterFirstBlock with
    | false =>
      refine hcont n rest _ (.single (LiveStep.first hrel (Or.inl rfl))) _ ?_ ?_
      · exact fun _ => rfl
      · exact fun _ _ => rfl
    | true =>
      dsimp only
      simp only [if_true]
      by_cases hopen : cfg.sender.isOpen (.received (.ok n) :: log)
      · rw [Proc.run_bind_some (by rw [run_tryStream, if_pos hopen])]
        refine hcont n rest _ (.single (LiveStep.first hrel (Or.inr rfl))) _ ?_ ?_
        · exact fun _ => rfl
        · exact fun _ _ => rfl
      · rw [Proc.run_bind_some (by rw [run_tryStream, if_neg hopen])]
        exact ⟨_, reach_stopped ⟨.starting, h, log⟩ [.received (.ok n)] (by simp),
          rfl⟩

/-- The main loop of the live stream is at its top: behind the catch-up for the first relevant
header, or behind a round that did not leave the loop. The fuel may differ from round to
round. -/
inductive LoopTop (h₀ : R) : LiveStreamingState Hash → R → Log Hash → Prop
  /-- The loop is entered. -/
  | first {fuel n : ℕ} {notice log : Log Hash} {state : LiveStreamingState Hash} {h : R} :
      cfg.streamStart ≤ cfg.confirmed n →
      notice = [] ∨ notice = [.sent (notificationItem .switchingToLive)] →
      (cfg.initializeLiveStreamingState fuel n h₀).run (notice ++ [.received (.ok n)]) =
        (some (some state, h), log) →
      LoopTop h₀ state h log
  /-- A round of the loop is over. -/
  | next {fuel : ℕ} {item : SubscriptionItem} {state state' : LiveStreamingState Hash} {h h' : R}
      {log log' : Log Hash} :
      LoopTop h₀ state h log →
      (cfg.liveIteration fuel item state h).run log = (some (some (state', h')), log') →
      LoopTop h₀ state' h' log'

/-- The tops of the main loop are reached by steps. -/
theorem LoopTop.reach {h₀ : R} (ht : LoopTop cfg h₀ state h log) :
    (liveSystem cfg).Reach ⟨.starting, h₀, []⟩ ⟨.waiting state, h, log⟩ := by
  induction ht with
  | @first fuel n notice log state h hrel hnotice hrun =>
    obtain ⟨t, ht, -, hend⟩ := cfg.initializeLiveStreamingState_reach fuel n h₀
      (notice ++ [.received (.ok n)])
    rw [hrun] at hend
    rw [hend state h rfl] at ht
    exact .head (LiveStep.first hrel hnotice) ht
  | @next fuel item state state' h h' log log' _ hrun ih =>
    obtain ⟨t, ht, -, hend⟩ := cfg.liveIteration_reach fuel item state h log
    rw [hrun] at hend
    rw [hend state' h' rfl] at ht
    exact ih.trans ht

end Runs

end LiveConfig

end Steps

end EventScanner
