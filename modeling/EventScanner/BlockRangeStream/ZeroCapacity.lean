import EventScanner.BlockRangeScanner.RewindRun
import EventScanner.BlockRangeScanner.Scanner
import EventScanner.LiveStream.Cursor
import EventScanner.SyncStream.Phases
import EventScanner.SyncStream.Rounds

set_option relaxedAutoImplicit false
set_option autoImplicit false

/-!
# A capacity of zero

A buffer of capacity `0` stores no block, which is meant to disable reorg detection. But a check
still compares its block with the chain, and falls back to the finalized block when it finds
another one: the reorg is reported and the blocks behind the finalized one are sent again. With
this capacity, as with any other, the streams report no reorg and send no block again as long as
the checks find their blocks on the chain.

## Main definitions

* `EventScanner.SendsNew` — no reorg is reported, and no block is sent again.
* `EventScanner.ChecksSee` — the condition on the reorg checks.

## Main results

* `EventScanner.BlockRangeScanner.streams_sendNew` — runs that meet the condition report no reorg
  and send no block again.
* `EventScanner.BlockRangeScanner.not_sendsNew_zeroCapacity` — a run that does both.
-/

namespace EventScanner

open HashChain EventLog

variable {Hash : Type}

/-- What is sent is no reorg, and no block that was sent before. -/
def SendsNew : Event Hash → Log Hash → Prop
  | .sent (.ok (.data r)), past => ∀ n, r.Contains n → ¬Emitted past n
  | .sent (.ok (.notification (.reorgDetected _))), _ => False
  | _, _ => True

/-- Behind `SwitchingToLive`, what is sent is no reorg, and no block that was sent before. -/
def SendsNewWhenLive (e : Event Hash) (past : Log Hash) : Prop :=
  .sent (notificationItem .switchingToLive) ∈ past → SendsNew e past

/-- A check finds its block on the chain at its first call. -/
def ChecksSee (provider : RobustProvider Hash) : Event Hash → Log Hash → Prop
  | .checked b _, past =>
    DefaultReorgHandler.Sees provider (clock (past.dropWhile Event.isRequest)) b
  | _, _ => True

instance [DecidableEq Hash] (provider : RobustProvider Hash) (e : Event Hash) (past : Log Hash) :
    Decidable (ChecksSee provider e past) :=
  match e with
  | .checked b _ =>
    inferInstanceAs (Decidable (provider.fault (clock (past.dropWhile Event.isRequest)) = none ∧
      (provider.view (clock (past.dropWhile Event.isRequest))).Canonical b))
  | .sent _ | .request _ | .received _ => .isTrue trivial

/-! ### Blocks that were sent -/

/-- All blocks that were sent satisfy `p`. -/
def SentOnly (log : Log Hash) (p : ℕ → Prop) : Prop := ∀ n, Emitted log n → p n

section SentOnly

variable {log new : Log Hash} {p q : ℕ → Prop} {r : RangeInclusive} {e : Event Hash} {k : ℕ}

/-- Silent events are nothing new. -/
lemma sendsNew_of_silent (e : Event Hash) (past : Log Hash) (h : e.Silent) : SendsNew e past := by
  match e with
  | .sent (.ok (.data _)) | .sent (.ok (.notification (.reorgDetected _))) => exact absurd h id
  | .sent (.ok (.notification .switchingToLive)) | .sent (.ok (.notification .noPastLogsFound))
  | .sent (.error _) | .request _ | .received _ | .checked _ _ => trivial

/-- A reported reorg is nothing new. -/
lemma not_sendsNew_of_mem {a : ℕ} (h : reorgItem a ∈ messages log) : ¬Always SendsNew log := by
  intro hnew
  obtain ⟨news, past, rfl⟩ := List.append_of_mem (mem_messages.mp h)
  exact always_iff.mp hnew (.sent (reorgItem a)) past (List.suffix_append news _)

/-- Silent events send no block. -/
lemma SentOnly.append (h : SentOnly log p) (hnew : SilentLog new) : SentOnly (new ++ log) p := by
  intro n hn
  unfold Emitted at hn
  rw [sentRanges_of_silent hnew] at hn
  exact h n hn

lemma SentOnly.cons (h : SentOnly log p) (he : e.Silent) : SentOnly (e :: log) p :=
  h.append (silentLog_cons.mpr ⟨he, silentLog_nil⟩)

/-- A range adds its blocks. -/
lemma SentOnly.range (h : SentOnly log p) (hpq : ∀ n, p n → q n) (hr : ∀ n, r.Contains n → q n) :
    SentOnly (.sent (dataItem r) :: log) q := by
  rintro n ⟨r', hr', hn⟩
  rcases List.mem_cons.mp hr' with rfl | hr'
  · exact hr n hn
  · exact hpq n (h n ⟨r', hr', hn⟩)

/-- A range of other blocks is new. -/
lemma SentOnly.sendsNew (h : SentOnly log p) (hr : ∀ n, r.Contains n → ¬p n) :
    SendsNew (.sent (dataItem r)) log := fun n hn hsent => hr n hn (h n hsent)

/-- Nothing was sent. -/
lemma sentOnly_of_nil (h : sentRanges log = []) : SentOnly log p := by
  rintro n ⟨r, hr, -⟩
  rw [h] at hr
  cases hr

/-- The ranges of the catch-up phase end before the live phase begins. -/
lemma CatchupLog.sentOnly (h : CatchupLog k log) : SentOnly log (· < k) := by
  induction log with
  | nil => exact sentOnly_of_nil rfl
  | cons e log ih =>
    obtain ⟨he, hlog⟩ := catchupLog_cons.mp h
    have ih := ih hlog
    match e with
    | .sent (.ok (.data r)) =>
      exact ih.range (fun _ h => h) fun n hn => Nat.lt_of_le_of_lt hn.2 he
    | .sent (.ok (.notification _)) | .sent (.error _) | .request _ | .received _
    | .checked _ _ => exact ih

/-- In the catch-up phase nothing is asked. -/
lemma CatchupLog.sendsNewWhenLive (h : CatchupLog k log) : Always SendsNewWhenLive log := by
  refine always_iff.mpr fun e past he hlive => absurd ?_ id
  exact h _ (he.subset (List.mem_cons_of_mem e hlive))

end SentOnly

/-- A check that finds its block replaced does not meet the condition. -/
lemma not_checksSee_reorg [DecidableEq Hash] {provider : RobustProvider Hash}
    {h h' : DefaultReorgHandler Hash} {b a : Block Hash} {reqs log : Log Hash}
    (hprov : h.provider = provider) (hlog : log.dropWhile Event.isRequest = log)
    (hcheck : (ReorgHandler.check h b).run log = (some (.ok (some a), h'), reqs ++ log))
    (hreqs : ∀ e ∈ reqs, e.isRequest = true) :
    ¬ChecksSee provider (.checked b (some a)) (reqs ++ log) := by
  obtain ⟨-, hmiss, -⟩ := DefaultReorgHandler.check_eq_ok_some hcheck
  have hdrop : (reqs ++ log).dropWhile Event.isRequest = log :=
    dropWhile_isRequest_append hreqs hlog
  intro hsees
  change DefaultReorgHandler.Sees provider
    (clock ((reqs ++ log).dropWhile Event.isRequest)) b at hsees
  rw [hdrop, ← hprov] at hsees
  exact hmiss.not_sees hsees

/-! ### The live stream -/

namespace LiveConfig

variable {cfg : LiveConfig Hash} {log : Log Hash}

/-- All blocks that were sent are below the next one to be sent. -/
def SentBelowNext (cfg : LiveConfig Hash) (s : LiveState Hash (DefaultReorgHandler Hash)) : Prop :=
  match s.phase with
  | .starting => s.handler.provider = cfg.provider ∧ SentOnly s.log (· < cfg.streamStart)
  | .streaming (.ready iter last) _ =>
    s.handler.provider = cfg.provider ∧ SentOnly s.log (· < iter.current) ∧
      ∀ b ∈ last, b.number + 1 = iter.current
  | .streaming (.sent iter _) _ =>
    s.handler.provider = cfg.provider ∧ SentOnly s.log (· < iter.current)
  | .waiting state =>
    s.handler.provider = cfg.provider ∧
      ∀ b ∈ state.previousBatchEnd, SentOnly s.log (· < b.number + 1)
  | .stopped => True

/-- Checks ask the node. -/
lemma SentBelowNext.provider_eq {s : LiveState Hash (DefaultReorgHandler Hash)} {b : Block Hash}
    (h : cfg.SentBelowNext s) (hchecks : Checks s b log) : s.handler.provider = cfg.provider := by
  unfold SentBelowNext at h
  cases hchecks with
  | batch hphase | header hphase =>
    rw [hphase] at h
    exact h.1

/-- The stream goes on behind the previous batch end. -/
lemma sentBelowNext_proceed {n : ℕ} {b : Block Hash} {h : DefaultReorgHandler Hash}
    (hprov : h.provider = cfg.provider) (hsent : SentOnly log (· < b.number + 1)) :
    cfg.SentBelowNext ⟨cfg.proceed n ⟨b.number + 1, some b⟩, h, log⟩ := by
  unfold proceed
  split_ifs with hlt
  · refine ⟨hprov, ?_⟩
    rintro b' ⟨⟩
    exact hsent
  · exact ⟨hprov, hsent, by simp⟩

variable [DecidableEq Hash] {s t : LiveState Hash (DefaultReorgHandler Hash)}

/-- **One step keeps the blocks that were sent below the next one**, when it meets the condition. -/
lemma sentBelowNext_step (hst : LiveStep cfg s t) (hC : Always (ChecksSee cfg.provider) t.log)
    (hcut : cfg.Cutting s) (hI : cfg.SentBelowNext s) : cfg.SentBelowNext t := by
  cases hst with
  | @first n _ _ _ hrel hnotice =>
    obtain ⟨hprov, hsent⟩ := hI
    have hreceived := hsent.cons (Event.silent_received (.ok n))
    rcases hnotice with rfl | rfl
    · exact ⟨hprov, hreceived, by simp⟩
    · exact ⟨hprov, hreceived.cons Event.silent_switchingToLive, by simp⟩
  | batch hb =>
    cases hb with
    | emit hnext =>
      obtain ⟨hprov, hsent, -⟩ := hI
      obtain ⟨hstart, hle, -, -, -, hcur, -⟩ := hcut.1.next hnext
      refine ⟨hprov, (hsent.cons (Event.silent_request _)).range (fun n hn => ?_) fun n hn => ?_⟩
      · omega
      · have hstop := hn.2
        omega
    | clean hcheck hreqs =>
      obtain ⟨hprov, hsent⟩ := hI
      refine ⟨(DefaultReorgHandler.check_provider hcheck).trans hprov, ?_, ?_⟩
      · exact (hsent.append (silentLog_of_isRequest hreqs)).cons (Event.silent_checked _ _)
      · rintro b ⟨⟩
        exact hcut.2.2.2.1.symm
    | reorg hcheck hreqs =>
      obtain ⟨-, -, -, -, r, past, hlog⟩ := hcut
      dsimp only at hlog
      subst hlog
      exact absurd hC.2.1 (not_checksSee_reorg hI.1 rfl hcheck hreqs)
  | @batchesDone iter b _ _ _ hnext =>
    obtain ⟨hprov, hsent, hlast⟩ := hI
    rw [← hlast b rfl] at hsent
    refine ⟨hprov, ?_⟩
    rintro b' ⟨⟩
    exact hsent
  | lagged | ignored =>
    exact ⟨hI.1, fun b hb => (hI.2 b hb).cons (Event.silent_received _)⟩
  | header hh =>
    obtain ⟨hprov, hsent⟩ := hI
    cases hh with
    | clean hcheck hreqs =>
      refine sentBelowNext_proceed ((DefaultReorgHandler.check_provider hcheck).trans hprov) ?_
      exact (((hsent _ rfl).cons (Event.silent_received _)).append
        (silentLog_of_isRequest hreqs)).cons (Event.silent_checked _ _)
    | reorg hcheck hreqs =>
      exact absurd hC.2.1 (not_checksSee_reorg hprov rfl hcheck hreqs)
  | stop => trivial

/-- **The live stream sends new blocks only**, from a log whose blocks are below its start, in every
run that meets the condition. -/
theorem always_streamLiveBlocks {φ : Event Hash → Log Hash → Prop}
    (hφ : ∀ e past, SendsNew e past → φ e past) (fuel : ℕ) (subscription : List SubscriptionItem)
    {h : DefaultReorgHandler Hash} (hprov : h.provider = cfg.provider)
    (notifyAfterFirstBlock : Bool) (hsent : SentOnly log (· < cfg.streamStart))
    (hlog : Always φ log)
    (hC : Always (ChecksSee cfg.provider)
      ((cfg.streamLiveBlocks fuel subscription h notifyAfterFirstBlock).run log).2) :
    Always φ ((cfg.streamLiveBlocks fuel subscription h notifyAfterFirstBlock).run log).2 := by
  obtain ⟨t, ht, heq⟩ := cfg.streamLiveBlocks_reach fuel subscription h notifyAfterFirstBlock log
  rw [← heq] at hC ⊢
  refine (LoggedSystem.safe (I := fun s => cfg.Cutting s ∧ cfg.SentBelowNext s)
    (fun s t hst hC hI hlog => ?_) ht ⟨trivial, hprov, hsent⟩ hlog hC).2
  refine ⟨⟨cutting_step hst hI.1, sentBelowNext_step hst hC hI.1 hI.2⟩, ?_⟩
  obtain ⟨hcut, hI⟩ := hI
  refine always_step_of_message (fun e past he => hφ e past (sendsNew_of_silent e past he)) hst
    ?_ ?_ hlog
  · intro iter iter' last resume batch hphase hnext
    simp only [Cutting, hphase] at hcut
    simp only [SentBelowNext, hphase] at hI
    obtain ⟨hstart, -⟩ := hcut.1.next hnext
    refine hφ _ _ ((hI.2.1.cons (Event.silent_request _)).sendsNew fun n hn => ?_)
    exact Nat.not_lt_of_le (hstart ▸ hn.1)
  · intro b a h' reqs log hchecks hcheck hreqs heq
    rw [liveSystem_log, heq] at hC
    exact absurd hC.2.1
      (not_checksSee_reorg (hI.provider_eq hchecks) (hchecks.dropWhile_eq hcut) hcheck hreqs)

end LiveConfig

/-! ### The rewind -/

section Rewind

variable {provider : RobustProvider Hash} {maxBlockRange : MaxBlockRange} {checkReorg : Bool}
  {high low : ℕ} {s t : RewindState Hash (DefaultReorgHandler Hash)}

/-- All blocks that were sent have been reached, and no reorg was reported. -/
def RewindState.SentReached (provider : RobustProvider Hash)
    (s : RewindState Hash (DefaultReorgHandler Hash)) : Prop :=
  match s.phase with
  | .rewinding reached _ =>
    s.handler.provider = provider ∧ SentOnly s.log (reached ≤ ·)
  | .checking reached _ =>
    s.handler.provider = provider ∧ SentOnly s.log (reached ≤ ·) ∧
      ∃ r past, s.log = .sent (dataItem r) :: past
  | .refetching _ _ _ | .rescanning _ _ _ _ _ => False
  | .stopped => True

variable [DecidableEq Hash]

/-- **One step sends new blocks only**, when it meets the condition: the next range ends below the
blocks that were reached. -/
lemma RewindStep.sentReached (hst : RewindStep maxBlockRange checkReorg s t)
    (hC : Always (ChecksSee provider) t.log) (hcut : s.Cutting maxBlockRange high low)
    (hI : s.SentReached provider) (hlog : Always SendsNew s.log) :
    t.SentReached provider ∧ Always SendsNew t.log := by
  cases hst with
  | @send range reached _ _ _ _ =>
    obtain ⟨hprov, hsent⟩ := hI
    obtain ⟨hstop, hle, -⟩ := hcut.2.next
    refine ⟨⟨hprov, hsent.range (fun n hn => ?_) fun n hn => hn.1, _, _, rfl⟩, ?_, hlog⟩
    · omega
    · refine hsent.sendsNew fun n hn => ?_
      have hn := hn.2
      omega
  | skip => exact ⟨⟨hI.1, hI.2.1⟩, hlog⟩
  | clean _ hcheck hreqs =>
    obtain ⟨hprov, hsent, -⟩ := hI
    refine ⟨⟨(DefaultReorgHandler.check_provider hcheck).trans hprov, ?_⟩, trivial, ?_⟩
    · exact (hsent.append (silentLog_of_isRequest hreqs)).cons (Event.silent_checked _ _)
    · exact always_append (fun e he past =>
        sendsNew_of_silent e past (Event.silent_of_isRequest (hreqs e he))) hlog
  | reorg _ hcheck hreqs =>
    obtain ⟨hprov, -, r, past, heq⟩ := hI
    dsimp only at heq
    subst heq
    exact absurd hC.2.1 (not_checksSee_reorg hprov rfl hcheck hreqs)
  | refetch | rescan | rescanned => exact hI.elim
  | stop hextra =>
    exact ⟨trivial, always_append (fun e he past => sendsNew_of_silent e past (hextra e he)) hlog⟩

/-- The rewind between two blocks. -/
lemma always_handleStreamRewind (tip toBlock : Block Hash) (maxBlockRange : MaxBlockRange)
    (sender : Sender) {h : DefaultReorgHandler Hash} (hprov : h.provider = provider)
    {log : Log Hash} (hsent : sentRanges log = []) (hlog : Always SendsNew log)
    (hC : Always (ChecksSee provider)
      ((handleStreamRewind tip toBlock maxBlockRange sender provider h).run log).2) :
    Always SendsNew
      ((handleStreamRewind tip toBlock maxBlockRange sender provider h).run log).2 := by
  obtain ⟨checkReorg, t, ht, heq, -⟩ := handleStreamRewind_reach maxBlockRange sender tip
    toBlock provider h log
  rw [← heq] at hC ⊢
  refine (LoggedSystem.safe (S := rewindSystem maxBlockRange checkReorg)
    (I := fun s => s.Cutting maxBlockRange tip.number toBlock.number ∧ s.SentReached provider)
    (fun s t hst hC hI hlog => ?_) ht ⟨RewindState.cutting_start tip toBlock h _, hprov, ?_⟩
    ⟨trivial, hlog⟩ hC).2
  · obtain ⟨hI', hlog'⟩ := RewindStep.sentReached hst hC hI.1 hI.2 hlog
    exact ⟨⟨RewindStep.cutting hst hI.1, hI'⟩, hlog'⟩
  · exact sentOnly_of_nil hsent

end Rewind

/-! ### The sync stream -/

/-- What holds wherever the blocks are new also holds behind `SwitchingToLive` only. -/
lemma SendsNew.whenLive {e : Event Hash} {past : Log Hash} (h : SendsNew e past) :
    SendsNewWhenLive e past := fun _ => h

/-- Nothing is asked of the passes of the catch-up phase, and the live phase begins above their
blocks. -/
lemma SyncHandler.phasesKeep_sendsNew [DecidableEq Hash] (self : SyncHandler Hash)
    (hprov : self.reorgHandler.provider = self.provider) :
    self.PhasesKeep CatchupLog
      (fun log => Always (ChecksSee self.provider) log → Always SendsNewWhenLive log) where
  request _ _ _ h := catchupLog_cons.mpr ⟨trivial, h⟩
  left _ _ h _ := h.sendsNewWhenLive
  error _ _ _ h _ := ⟨fun _ => trivial, h.sendsNewWhenLive⟩
  pass _ _ fuel hlt := (self.triple_pass_catchupLog hlt fuel).conseq (fun _ h => h)
    (fun _ _ h => ⟨fun _ => h.sendsNewWhenLive, fun _ => h⟩) fun _ h _ => h.sendsNewWhenLive
  live _ fuel subscription _ h hC :=
    LiveConfig.always_streamLiveBlocks (fun _ _ h => h.whenLive) fuel subscription hprov false
      (h.sentOnly.cons Event.silent_switchingToLive) ⟨fun _ => trivial, h.sendsNewWhenLive⟩ hC

/-! ### The streams -/

namespace BlockRangeScanner

variable [DecidableEq Hash] (self : BlockRangeScanner Hash)

/-- The live stream. -/
lemma streamLive_sendsNew (sender : Sender) (fuel : ℕ) (subscription : List SubscriptionItem)
    (blockConfirmations : ℕ)
    (hC : Always (ChecksSee self.provider)
      ((self.streamLive sender fuel subscription blockConfirmations).run []).2) :
    Always SendsNew ((self.streamLive sender fuel subscription blockConfirmations).run []).2 := by
  refine Proc.Triple.log_of_run (P := fun log => log = [])
    (I := fun log => Always (ChecksSee self.provider) log → Always SendsNew log) ?_ rfl hC
  refine Proc.Triple.bind (Q := fun _ log => log = [.request .blockNumber])
    (triple_call fun _ log hlog => congrArg _ hlog) fun latest => ?_
  cases latest with
  | error e => exact Proc.Triple.pure fun log hlog _ => hlog ▸ ⟨trivial, trivial⟩
  | ok latest =>
    refine Proc.Triple.bind
      (Q := fun _ log => log = [.request .subscribeBlocks, .request .blockNumber])
      (triple_call fun _ log hlog => congrArg _ hlog) fun answer => ?_
    cases answer with
    | error e => exact Proc.Triple.pure fun log hlog _ => hlog ▸ ⟨trivial, trivial, trivial⟩
    | ok u =>
      refine Proc.Triple.bind (Proc.Triple.of_log fun log hlog hC => ?_) fun _ =>
        Proc.Triple.pure fun _ hlog => hlog
      subst hlog
      exact LiveConfig.always_streamLiveBlocks (fun _ _ h => h) fuel subscription rfl false
        (sentOnly_of_nil rfl) ⟨trivial, trivial, trivial⟩ hC

/-- The sync stream: nothing is asked of its catch-up phase, and the live phase begins above the
blocks of the catch-up phase. -/
lemma streamFrom_sendsNewWhenLive (sender : Sender) (fuel : ℕ)
    (subscription : List SubscriptionItem) (startId : BlockId Hash) (blockConfirmations : ℕ)
    (hC : Always (ChecksSee self.provider)
      ((self.streamFrom sender fuel subscription startId blockConfirmations).run []).2) :
    Always SendsNewWhenLive
      ((self.streamFrom sender fuel subscription startId blockConfirmations).run []).2 := by
  refine (SyncHandler.phasesKeep_sendsNew _ rfl).run fuel subscription (fun _ => ?_)
    (fun start _ => ?_) (fun start _ hC => ?_) hC
  · exact ⟨fun _ => trivial, fun _ => trivial, trivial⟩
  · exact catchupLog_cons.mpr ⟨trivial, catchupLog_nil⟩
  · exact LiveConfig.always_streamLiveBlocks (fun _ _ h => h.whenLive) fuel subscription rfl true
      (sentOnly_of_nil rfl) ⟨fun _ => trivial, fun _ => trivial, fun _ => trivial, trivial⟩ hC

/-- The rewind. -/
lemma streamRewind_sendsNew (sender : Sender) (startId endId : BlockId Hash)
    (hC : Always (ChecksSee self.provider) ((self.streamRewind sender startId endId).run []).2) :
    Always SendsNew ((self.streamRewind sender startId endId).run []).2 := by
  refine Proc.Triple.log_of_run (P := fun log => log = [])
    (I := fun log => Always (ChecksSee self.provider) log → Always SendsNew log) ?_ rfl hC
  refine Proc.Triple.bind (Q := fun _ log => log = [.request (.block startId)])
    (triple_call fun _ log hlog => congrArg _ hlog) fun startBlock => ?_
  refine Proc.Triple.bind
    (Q := fun _ log => log = [.request (.block endId), .request (.block startId)])
    (triple_call fun _ log hlog => congrArg _ hlog) fun endBlock => ?_
  have hleft : Always SendsNew ([.request (.block endId), .request (.block startId)] : Log Hash) :=
    ⟨trivial, trivial, trivial⟩
  rcases startBlock with e | startBlock
  · exact Proc.Triple.pure fun log hlog _ => hlog ▸ hleft
  rcases endBlock with e | endBlock
  · exact Proc.Triple.pure fun log hlog _ => hlog ▸ hleft
  dsimp only
  have hprov : (DefaultReorgHandler.new self.provider self.pastBlocksStorageCapacity).provider =
      self.provider := rfl
  refine Proc.Triple.bind (Proc.Triple.of_log fun log hlog hC => ?_) fun _ =>
    Proc.Triple.pure fun _ hlog => hlog
  exact always_handleStreamRewind _ _ _ sender hprov (hlog ▸ rfl) (hlog ▸ hleft) hC

/-- **The streams report no reorg and send no block again as long as their checks find the checked
blocks on the chain.** For the sync stream this is about its live phase. The capacity of the buffer
makes no difference: with capacity zero the condition is the same. -/
theorem streams_sendNew (sender : Sender) (fuel : ℕ) (subscription : List SubscriptionItem)
    (blockConfirmations : ℕ) (result : Option (Except ScannerError Unit)) (log : Log Hash)
    (hC : Always (ChecksSee self.provider) log) :
    ((self.streamLive sender fuel subscription blockConfirmations).run [] = (result, log) →
        Always SendsNew log) ∧
      (∀ startId,
        (self.streamFrom sender fuel subscription startId blockConfirmations).run [] =
          (result, log) →
        Always SendsNewWhenLive log) ∧
      ∀ startId endId, (self.streamRewind sender startId endId).run [] = (result, log) →
        Always SendsNew log := by
  refine ⟨fun hrun => ?_, fun startId hrun => ?_, fun startId endId hrun => ?_⟩
  all_goals obtain rfl : _ = log := congrArg Prod.snd hrun
  · exact self.streamLive_sendsNew sender fuel subscription blockConfirmations hC
  · exact self.streamFrom_sendsNewWhenLive sender fuel subscription startId blockConfirmations hC
  · exact self.streamRewind_sendsNew sender startId endId hC

/-! ### A reorg with a capacity of zero -/

/-- A scanner without a buffer over a chain of which block `2` is replaced before the call with the
given number. -/
def bufferless (k : ℕ) : BlockRangeScanner ℕ where
  provider := .healthy (switchAt k (.ofHashes 0 [1, 2, 3] 0) (.ofHashes 0 [1, 12, 13] 0))
  maxBlockRange := defaultMaxBlockRange
  pastBlocksStorageCapacity := .limited 0

/-- The log of a live stream with two confirmations. -/
def bufferlessLiveLog (k : ℕ) : Log ℕ :=
  (((bufferless k).streamLive ⟨none⟩ 5 [.ok 4, .ok 5] 2).run []).2

/-- The log of a sync stream from block `0` on with two confirmations. -/
def bufferlessSyncLog (k : ℕ) : Log ℕ :=
  (((bufferless k).streamFrom ⟨none⟩ 5 [.ok 4, .ok 5] (.number (.number 0)) 2).run []).2

/-- The log of a rewind from block `3` to block `1`. -/
def bufferlessRewindLog (k : ℕ) : Log ℕ :=
  (((bufferless k).streamRewind ⟨none⟩ (.number (.number 1)) (.number (.number 3))).run []).2

/-- The blocks are replaced before one of them is sent: the streams send the new ones only. -/
theorem streams_sendNew_replacedEarly :
    Always SendsNew (bufferlessLiveLog 2) ∧ Always SendsNewWhenLive (bufferlessSyncLog 7) ∧
      Always SendsNew (bufferlessRewindLog 1) :=
  ⟨((bufferless 2).streams_sendNew ⟨none⟩ 5 [.ok 4, .ok 5] 2 _ _ (by decide)).1 rfl,
    ((bufferless 7).streams_sendNew ⟨none⟩ 5 [.ok 4, .ok 5] 2 _ _ (by decide)).2.1
      (.number (.number 0)) rfl,
    ((bufferless 1).streams_sendNew ⟨none⟩ 5 [] 0 _ _ (by decide)).2.2 (.number (.number 1))
      (.number (.number 3)) rfl⟩

/-- Block `2` is replaced behind its check: the live stream reports a reorg and sends it again. -/
theorem not_sendsNew_zeroCapacity :
    (bufferless 4).pastBlocksStorageCapacity = .limited 0 ∧
      FinalityKept (bufferless 4).provider.view ∧
      messages (bufferlessLiveLog 4) = [dataItem ⟨2, 2⟩, reorgItem 0, dataItem ⟨2, 3⟩] ∧
      ¬Always SendsNew (bufferlessLiveLog 4) := by
  have hmessages : messages (bufferlessLiveLog 4) =
      [dataItem ⟨2, 2⟩, reorgItem 0, dataItem ⟨2, 3⟩] := rfl
  refine ⟨rfl, finalityKept_switchAt (by decide), hmessages, not_sendsNew_of_mem (a := 0) ?_⟩
  simp [hmessages]

end BlockRangeScanner

end EventScanner
