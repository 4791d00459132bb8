import EventScanner.BlockRangeScanner.Scanner
import EventScanner.SyncStream.Phases

set_option relaxedAutoImplicit false
set_option autoImplicit false

/-!
# Errors are terminal on a block-range stream

A stream that has sent an error, other than that it lags, sends nothing more. The handlers leave
their loops in different ways when they have sent one. One way does not reach the caller: the
historical handler takes an end block it cannot read again for one that is still there, so a sync
stream goes on behind the error of a catch-up pass.

## Main definitions

* `EventScanner.NothingBehindErrors` — nothing is sent behind a terminal error.
* `EventScanner.RereadsSucceed` — the end block of a catch-up pass can be read again.

## Main results

* `EventScanner.BlockRangeScanner.stream_errorsTerminal` — errors are terminal on every stream, on
  a sync stream if the condition holds.
* `EventScanner.BlockRangeScanner.not_errorsTerminal_failedReread` — a sync stream that goes on
  behind an error.
-/

namespace EventScanner

open HashChain EventLog

variable {Hash R : Type}

/-- The event sends a terminal error. -/
def Event.isTerminal : Event Hash → Bool
  | .sent (.error e) => e.isTerminal
  | .sent (.ok _) | .request _ | .received _ | .checked _ _ => false

/-- Nothing is sent behind a terminal error. -/
def NothingBehindErrors : Event Hash → Log Hash → Prop
  | .sent _, past => ∀ e ∈ past, e.isTerminal = false
  | _, _ => True

instance (e : Event Hash) (past : Log Hash) : Decidable (NothingBehindErrors e past) :=
  match e with
  | .sent _ => inferInstanceAs (Decidable (∀ e ∈ past, e.isTerminal = false))
  | .request _ | .received _ | .checked _ _ => .isTrue trivial

/-- The last provider call. -/
def lastRequest : Log Hash → Option (Request Hash)
  | [] => none
  | .request r :: _ => some r
  | _ :: log => lastRequest log

/-- The call asks for the block at a height or behind a tag. -/
def Request.isBlockByNumber : Request Hash → Bool
  | .blockByNumber _ => true
  | .blockNumber | .blockNumberById _ | .block _ | .subscribeBlocks => false

/-- A pass of the historical handler reads its end block again: the last call has read it, and the
stream has not gone over to the live phase. -/
def Rereading (log : Log Hash) : Prop :=
  (lastRequest log).any Request.isBlockByNumber = true ∧
    .sent (notificationItem .switchingToLive) ∉ log

instance [DecidableEq Hash] (log : Log Hash) : Decidable (Rereading log) :=
  inferInstanceAs (Decidable (_ ∧ _))

/-- The answer is no terminal error. -/
def NoTerminalError {α : Type} : Except RobustProviderError α → Prop
  | .ok _ => True
  | .error e => (ScannerError.ofProvider e).isTerminal = false

instance {α : Type} (answer : Except RobustProviderError α) : Decidable (NoTerminalError answer) :=
  match answer with
  | .ok _ => .isTrue trivial
  | .error e => inferInstanceAs (Decidable ((ScannerError.ofProvider e).isTerminal = false))

/-- When a pass of the historical handler reads its end block again, that does not fail. -/
def RereadsSucceed (provider : RobustProvider Hash) : Event Hash → Log Hash → Prop
  | .request (.blockByNumber tag), past =>
    Rereading past → NoTerminalError (provider.answer (clock past)
      (provider.findTag (clock past) tag))
  | _, _ => True

instance [DecidableEq Hash] (provider : RobustProvider Hash) (e : Event Hash) (past : Log Hash) :
    Decidable (RereadsSucceed provider e past) :=
  match e with
  | .request (.blockByNumber tag) =>
    inferInstanceAs (Decidable (Rereading past → NoTerminalError (provider.answer (clock past)
      (provider.findTag (clock past) tag))))
  | .request .blockNumber | .request (.blockNumberById _) | .request (.block _)
  | .request .subscribeBlocks | .received _ | .checked _ _ | .sent _ => .isTrue trivial

/-- No terminal error has been sent. -/
def Clean (log : Log Hash) : Prop := ∀ e ∈ log, e.isTerminal = false

/-- Where a function that may stop the stream leaves it: it goes on without an error so far, or
errors have been terminal and it is over. -/
def CleanIf (goesOn : Bool) (log : Log Hash) : Prop :=
  if goesOn then Clean log else Always NothingBehindErrors log

section Clean

variable {log reqs : Log Hash} {e : Event Hash} {E : Log Hash → Prop}

lemma clean_nil : Clean ([] : Log Hash) := by simp [Clean]

lemma clean_cons : Clean (e :: log) ↔ e.isTerminal = false ∧ Clean log := by simp [Clean]

/-- Provider calls are no errors. -/
lemma Clean.append (h : Clean log) (hreqs : ∀ e ∈ reqs, e.isRequest = true) :
    Clean (reqs ++ log) := by
  intro e he
  rcases List.mem_append.mp he with he | he
  · have hreq := hreqs e he
    cases e with
    | request r => rfl
    | received | checked | sent => simp at hreq
  · exact h e he

/-- Without an error nothing is sent behind one. -/
lemma Clean.always (h : Clean log) : Always NothingBehindErrors log := by
  refine always_iff.mpr fun e past hpast => ?_
  cases e with
  | sent item => exact fun e he => h e (hpast.subset (List.mem_cons_of_mem _ he))
  | request | received | checked => trivial

lemma Clean.cleanIf (h : Clean log) (goesOn : Bool) : CleanIf goesOn log := by
  cases goesOn with
  | true => exact h
  | false => exact h.always

/-- Behind an error without one before it errors have been terminal. -/
lemma Clean.sent (h : Clean log) (item : BlockScannerResult) :
    Always NothingBehindErrors (.sent item :: log) := ⟨h, h.always⟩

/-! ### What is sent -/

/-- A provider call. -/
lemma clean_call {α : Type} {provider : RobustProvider Hash} {r : Request Hash}
    {find : ℕ → Chain Hash → Option α} :
    Proc.Triple (Clean : Log Hash → Prop) (call provider r find) (fun _ => Clean) E :=
  triple_call fun _ _ h => clean_cons.mpr ⟨rfl, h⟩

/-- A message is no error. -/
lemma clean_tryStream {sender : Sender} {message : ScannerMessage RangeInclusive} :
    Proc.Triple (Clean : Log Hash → Prop) (tryStream sender (.ok message)) (fun _ => Clean) E :=
  triple_tryStream (fun _ h => clean_cons.mpr ⟨rfl, h⟩) fun _ h => h

/-- An error is sent as the last item, or not at all. -/
lemma clean_tryStream_error {sender : Sender} {e : ScannerError} :
    Proc.Triple (Clean : Log Hash → Prop) (tryStream sender (.error e))
      (fun _ => Always NothingBehindErrors) E :=
  triple_tryStream (fun _ h => h.sent _) fun _ h => h.always

/-- A reorg check sends nothing. -/
lemma clean_checkBlock [ReorgHandler Hash R] {h : R} {b : Block Hash} :
    Proc.Triple (Clean : Log Hash → Prop) (checkBlock h b) (fun _ => Clean) E := by
  intro log hlog
  obtain ⟨h', reqs, hreqs, ⟨e, -, hrun⟩ | ⟨a, -, hrun⟩⟩ := checkBlock_cases h b log <;> rw [hrun]
  · exact hlog.append hreqs
  · exact clean_cons.mpr ⟨rfl, hlog.append hreqs⟩

/-- An error is sent, and the stream is over. -/
lemma clean_error {α : Type} {sender : Sender} {e : ScannerError} {a : α} (goesOn : α → Bool)
    (hstop : goesOn a = false) :
    Proc.Triple (Clean : Log Hash → Prop) (tryStream sender (.error e) >>= fun _ => pure a)
      (fun a => CleanIf (goesOn a)) E := by
  refine Proc.Triple.bind clean_tryStream_error fun _ => Proc.Triple.pure fun log h => ?_
  rw [hstop]
  exact h

end Clean

/-! ### The live stream -/

section Live

variable [ReorgHandler Hash R]

/-- The batch loop: without a last batch end it has been left, or it did nothing.

**Proof sketch.** Induction on the fuel. Every round sends messages only, unless it sends an error
and leaves the loop. -/
lemma clean_streamBatches (sender : Sender) (provider : RobustProvider Hash)
    (minCommonAncestor fuel : ℕ) (iter : RangeIterator .forward) (last : Option (Block Hash))
    (h : R) :
    Proc.Triple Clean (streamBatches sender provider minCommonAncestor fuel iter last h)
      (fun res => CleanIf res.1.isSome) (Always NothingBehindErrors) := by
  induction fuel generalizing iter last h with
  | zero => exact Proc.Triple.halt fun _ h => h.always
  | succ fuel ih =>
    unfold streamBatches
    rcases iter.next with _ | ⟨batch, iter'⟩
    · exact Proc.Triple.pure fun _ h => h.cleanIf _
    · refine Proc.Triple.bind clean_call fun answer => ?_
      cases answer with
      | error e => exact clean_error (fun res : Option (Block Hash) × R => res.1.isSome) rfl
      | ok batchEnd =>
        refine Proc.Triple.bind clean_tryStream fun channel => ?_
        cases channel with
        | closed => exact Proc.Triple.pure fun _ h => h.always
        | opened =>
          refine Proc.Triple.bind clean_checkBlock fun result => ?_
          rcases result with ⟨e | _ | commonAncestor, h'⟩
          · exact clean_error (fun res : Option (Block Hash) × R => res.1.isSome) rfl
          · exact ih iter' _ h'
          · refine Proc.Triple.bind clean_tryStream fun channel => ?_
            cases channel with
            | closed => exact Proc.Triple.pure fun _ h => h.always
            | opened => exact ih _ _ h'

/-- The wait for the first relevant header. -/
lemma clean_getFirstBlock (sender : Sender) (stream : List SubscriptionItem) :
    Proc.Triple (Clean : Log Hash → Prop) (getFirstBlock sender stream)
      (fun res => CleanIf res.isSome) (Always NothingBehindErrors) := by
  induction stream with
  | nil => exact Proc.Triple.pure fun _ h => h.always
  | cons item rest ih =>
    match item with
    | .ok block =>
      refine Proc.Triple.bind (Q := fun _ => Clean)
        (Proc.Triple.emit fun _ h => clean_cons.mpr ⟨rfl, h⟩) fun _ => ?_
      exact Proc.Triple.pure fun _ h => h
    | .error (.lagged _) => exact ih
    | .error .timeout | .error (.rpcError _) | .error .closed | .error .blockNotFound =>
      exact clean_error Option.isSome rfl

namespace LiveConfig

variable (cfg : LiveConfig Hash)

/-- The catch-up on the blocks up to the first header. -/
lemma clean_initializeLiveStreamingState (fuel firstBlock : ℕ) (h : R) :
    Proc.Triple Clean (cfg.initializeLiveStreamingState fuel firstBlock h)
      (fun res => CleanIf res.1.isSome) (Always NothingBehindErrors) := by
  refine Proc.Triple.bind (clean_streamBatches _ _ _ _ _ _ _) fun result => ?_
  rcases result with ⟨_ | previousBatchEnd, h'⟩ <;> exact Proc.Triple.pure fun _ h => h

/-- The batch up to the confirmed block. -/
lemma clean_streamUpTo (fuel incomingBlock : ℕ) (state : LiveStreamingState Hash) (h : R) :
    Proc.Triple Clean (cfg.streamUpTo fuel incomingBlock state h)
      (fun res => CleanIf res.isSome) (Always NothingBehindErrors) := by
  refine Proc.Triple.bind (Q := fun res => CleanIf (!res.1.isClosed)) ?_ fun result => ?_
  · unfold streamNextBatch
    split_ifs
    · exact Proc.Triple.pure fun _ h => h
    · refine Proc.Triple.bind (clean_streamBatches _ _ _ _ _ _ _) fun result => ?_
      rcases result with ⟨_ | previousBatchEnd, h'⟩ <;> exact Proc.Triple.pure fun _ h => h
  · rcases result with ⟨_ | _, _⟩ <;> exact Proc.Triple.pure fun _ h => h

/-- A round of the main loop. -/
lemma clean_liveIteration (fuel : ℕ) (item : SubscriptionItem) (state : LiveStreamingState Hash)
    (h : R) :
    Proc.Triple Clean (cfg.liveIteration fuel item state h)
      (fun res => CleanIf res.isSome) (Always NothingBehindErrors) := by
  refine Proc.Triple.bind (Q := fun _ => Clean)
    (Proc.Triple.emit fun _ h => clean_cons.mpr ⟨rfl, h⟩) fun _ => ?_
  match item with
  | .error (.lagged _) => exact Proc.Triple.pure fun _ h => h
  | .error .timeout | .error (.rpcError _) | .error .closed | .error .blockNotFound =>
    exact clean_error Option.isSome rfl
  | .ok incomingBlock =>
    rcases state with ⟨batchStart, _ | previousBatchEnd⟩
    · exact Proc.Triple.pure fun _ h => h
    · refine Proc.Triple.bind clean_checkBlock fun result => ?_
      rcases result with ⟨e | _ | commonAncestor, h'⟩
      · exact clean_error Option.isSome rfl
      · exact cfg.clean_streamUpTo _ _ _ _
      · refine Proc.Triple.bind (Q := fun _ => Clean) ?_ fun handled => ?_
        · refine Proc.Triple.bind clean_tryStream fun channel => ?_
          cases channel with
          | closed => exact Proc.Triple.pure fun _ h => h
          | opened =>
            dsimp only [ChannelState.isClosed]
            split_ifs <;> first | contradiction | exact Proc.Triple.pure fun _ h => h
        · rcases handled with ⟨_ | _, state'⟩
          · exact cfg.clean_streamUpTo _ _ _ _
          · exact Proc.Triple.pure fun _ h => h.always

/-- The main loop. -/
lemma clean_streamBlocksContinuously (fuel : ℕ) (stream : List SubscriptionItem)
    (state : LiveStreamingState Hash) (h : R) :
    Proc.Triple Clean (cfg.streamBlocksContinuously fuel stream state h)
      (fun _ => Always NothingBehindErrors) (Always NothingBehindErrors) := by
  induction stream generalizing state h with
  | nil => exact Proc.Triple.pure fun _ h => h.always
  | cons item stream ih =>
    refine Proc.Triple.bind (cfg.clean_liveIteration fuel item state h) fun result => ?_
    rcases result with _ | ⟨state', h'⟩
    · exact Proc.Triple.pure fun _ h => h
    · exact ih state' h'

/-- **Errors are terminal on the live stream.** -/
theorem clean_streamLiveBlocks (fuel : ℕ) (subscription : List SubscriptionItem) (h : R)
    (notifyAfterFirstBlock : Bool) :
    Proc.Triple Clean (cfg.streamLiveBlocks fuel subscription h notifyAfterFirstBlock)
      (fun _ => Always NothingBehindErrors) (Always NothingBehindErrors) := by
  refine Proc.Triple.bind (clean_getFirstBlock _ _) fun result => ?_
  rcases result with _ | ⟨firstBlock, stream⟩
  · exact Proc.Triple.pure fun _ h => h
  · cases notifyAfterFirstBlock
    case' false => refine Proc.Triple.bind (Q := fun _ => Clean) (Proc.Triple.pure fun _ h => h) ?_
    case' true => refine Proc.Triple.bind clean_tryStream ?_
    all_goals
      intro channel
      cases channel with
      | closed => exact Proc.Triple.pure fun _ h => h.always
      | opened =>
        refine Proc.Triple.bind (cfg.clean_initializeLiveStreamingState _ _ _) fun initial => ?_
        rcases initial with ⟨_ | state, h'⟩
        · exact Proc.Triple.pure fun _ h => h
        · exact cfg.clean_streamBlocksContinuously _ _ _ _

end LiveConfig

end Live

/-! ### The historical stream -/

/-- A catch-up pass, or a historical stream, that has not sent an error. -/
def CatchingUp (log : Log Hash) : Prop :=
  Clean log ∧ .sent (notificationItem .switchingToLive) ∉ log

/-- The same when the end block was read last. -/
def Reading (log : Log Hash) : Prop :=
  CatchingUp log ∧ (lastRequest log).any Request.isBlockByNumber = true

section CatchingUp

variable {log : Log Hash}

lemma catchingUp_nil : CatchingUp ([] : Log Hash) := ⟨clean_nil, by simp⟩

lemma CatchingUp.request (h : CatchingUp log) (r : Request Hash) :
    CatchingUp (.request r :: log) :=
  ⟨clean_cons.mpr ⟨rfl, h.1⟩, by simpa using h.2⟩

lemma CatchingUp.sent {item : BlockScannerResult} (h : CatchingUp log)
    (hterminal : (Event.sent item : Event Hash).isTerminal = false)
    (hitem : item ≠ notificationItem .switchingToLive) : CatchingUp (.sent item :: log) :=
  ⟨clean_cons.mpr ⟨hterminal, h.1⟩, by simpa using ⟨hitem.symm, h.2⟩⟩

lemma Reading.sent {item : BlockScannerResult} (h : Reading log)
    (hterminal : (Event.sent item : Event Hash).isTerminal = false)
    (hitem : item ≠ notificationItem .switchingToLive) : Reading (.sent item :: log) :=
  ⟨h.1.sent hterminal hitem, h.2⟩

/-- The end block is read again. -/
lemma Reading.request (h : Reading log) (tag : BlockNumberOrTag) :
    Reading (.request (.blockByNumber tag) :: log) := ⟨h.1.request _, rfl⟩

end CatchingUp

/-- Where the historical handler leaves the stream: errors have been terminal, and if it says that
the channel is open and no second read has failed, the stream can go on. -/
def PassedBy (provider : RobustProvider Hash) (goesOn : Prop) (log : Log Hash) : Prop :=
  Always NothingBehindErrors log ∧
    (goesOn → Always (RereadsSucceed provider) log → CatchingUp log)

namespace HistoricalRangeHandler

variable [DecidableEq Hash] (self : HistoricalRangeHandler Hash)

/-- The second read of the end block. An error is sent as the last item, or the stream goes on if it
is not terminal. -/
lemma clean_getReorgedEndBlock (endBlock : Block Hash) (E : Log Hash → Prop) :
    Proc.Triple Reading (self.getReorgedEndBlock endBlock)
      (fun res log => PassedBy self.provider True log ∧ (res.isSome → Reading log)) E := by
  intro log hlog
  have hread := hlog.request (.number endBlock.number)
  unfold getReorgedEndBlock getBlockByNumber
  rw [Proc.run_bind_some (run_call ..)]
  cases hanswer : self.provider.answer (clock log)
      (self.provider.findTag (clock log) (.number endBlock.number)) with
  | error e =>
    dsimp only
    by_cases hopen : self.sender.isOpen (.request (.blockByNumber (.number endBlock.number)) :: log)
    · rw [Proc.run_bind_some (by rw [run_tryStream, if_pos hopen])]
      refine ⟨⟨hread.1.1.sent _, fun _ hC => ?_⟩, by simp⟩
      have hterminal : NoTerminalError (Except.error e : Except RobustProviderError (Block Hash)) :=
        hanswer ▸ hC.2.1 ⟨hlog.2, hlog.1.2⟩
      exact hread.1.sent hterminal (by simp)
    · rw [Proc.run_bind_some (by rw [run_tryStream, if_neg hopen])]
      exact ⟨⟨hread.1.1.always, fun _ _ => hread.1⟩, by simp⟩
  | ok newEndBlock =>
    dsimp only
    split_ifs <;> exact ⟨⟨hread.1.1.always, fun _ _ => hread.1⟩, fun _ => hread⟩

/-- The loop over the part that is not finalized.

**Proof sketch.** Induction on the fuel. The loop goes on only behind a second read that has
succeeded. -/
lemma clean_streamUntilStable (nonFinalizedStart minCommonAncestor fuel : ℕ)
    (endBlock : Block Hash) :
    Proc.Triple Reading
      (self.streamUntilStable nonFinalizedStart minCommonAncestor fuel endBlock)
      (fun channel => PassedBy self.provider (channel = .opened)) (Always NothingBehindErrors) := by
  induction fuel generalizing endBlock with
  | zero => exact Proc.Triple.halt fun _ h => h.1.1.always
  | succ fuel ih =>
    refine Proc.Triple.bind (Q := fun _ => Reading) ?_ fun channel => ?_
    · exact triple_streamRanges_of_sent fun range _ log h => h.sent rfl (by simp)
    · cases channel with
      | closed => exact Proc.Triple.pure fun _ h => ⟨h.1.1.always, by simp⟩
      | opened =>
        refine Proc.Triple.bind (self.clean_getReorgedEndBlock endBlock _) fun res => ?_
        cases res with
        | none => exact Proc.Triple.pure fun _ h => ⟨h.1.1, fun _ => h.1.2 trivial⟩
        | some newEndBlock =>
          refine Proc.Triple.bind (Q := fun _ => Reading)
            (triple_tryStream (fun _ h => (h.2 rfl).sent rfl (by simp)) fun _ h => h.2 rfl)
            fun channel => ?_
          cases channel with
          | closed => exact Proc.Triple.pure fun _ h => ⟨h.1.1.always, by simp⟩
          | opened => exact ih newEndBlock

/-- **Errors are terminal on the historical stream**, and behind it if no second read has failed. -/
theorem clean_handleStreamHistoricalRange (fuel : ℕ) :
    Proc.Triple CatchingUp (self.handleStreamHistoricalRange fuel)
      (fun channel => PassedBy self.provider (channel = .opened)) (Always NothingBehindErrors) := by
  refine Proc.Triple.bind (Q := fun _ => CatchingUp) ?_ fun res => ?_
  · refine Proc.Triple.bind (Q := fun _ => CatchingUp)
      (triple_call fun _ _ h => h.request _) fun finalized => ?_
    refine Proc.Triple.bind (Q := fun _ => CatchingUp) ?_ fun channel => ?_
    · exact triple_streamRanges_of_sent fun range _ log h => h.sent rfl (by simp)
    · cases channel <;> exact Proc.Triple.pure fun _ h => h
  · rcases res with _ | ⟨nonFinalizedStart, finalizedBlockNum⟩
    · exact Proc.Triple.pure fun _ h => ⟨h.1.always, by simp⟩
    · dsimp only
      split_ifs
      · exact Proc.Triple.pure fun _ h => ⟨h.1.always, fun _ _ => h⟩
      · refine Proc.Triple.bind (Q := fun _ => Reading)
          (triple_call fun _ _ h => ⟨h.request _, rfl⟩) fun answer => ?_
        cases answer with
        | ok endBlock => exact self.clean_streamUntilStable _ _ fuel endBlock
        | error e =>
          refine Proc.Triple.bind (Q := fun _ => Always NothingBehindErrors)
            (triple_tryStream (fun _ h => h.1.1.sent _) fun _ h => h.1.1.always) fun _ => ?_
          exact Proc.Triple.pure fun _ h => ⟨h, by simp⟩

end HistoricalRangeHandler

/-! ### The sync stream -/

namespace SyncHandler

variable [DecidableEq Hash] (self : SyncHandler Hash)

/-- Both phases keep errors terminal, if no second read of a catch-up pass fails. -/
lemma phasesKeep_clean : self.PhasesKeep
    (fun _ log => Always (RereadsSucceed self.provider) log → CatchingUp log)
    (fun log => Always (RereadsSucceed self.provider) log → Always NothingBehindErrors log) where
  request k r log h hC := (h hC.2).request r
  left k log h hC := (h hC).1.always
  error k e log h hC := (h hC.2).1.sent _
  pass k tip fuel _ :=
    ((HistoricalRangeHandler.clean_handleStreamHistoricalRange _ fuel).assuming
      (RereadsSucceed self.provider)).conseq (fun _ h => h)
      (fun _ _ h => ⟨fun hC => (h hC).1, fun hopen hC => (h hC).2 hopen hC⟩) fun _ h => h
  live k fuel subscription log h hC := by
    have hC' : Always (RereadsSucceed self.provider) log :=
      hC.of_suffix ((List.suffix_cons _ _).trans (Proc.grows _ _))
    exact Proc.Triple.log_of_run (LiveConfig.clean_streamLiveBlocks _ _ _ _ _)
      (clean_cons.mpr ⟨rfl, (h hC').1⟩)

/-- **Errors are terminal on the sync stream**, if no second read of a catch-up pass fails. -/
theorem clean_run (fuel : ℕ) (subscription : List SubscriptionItem)
    (hC : Always (RereadsSucceed self.provider) ((self.run fuel subscription).run []).2) :
    Always NothingBehindErrors ((self.run fuel subscription).run []).2 := by
  have hresolved : CatchingUp [.request (.blockNumberById self.startId)] :=
    catchingUp_nil.request _
  refine self.phasesKeep_clean.run fuel subscription (fun _ => ?_) (fun _ _ _ => hresolved)
    (fun start _ _ => ?_) hC
  · exact (hresolved.request _).1.always
  · exact Proc.Triple.log_of_run (LiveConfig.clean_streamLiveBlocks _ _ _ _ _)
      ((hresolved.request _).request _).1

end SyncHandler

/-! ### The rewind stream -/

/-- The rescan behind a reorg. -/
lemma clean_handleReorgRescan (tip commonAncestor : Block Hash) (maxBlockRange : MaxBlockRange)
    (sender : Sender) (provider : RobustProvider Hash) :
    Proc.Triple Clean (handleReorgRescan tip commonAncestor maxBlockRange sender provider)
      (fun res => CleanIf (!res.1.isClosed)) (Always NothingBehindErrors) := by
  refine Proc.Triple.bind clean_tryStream fun channel => ?_
  cases channel with
  | closed => exact Proc.Triple.pure fun _ h => h.always
  | opened =>
    refine Proc.Triple.bind clean_call fun answer => ?_
    cases answer with
    | error e => exact clean_error (fun res : ChannelState × Block Hash => !res.1.isClosed) rfl
    | ok newTip =>
      refine Proc.Triple.bind (Q := fun _ => Clean) ?_ fun channel =>
        Proc.Triple.pure fun _ h => h.cleanIf _
      exact triple_streamRanges_of_sent fun _ _ _ h => clean_cons.mpr ⟨rfl, h⟩

/-- The ranges of the rewind stream.

**Proof sketch.** Induction on the ranges. -/
lemma clean_rewindRanges [ReorgHandler Hash R] (maxBlockRange : MaxBlockRange) (sender : Sender)
    (provider : RobustProvider Hash) (checkReorg : Bool) (ranges : List RangeInclusive)
    (tip : Block Hash) (h : R) :
    Proc.Triple Clean (rewindRanges maxBlockRange sender provider checkReorg ranges tip h)
      (fun _ => Always NothingBehindErrors) (Always NothingBehindErrors) := by
  induction ranges generalizing tip h with
  | nil => exact Proc.Triple.pure fun _ h => h.always
  | cons range ranges ih =>
    refine Proc.Triple.bind clean_tryStream fun channel => ?_
    cases channel with
    | closed => exact Proc.Triple.pure fun _ h => h.always
    | opened =>
      cases checkReorg with
      | false => exact ih tip h
      | true =>
        refine Proc.Triple.bind clean_checkBlock fun result => ?_
        rcases result with ⟨e | _ | commonAncestor, h'⟩
        · exact Proc.Triple.bind clean_tryStream_error fun _ => Proc.Triple.pure fun _ h => h
        · exact ih tip h'
        · refine Proc.Triple.bind (clean_handleReorgRescan _ _ _ _ _) fun rescan => ?_
          rcases rescan with ⟨_ | _, newTip⟩
          · exact ih newTip h'
          · exact Proc.Triple.pure fun _ h => h

/-- **Errors are terminal on the rewind stream.** -/
theorem clean_runRewind [DecidableEq Hash] (handler : RewindHandler Hash) :
    Proc.Triple Clean handler.run (fun _ => Always NothingBehindErrors)
      (Always NothingBehindErrors) := by
  refine Proc.Triple.bind clean_call fun startBlock => ?_
  refine Proc.Triple.bind clean_call fun endBlock => ?_
  rcases startBlock with e | startBlock
  · exact Proc.Triple.pure fun _ h => h.always
  rcases endBlock with e | endBlock
  · exact Proc.Triple.pure fun _ h => h.always
  refine Proc.Triple.bind (Q := fun _ => Always NothingBehindErrors) ?_ fun _ =>
    Proc.Triple.pure fun _ h => h
  exact Proc.Triple.bind clean_call fun _ => clean_rewindRanges _ _ _ _ _ _ _

/-! ### All streams -/

namespace BlockRangeScanner

variable [DecidableEq Hash] (self : BlockRangeScanner Hash)

/-- **Errors are terminal when a live stream is opened.** -/
theorem clean_streamLive (sender : Sender) (fuel : ℕ) (subscription : List SubscriptionItem)
    (blockConfirmations : ℕ) :
    Proc.Triple Clean (self.streamLive sender fuel subscription blockConfirmations)
      (fun _ => Always NothingBehindErrors) (Always NothingBehindErrors) := by
  refine Proc.Triple.bind clean_call fun latest => ?_
  cases latest with
  | error e => exact Proc.Triple.pure fun _ h => h.always
  | ok latest =>
    refine Proc.Triple.bind clean_call fun answer => ?_
    cases answer with
    | error e => exact Proc.Triple.pure fun _ h => h.always
    | ok _ =>
      exact Proc.Triple.bind (LiveConfig.clean_streamLiveBlocks _ _ _ _ _) fun _ =>
        Proc.Triple.pure fun _ h => h

/-- **Errors are terminal when a historical stream is opened.** -/
theorem clean_streamHistorical (sender : Sender) (fuel : ℕ) (startId endId : BlockId Hash) :
    Proc.Triple CatchingUp (self.streamHistorical sender fuel startId endId)
      (fun _ => Always NothingBehindErrors) (Always NothingBehindErrors) := by
  refine Proc.Triple.bind (Q := fun _ => CatchingUp) (triple_call fun _ _ h => h.request _)
    fun startBlock => ?_
  refine Proc.Triple.bind (Q := fun _ => CatchingUp) (triple_call fun _ _ h => h.request _)
    fun endBlock => ?_
  rcases startBlock with e | startBlock
  · exact Proc.Triple.pure fun _ h => h.1.always
  rcases endBlock with e | endBlock
  · exact Proc.Triple.pure fun _ h => h.1.always
  exact Proc.Triple.bind (HistoricalRangeHandler.clean_handleStreamHistoricalRange _ fuel)
    fun _ => Proc.Triple.pure fun _ h => h.1

/-- **Errors are terminal on every block-range stream**; on a sync stream if no pass of its catch-up
phase fails to read its end block again. -/
theorem stream_errorsTerminal (sender : Sender) (fuel : ℕ) (request : StreamRequest Hash)
    (hC : ∀ subscription startId blockConfirmations,
      request = .sync subscription startId blockConfirmations →
        Always (RereadsSucceed self.provider) ((self.stream sender fuel request).run []).2) :
    Always NothingBehindErrors ((self.stream sender fuel request).run []).2 := by
  cases request with
  | live subscription blockConfirmations =>
    exact Proc.Triple.log_of_run (self.clean_streamLive sender fuel subscription _) clean_nil
  | historical startId endId =>
    exact Proc.Triple.log_of_run (self.clean_streamHistorical sender fuel _ _) catchingUp_nil
  | sync subscription startId blockConfirmations =>
    exact SyncHandler.clean_run _ fuel subscription (hC subscription startId blockConfirmations rfl)
  | rewind startId endId => exact Proc.Triple.log_of_run (clean_runRewind _) clean_nil

/-! ### A failed second read -/

/-- On a chain of five blocks the provider call `k` runs into a timeout. -/
def timeoutAt (k : ℕ) : RobustProvider ℕ :=
  ⟨fun _ => .ofHashes 0 [1, 2, 3, 4] 0, fun i => if i = k then some .timeout else none,
    fun _ _ => none⟩

/-- The log of a sync stream from block `1` on with one confirmation. -/
def timeoutLog (k : ℕ) : Log ℕ :=
  (((BlockRangeScanner.mk (timeoutAt k) defaultMaxBlockRange .infinite).stream ⟨none⟩ 5
    (.sync [.ok 5] (.number (.number 1)) 1)).run []).2

/-- The first read of the end block fails. -/
theorem stream_errorsTerminal_failedRead : Always NothingBehindErrors (timeoutLog 3) := by
  refine stream_errorsTerminal _ ⟨none⟩ 5 _ ?_
  rintro _ _ _ ⟨⟩
  decide

/-- The second read of the end block fails: `SwitchingToLive` is sent behind the error. -/
theorem not_errorsTerminal_failedReread : ¬Always NothingBehindErrors (timeoutLog 4) := by
  decide

end BlockRangeScanner

end EventScanner
