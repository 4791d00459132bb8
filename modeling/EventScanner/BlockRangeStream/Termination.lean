import EventScanner.SyncStream.Settled

set_option relaxedAutoImplicit false
set_option autoImplicit false

/-!
# The loops of the streams

Three loops of the streams have no bound of their own: the batches of a range start again behind a
reorg, the part of a range that is not finalized is sent again when its last block has been
replaced, and the catch-up goes on while the tip is ahead. None of them spins: whoever is still in
one of them after many rounds has reported many reorgs, so that a stream over a chain that reorgs
finitely often returns.

## Main definitions

* `EventScanner.reorgs` — the reorgs that a stream has reported.
* `EventScanner.Spun` — what is known of a run that has used up its fuel.
* `EventScanner.HeadersLe` — a bound for the headers of the subscription.

## Main results

* `EventScanner.triple_streamBatches_spun` — the batches of a range.
* `EventScanner.BlockRangeScanner.stream_spun` — the four streams.
-/

namespace EventScanner

open HashChain EventLog

variable {Hash R : Type}

/-- The reorgs that a stream has reported. -/
def reorgs (log : Log Hash) : ℕ := (messages log).countP isReorg

@[simp] lemma reorgs_request (r : Request Hash) (log : Log Hash) :
    reorgs (.request r :: log) = reorgs log := rfl

@[simp] lemma reorgs_received (item : Except RobustProviderError ℕ) (log : Log Hash) :
    reorgs (.received item :: log) = reorgs log := rfl

@[simp] lemma reorgs_checked (b : Block Hash) (a : Option (Block Hash)) (log : Log Hash) :
    reorgs (.checked b a :: log) = reorgs log := rfl

@[simp] lemma reorgs_reorg (a : ℕ) (log : Log Hash) :
    reorgs (.sent (reorgItem a) :: log) = reorgs log + 1 := by
  show ((messages log) ++ [reorgItem a]).countP isReorg = _
  rw [List.countP_append]
  rfl

@[simp] lemma reorgs_data (range : RangeInclusive) (log : Log Hash) :
    reorgs (.sent (dataItem range) :: log) = reorgs log := by
  show ((messages log) ++ [dataItem range]).countP isReorg = _
  rw [List.countP_append]
  rfl

/-- Provider calls report nothing. -/
lemma reorgs_append_of_isRequest {reqs : Log Hash} (h : ∀ e ∈ reqs, e.isRequest = true)
    (log : Log Hash) : reorgs (reqs ++ log) = reorgs log := by
  unfold reorgs
  rw [messages_append, messages_of_isRequest h, List.append_nil]

/-- Something is sent, and the process returns. -/
lemma triple_tryStream_pure {α : Type} {P E : Log Hash → Prop} {sender : Sender}
    {item : BlockScannerResult} {a : α} :
    Proc.Triple P (tryStream sender item >>= fun _ => pure a) (fun _ _ => True) E :=
  Proc.Triple.bind (Q := fun _ _ => True) (triple_tryStream (fun _ _ => trivial)
    fun _ _ => trivial) fun _ => Proc.Triple.pure fun _ _ => trivial

/-- A run that has used up its fuel has reported a reorg for every `H + 2` rounds, but for the last
`H + 1`. -/
def Spun (H fuel : ℕ) (log : Log Hash) : Prop := fuel ≤ (H + 2) * reorgs log + (H + 1)

section Batches

variable [ReorgHandler Hash R]

/-- **The batches of a range.** A run that is cut off has used its fuel for batches in front of it
and for the reorgs that have led back.

**Proof sketch.** Induction on the fuel. A batch takes the iterator forward. A reorg may take it
back, but then there are at most `H + 1` batches in front of it again. -/
lemma triple_streamBatches_spun (sender : Sender) (provider : RobustProvider Hash)
    (minCommonAncestor : ℕ) {H : ℕ} (k fuel : ℕ) {iter : RangeIterator .forward} (hw : iter.Wf)
    (hstop : iter.stop ≤ H) (last : Option (Block Hash)) (h : R) :
    Proc.Triple (fun log => k ≤ (H + 2) * reorgs log)
      (streamBatches sender provider minCommonAncestor fuel iter last h) (fun _ _ => True)
      (fun log => k + fuel ≤ (H + 2) * reorgs log + (iter.stop + 1 - iter.current)) := by
  induction fuel generalizing k iter last h with
  | zero =>
    refine Proc.Triple.halt fun log hk => ?_
    omega
  | succ fuel ih =>
    unfold streamBatches
    rcases hnext : iter.next with _ | ⟨batch, iter'⟩
    · exact Proc.Triple.pure fun _ _ => trivial
    obtain ⟨hle, hbatch, hcurrent, hstop', -, hw'⟩ := hw.next_eq_some hnext
    have hahead : iter'.stop + 1 - iter'.current + 1 ≤ iter.stop + 1 - iter.current := by
      rw [hstop', hcurrent, hbatch]
      dsimp only
      omega
    refine Proc.Triple.bind (Q := fun _ log => k ≤ (H + 2) * reorgs log)
      (triple_call fun _ _ hk => hk) fun answer => ?_
    rcases answer with e | batchEnd
    · exact triple_tryStream_pure
    refine Proc.Triple.bind (Q := fun _ log => k ≤ (H + 2) * reorgs log)
      (triple_tryStream (fun log hk => by rwa [reorgs_data]) fun _ hk => hk) fun channel => ?_
    cases channel with
    | closed => exact Proc.Triple.pure fun _ _ => trivial
    | opened =>
      refine Proc.Triple.bind (Q := fun _ log => k ≤ (H + 2) * reorgs log) ?_ fun result => ?_
      · intro log hk
        obtain ⟨h', reqs, hreqs, ⟨e, -, hrun⟩ | ⟨a, -, hrun⟩⟩ := checkBlock_cases h batchEnd log <;>
          rw [hrun]
        · show k ≤ (H + 2) * reorgs (reqs ++ log)
          rwa [reorgs_append_of_isRequest hreqs]
        · show k ≤ (H + 2) * reorgs (reqs ++ log)
          rwa [reorgs_append_of_isRequest hreqs]
      rcases result with ⟨e | _ | commonAncestor, h'⟩
      · exact triple_tryStream_pure
      · refine (ih k hw' (hstop'.trans_le hstop) (some batchEnd) h').conseq (fun _ hk => hk)
          (fun _ _ h => h) fun log hlog => ?_
        omega
      · refine Proc.Triple.bind (Q := fun channel log => channel = .opened →
          k + (H + 2) ≤ (H + 2) * reorgs log) (triple_tryStream (fun log hk _ => ?_)
          fun _ _ hopened => by cases hopened) fun channel => ?_
        · rw [reorgs_reorg, Nat.mul_succ]
          omega
        cases channel with
        | closed => exact Proc.Triple.pure fun _ _ => trivial
        | opened =>
          let resetTo := max (commonAncestor.number + 1) minCommonAncestor
          refine (ih (k + (H + 2)) (hw'.resetTo resetTo) (hstop'.trans_le hstop) (some batchEnd)
            h').conseq (fun _ hk => hk rfl) (fun _ _ h => h) fun log hlog => ?_
          rw [RangeIterator.resetTo_stop, hstop'] at hlog
          omega

/-- A range whose end lies below the bound. -/
lemma triple_streamRangeWithReorgHandling_spun (sender : Sender) (provider : RobustProvider Hash)
    (minCommonAncestor : ℕ) {H : ℕ} (fuel start : ℕ) {stop : ℕ} (hstop : stop ≤ H)
    (maxBlockRange : MaxBlockRange) (h : R) :
    Proc.Triple (fun _ => True) (streamRangeWithReorgHandling fuel minCommonAncestor start stop
      maxBlockRange sender provider h) (fun _ _ => True) (Spun H fuel) := by
  refine (triple_streamBatches_spun sender provider minCommonAncestor 0 fuel
    (RangeIterator.wf_forward start stop maxBlockRange) hstop none h).conseq
    (fun _ _ => Nat.zero_le _) (fun _ _ h => h) fun log hlog => ?_
  change 0 + fuel ≤ (H + 2) * reorgs log + (stop + 1 - start) at hlog
  show fuel ≤ (H + 2) * reorgs log + (H + 1)
  omega

end Batches

/-! ### The live stream -/

/-- The headers of a subscription are bounded. -/
def HeadersLe (H : ℕ) (subscription : List SubscriptionItem) : Prop :=
  ∀ n, .ok n ∈ subscription → n ≤ H

namespace LiveConfig

variable [ReorgHandler Hash R] (cfg : LiveConfig Hash) {H : ℕ}

/-- The part of a turn behind the reorg check. -/
lemma triple_streamUpTo_spun (fuel : ℕ) {incomingBlock : ℕ} (hle : incomingBlock ≤ H)
    (state : LiveStreamingState Hash) (h : R) :
    Proc.Triple (fun _ => True) (cfg.streamUpTo fuel incomingBlock state h) (fun _ _ => True)
      (Spun H fuel) := by
  refine Proc.Triple.bind (Q := fun _ _ => True) ?_ fun result => ?_
  · unfold streamNextBatch
    split_ifs
    · exact Proc.Triple.pure fun _ _ => trivial
    refine Proc.Triple.bind (triple_streamRangeWithReorgHandling_spun _ _ _ fuel _
      (Nat.le_trans (Nat.sub_le _ _) hle) _ h) fun result => ?_
    rcases result with ⟨_ | b, h'⟩ <;> exact Proc.Triple.pure fun _ _ => trivial
  · split_ifs <;> exact Proc.Triple.pure fun _ _ => trivial

/-- A turn of the live loop. -/
lemma triple_liveIteration_spun (fuel : ℕ) {item : SubscriptionItem}
    (hle : ∀ n, item = .ok n → n ≤ H) (state : LiveStreamingState Hash) (h : R) :
    Proc.Triple (fun _ => True) (cfg.liveIteration fuel item state h) (fun _ _ => True)
      (Spun H fuel) := by
  refine Proc.Triple.bind (Q := fun _ _ => True) (Proc.Triple.emit fun _ _ => trivial) fun _ => ?_
  rcases item with (_ | _ | _ | _ | _) | incomingBlock
  case error.lagged => exact Proc.Triple.pure fun _ _ => trivial
  case ok =>
    have hle := hle incomingBlock rfl
    obtain ⟨batchStart, _ | previousBatchEnd⟩ := state
    · exact Proc.Triple.pure fun _ _ => trivial
    refine Proc.Triple.bind (Q := fun _ _ => True) ?_ fun result => ?_
    · intro log _
      obtain ⟨h', reqs, -, ⟨e, -, hrun⟩ | ⟨a, -, hrun⟩⟩ :=
        checkBlock_cases h previousBatchEnd log <;> rw [hrun] <;> trivial
    rcases result with ⟨e | _ | commonAncestor, h'⟩
    · exact triple_tryStream_pure
    · exact cfg.triple_streamUpTo_spun fuel hle _ h'
    · refine Proc.Triple.bind (Q := fun _ _ => True) ?_ fun handled => ?_
      · refine Proc.Triple.bind (Q := fun _ _ => True) (triple_tryStream (fun _ _ => trivial)
          fun _ _ => trivial) fun channel => ?_
        split_ifs <;> exact Proc.Triple.pure fun _ _ => trivial
      · dsimp only
        split_ifs
        · exact Proc.Triple.pure fun _ _ => trivial
        · exact cfg.triple_streamUpTo_spun fuel hle _ h'
  all_goals
    exact triple_tryStream_pure

/-- The live loop. -/
lemma triple_streamBlocksContinuously_spun (fuel : ℕ) {stream : List SubscriptionItem}
    (hle : HeadersLe H stream) (state : LiveStreamingState Hash) (h : R) :
    Proc.Triple (fun _ => True) (cfg.streamBlocksContinuously fuel stream state h)
      (fun _ _ => True) (Spun H fuel) := by
  induction stream generalizing state h with
  | nil => exact Proc.Triple.pure fun _ _ => trivial
  | cons item stream ih =>
    refine Proc.Triple.bind (cfg.triple_liveIteration_spun fuel
      (fun n heq => hle n (heq ▸ List.mem_cons_self)) state h) fun result => ?_
    rcases result with _ | ⟨state', h'⟩
    · exact Proc.Triple.pure fun _ _ => trivial
    · exact ih (fun n hn => hle n (List.mem_cons_of_mem _ hn)) state' h'

/-- The first header, and the rest of the stream. -/
lemma triple_getFirstBlock_le (sender : Sender) {stream : List SubscriptionItem}
    (hle : HeadersLe H stream) {E : Log Hash → Prop} :
    Proc.Triple (fun _ => True) (getFirstBlock sender stream)
      (fun first _ => ∀ block rest, first = some (block, rest) → block ≤ H ∧ HeadersLe H rest)
      E := by
  induction stream with
  | nil => exact Proc.Triple.pure fun _ _ _ _ h => by cases h
  | cons item rest ih =>
    rcases item with (_ | _ | _ | _ | _) | block
    case error.lagged => exact ih fun n hn => hle n (List.mem_cons_of_mem _ hn)
    case ok =>
      refine Proc.Triple.bind (Q := fun _ _ => True) (Proc.Triple.emit fun _ _ => trivial)
        fun _ => Proc.Triple.pure fun _ _ block' rest' h => ?_
      obtain ⟨rfl, rfl⟩ := Prod.mk.inj (Option.some.inj h)
      exact ⟨hle block List.mem_cons_self, fun n hn => hle n (List.mem_cons_of_mem _ hn)⟩
    all_goals
      exact Proc.Triple.bind (Q := fun _ _ => True) (triple_tryStream (fun _ _ => trivial)
        fun _ _ => trivial) fun _ => Proc.Triple.pure fun _ _ _ _ h => by cases h

/-- The live stream. -/
lemma triple_streamLiveBlocks_spun (fuel : ℕ) {subscription : List SubscriptionItem}
    (hle : HeadersLe H subscription) (h : R) (notifyAfterFirstBlock : Bool) :
    Proc.Triple (fun _ => True)
      (cfg.streamLiveBlocks fuel subscription h notifyAfterFirstBlock) (fun _ _ => True)
      (Spun H fuel) := by
  refine Proc.Triple.bind (triple_getFirstBlock_le cfg.sender
    fun n hn => hle n ((List.dropWhile_suffix _).subset hn)) fun first => ?_
  rcases first with _ | ⟨firstBlock, stream⟩
  · exact Proc.Triple.pure fun _ _ => trivial
  intro log hfirst
  obtain ⟨hblock, hstream⟩ := hfirst firstBlock stream rfl
  cases notifyAfterFirstBlock
  all_goals
    refine Proc.Triple.bind (P := fun _ => True) (Q := fun _ _ => True) ?_ (fun channel => ?_) log
      trivial
    · first
      | exact Proc.Triple.pure fun _ _ => trivial
      | exact triple_tryStream (fun _ _ => trivial) fun _ _ => trivial
    cases channel with
    | closed => exact Proc.Triple.pure fun _ _ => trivial
    | opened =>
      refine Proc.Triple.bind (Q := fun _ _ => True) ?_ fun initial => ?_
      · refine Proc.Triple.bind (triple_streamRangeWithReorgHandling_spun _ _ _ fuel _
          (Nat.le_trans (Nat.sub_le _ _) hblock) _ h) fun result => ?_
        rcases result with ⟨_ | b, h'⟩ <;> exact Proc.Triple.pure fun _ _ => trivial
      · rcases initial with ⟨_ | state, h'⟩
        · exact Proc.Triple.pure fun _ _ => trivial
        · exact cfg.triple_streamBlocksContinuously_spun fuel hstream state h'

end LiveConfig

/-! ### The other streams -/

namespace HistoricalRangeHandler

variable [DecidableEq Hash] (self : HistoricalRangeHandler Hash)

/-- The part of a range that is sent until its last block stands still: a round that is not the last
one reports a reorg.

**Proof sketch.** Induction on the fuel. -/
lemma triple_streamUntilStable_spun (nonFinalizedStart minCommonAncestor k fuel : ℕ)
    (endBlock : Block Hash) :
    Proc.Triple (fun log => k ≤ reorgs log)
      (self.streamUntilStable nonFinalizedStart minCommonAncestor fuel endBlock)
      (fun _ _ => True) (fun log => k + fuel ≤ reorgs log) := by
  induction fuel generalizing k endBlock with
  | zero => exact Proc.Triple.halt fun _ hk => hk
  | succ fuel ih =>
    refine Proc.Triple.bind (triple_streamRanges_of_sent (P := fun log => k ≤ reorgs log)
      fun _ _ log hk => by rwa [reorgs_data]) fun channel => ?_
    split_ifs
    · exact Proc.Triple.pure fun _ _ => trivial
    refine Proc.Triple.bind (Q := fun new log => new ≠ none → k ≤ reorgs log) ?_ fun new => ?_
    · refine Proc.Triple.bind (Q := fun _ log => k ≤ reorgs log) (triple_call fun _ _ hk => hk)
        fun answer => ?_
      rcases answer with e | newEndBlock
      · exact Proc.Triple.bind (Q := fun _ _ => True) (triple_tryStream (fun _ _ => trivial)
          fun _ _ => trivial) fun _ => Proc.Triple.pure fun _ _ hnone => absurd rfl hnone
      · dsimp only
        split_ifs
        · exact Proc.Triple.pure fun _ _ hnone => absurd rfl hnone
        · exact Proc.Triple.pure fun _ hk _ => hk
    · rcases new with _ | newEndBlock
      · exact Proc.Triple.pure fun _ _ => trivial
      refine Proc.Triple.bind (Q := fun channel log => channel = .opened → k + 1 ≤ reorgs log)
        (triple_tryStream (fun log hk _ => ?_) fun _ _ hopened => by cases hopened)
        fun channel => ?_
      · rw [reorgs_reorg]
        exact Nat.succ_le_succ (hk (by simp))
      cases channel with
      | closed => exact Proc.Triple.pure fun _ _ => trivial
      | opened =>
        refine (ih (k + 1) newEndBlock).conseq (fun _ hk => hk rfl) (fun _ _ h => h)
          fun log hlog => ?_
        omega

/-- The historical stream, and a pass of the sync stream. -/
lemma triple_handleStreamHistoricalRange_spun (fuel : ℕ) :
    Proc.Triple (fun _ => True) (self.handleStreamHistoricalRange fuel) (fun _ _ => True)
      (fun log => fuel ≤ reorgs log) := by
  refine Proc.Triple.bind (Q := fun _ _ => True) ?_ fun result => ?_
  · refine Proc.Triple.bind (Q := fun _ _ => True) (triple_call fun _ _ _ => trivial)
      fun finalized => ?_
    refine Proc.Triple.bind (Q := fun _ _ => True)
      (triple_streamRanges_of_sent fun _ _ _ _ => trivial) fun channel => ?_
    split_ifs <;> exact Proc.Triple.pure fun _ _ => trivial
  · rcases result with _ | ⟨nonFinalizedStart, finalizedBlockNum⟩
    · exact Proc.Triple.pure fun _ _ => trivial
    dsimp only
    split_ifs
    · exact Proc.Triple.pure fun _ _ => trivial
    refine Proc.Triple.bind (Q := fun _ _ => True) (triple_call fun _ _ _ => trivial)
      fun answer => ?_
    rcases answer with e | endBlock
    · exact triple_tryStream_pure
    · refine (self.triple_streamUntilStable_spun _ _ 0 fuel endBlock).conseq
        (fun _ _ => Nat.zero_le _) (fun _ _ h => h) fun log hlog => ?_
      omega

end HistoricalRangeHandler

/-- The latest block number is one of the heights. -/
lemma triple_getBlockNumber_le {provider : RobustProvider Hash} {H : ℕ}
    (hbounded : provider.BoundedBy H) {E : Log Hash → Prop} :
    Proc.Triple (fun _ => True) (getBlockNumber provider)
      (fun answer _ => ∀ latest, answer = .ok latest → latest ≤ H) E := by
  intro log _ latest hanswer
  rw [RobustProvider.eq_height hanswer]
  exact hbounded _

namespace SyncHandler

variable [DecidableEq Hash] (self : SyncHandler Hash) {H : ℕ}

/-- The catch-up: a pass takes the start beyond the tip that it has seen.

**Proof sketch.** Induction on the fuel. A pass that is cut off has reported reorgs. Each of the
others brings the start closer to the bound. -/
lemma triple_catchupHistoricalBlocks_spun (hbounded : self.provider.BoundedBy H)
    (fuel start : ℕ) {tip : ℕ} (htip : tip ≤ H) :
    Proc.Triple (fun _ => True) (self.catchupHistoricalBlocks fuel start tip) (fun _ _ => True)
      (fun log => fuel ≤ reorgs log + (H + 1 - start)) := by
  induction fuel generalizing start tip with
  | zero => exact Proc.Triple.halt fun _ _ => Nat.zero_le _
  | succ fuel ih =>
    unfold catchupHistoricalBlocks
    split_ifs with hlt
    · refine Proc.Triple.bind (Q := fun _ _ => True)
        ((HistoricalRangeHandler.triple_handleStreamHistoricalRange_spun _ fuel).conseq
          (fun _ h => h) (fun _ _ h => h) fun log hlog => ?_) fun channel => ?_
      · omega
      split_ifs
      · exact Proc.Triple.pure fun _ _ => trivial
      refine Proc.Triple.bind (triple_getBlockNumber_le hbounded) fun answer => ?_
      rcases answer with e | latest
      · exact Proc.Triple.pure fun _ _ => trivial
      intro log hlatest
      have hle := hlatest latest rfl
      refine (ih (tip + 1) (Nat.le_trans (Nat.sub_le _ _) hle)).conseq (fun _ h => h)
        (fun _ _ h => h) (fun log hlog => ?_) log trivial
      omega
    · exact Proc.Triple.pure fun _ _ => trivial

/-- The sync stream. -/
lemma triple_run_spun (hbounded : self.provider.BoundedBy H) (fuel : ℕ)
    {subscription : List SubscriptionItem} (hle : HeadersLe H subscription) :
    Proc.Triple (fun _ => True) (self.run fuel subscription) (fun _ _ => True) (Spun H fuel) := by
  refine Proc.Triple.bind (Q := fun _ _ => True) (triple_call fun _ _ _ => trivial)
    fun startBlock => ?_
  refine Proc.Triple.bind (triple_getBlockNumber_le hbounded) fun latestBlock => ?_
  rcases startBlock with e | startBlock
  · exact Proc.Triple.pure fun _ _ => trivial
  rcases latestBlock with e | latestBlock
  · exact Proc.Triple.pure fun _ _ => trivial
  intro log hlatest
  have hlatest := hlatest latestBlock rfl
  dsimp only
  split_ifs
  · refine Proc.Triple.bind (P := fun _ => True) (Q := fun _ _ => True)
      (triple_call fun _ _ _ => trivial) (fun answer => ?_) log trivial
    rcases answer with e | _
    · exact Proc.Triple.pure fun _ _ => trivial
    · exact Proc.Triple.bind ((self.liveConfig _).triple_streamLiveBlocks_spun fuel hle
        self.reorgHandler true) fun _ => Proc.Triple.pure fun _ _ => trivial
  · refine Proc.Triple.bind (P := fun _ => True) (Q := fun _ _ => True) ?_
      (fun _ => Proc.Triple.pure fun _ _ => trivial) log trivial
    refine Proc.Triple.bind (Q := fun _ _ => True) ((self.triple_catchupHistoricalBlocks_spun
      hbounded fuel startBlock (Nat.le_trans (Nat.sub_le _ _) hlatest)).conseq (fun _ h => h)
      (fun _ _ h => h) fun log hlog => ?_) fun result => ?_
    · have hmul : reorgs log ≤ (H + 2) * reorgs log := Nat.le_mul_of_pos_left _ (by omega)
      show fuel ≤ (H + 2) * reorgs log + (H + 1)
      omega
    rcases result with e | _ | startBlock
    · exact triple_tryStream_pure
    · exact Proc.Triple.pure fun _ _ => trivial
    refine Proc.Triple.bind (Q := fun _ _ => True) (triple_call fun _ _ _ => trivial)
      fun answer => ?_
    rcases answer with e | _
    · exact triple_tryStream_pure
    refine Proc.Triple.bind (Q := fun _ _ => True) (triple_tryStream (fun _ _ => trivial)
      fun _ _ => trivial) fun channel => ?_
    split_ifs
    · exact Proc.Triple.pure fun _ _ => trivial
    · exact (self.liveConfig _).triple_streamLiveBlocks_spun fuel hle self.reorgHandler false

end SyncHandler

/-- The subscription that a stream reads. -/
def StreamRequest.subscription : StreamRequest Hash → List SubscriptionItem
  | .live subscription _ | .sync subscription _ _ => subscription
  | .historical _ _ | .rewind _ _ => []

/-- The rewind has no loop without a bound. -/
lemma triple_rewindRanges_returns [ReorgHandler Hash R] (maxBlockRange : MaxBlockRange)
    (sender : Sender) (provider : RobustProvider Hash) (checkReorg : Bool)
    (ranges : List RangeInclusive) (tip : Block Hash) (h : R) (E : Log Hash → Prop) :
    Proc.Triple (fun _ => True)
      (rewindRanges maxBlockRange sender provider checkReorg ranges tip h) (fun _ _ => True) E := by
  induction ranges generalizing tip h with
  | nil => exact Proc.Triple.pure fun _ _ => trivial
  | cons range ranges ih =>
    refine Proc.Triple.bind (Q := fun _ _ => True) (triple_tryStream (fun _ _ => trivial)
      fun _ _ => trivial) fun channel => ?_
    split_ifs
    · exact Proc.Triple.pure fun _ _ => trivial
    · exact ih tip h
    refine Proc.Triple.bind (Q := fun _ _ => True) ?_ fun result => ?_
    · intro log _
      obtain ⟨h', reqs, -, ⟨e, -, hrun⟩ | ⟨a, -, hrun⟩⟩ := checkBlock_cases h tip log <;>
        rw [hrun] <;> trivial
    rcases result with ⟨e | _ | commonAncestor, h'⟩
    · exact triple_tryStream_pure
    · exact ih tip h'
    refine Proc.Triple.bind (Q := fun _ _ => True) ?_ fun rescan => ?_
    · refine Proc.Triple.bind (Q := fun _ _ => True) (triple_tryStream (fun _ _ => trivial)
        fun _ _ => trivial) fun channel => ?_
      split_ifs
      · exact Proc.Triple.pure fun _ _ => trivial
      refine Proc.Triple.bind (Q := fun _ _ => True) (triple_call fun _ _ _ => trivial)
        fun answer => ?_
      rcases answer with e | newTip
      · exact triple_tryStream_pure
      · exact Proc.Triple.bind (Q := fun _ _ => True)
          (triple_streamRanges_of_sent fun _ _ _ _ => trivial) fun _ =>
          Proc.Triple.pure fun _ _ => trivial
    · dsimp only
      split_ifs
      · exact Proc.Triple.pure fun _ _ => trivial
      · exact ih rescan.2 h'

namespace BlockRangeScanner

variable [DecidableEq Hash] (self : BlockRangeScanner Hash)

/-- The rewind always returns. -/
lemma streamRewind_returns (sender : Sender) (startId endId : BlockId Hash) :
    ((self.streamRewind sender startId endId).run []).1 ≠ none := by
  have htriple : Proc.Triple (fun _ => True) (self.streamRewind sender startId endId)
      (fun _ _ => True) (fun _ => False) := by
    refine Proc.Triple.bind (Q := fun _ _ => True) (triple_call fun _ _ _ => trivial)
      fun startBlock => ?_
    refine Proc.Triple.bind (Q := fun _ _ => True) (triple_call fun _ _ _ => trivial)
      fun endBlock => ?_
    rcases startBlock with e | startBlock
    · exact Proc.Triple.pure fun _ _ => trivial
    rcases endBlock with e | endBlock
    · exact Proc.Triple.pure fun _ _ => trivial
    refine Proc.Triple.bind (Q := fun _ _ => True) ?_ fun _ => Proc.Triple.pure fun _ _ => trivial
    refine Proc.Triple.bind (Q := fun _ _ => True) (triple_call fun _ _ _ => trivial)
      fun finalized => ?_
    exact triple_rewindRanges_returns _ _ _ _ _ _ _ _
  exact fun hcut => htriple.of_cut trivial hcut

/-- **No stream spins.** A stream that has used up its fuel has reported a reorg for every `H + 2`
rounds of its loops, but for the last `H + 1`, if neither the chain nor the headers go beyond `H`.

**Proof sketch.** Each of the loops goes forward by a bounded number of rounds, unless it reports a
reorg. -/
theorem stream_spun {H : ℕ} (hbounded : self.provider.BoundedBy H) (sender : Sender) (fuel : ℕ)
    {request : StreamRequest Hash} (hle : HeadersLe H request.subscription)
    (hcut : ((self.stream sender fuel request).run []).1 = none) :
    fuel ≤ (H + 2) * reorgs ((self.stream sender fuel request).run []).2 + (H + 1) := by
  have htriple : Proc.Triple (fun _ => True) (self.stream sender fuel request) (fun _ _ => True)
      (Spun H fuel) := by
    cases request with
    | live subscription blockConfirmations =>
      refine Proc.Triple.bind (Q := fun _ _ => True) (triple_call fun _ _ _ => trivial)
        fun latest => ?_
      rcases latest with e | latest
      · exact Proc.Triple.pure fun _ _ => trivial
      refine Proc.Triple.bind (Q := fun _ _ => True) (triple_call fun _ _ _ => trivial)
        fun answer => ?_
      rcases answer with e | _
      · exact Proc.Triple.pure fun _ _ => trivial
      · exact Proc.Triple.bind ((self.liveConfig sender _ _).triple_streamLiveBlocks_spun fuel hle
          _ false) fun _ => Proc.Triple.pure fun _ _ => trivial
    | historical startId endId =>
      refine Proc.Triple.bind (Q := fun _ _ => True) (triple_call fun _ _ _ => trivial)
        fun startBlock => ?_
      refine Proc.Triple.bind (Q := fun _ _ => True) (triple_call fun _ _ _ => trivial)
        fun endBlock => ?_
      rcases startBlock with e | startBlock
      · exact Proc.Triple.pure fun _ _ => trivial
      rcases endBlock with e | endBlock
      · exact Proc.Triple.pure fun _ _ => trivial
      refine Proc.Triple.bind (Q := fun _ _ => True)
        ((HistoricalRangeHandler.triple_handleStreamHistoricalRange_spun _ fuel).conseq
          (fun _ h => h) (fun _ _ h => h) fun log hlog => ?_) fun _ =>
          Proc.Triple.pure fun _ _ => trivial
      have hmul : reorgs log ≤ (H + 2) * reorgs log := Nat.le_mul_of_pos_left _ (by omega)
      show fuel ≤ (H + 2) * reorgs log + (H + 1)
      omega
    | sync subscription startId blockConfirmations =>
      exact SyncHandler.triple_run_spun _ hbounded fuel hle
    | rewind startId endId => exact absurd hcut (self.streamRewind_returns sender startId endId)
  exact htriple.of_cut trivial hcut

end BlockRangeScanner

end EventScanner
