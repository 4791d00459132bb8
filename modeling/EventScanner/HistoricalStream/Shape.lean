import EventScanner.BlockRangeScanner.Scanner

set_option relaxedAutoImplicit false
set_option autoImplicit false

/-!
# The shape of the historical stream

What a historical stream sends when no error is sent and the receiver stays: the finalized part
of the range once, and the rest of it once more than the end block was found replaced. Before the
first and behind every pass over that rest the end block is read, and the last two reads agree.

## Main definitions

* `EventScanner.HistoricalRangeHandler.endRead` — the answers to the reads of the end block.
* `EventScanner.HistoricalRangeHandler.Replaced` — two reads in a row give different hashes.
* `EventScanner.HistoricalRangeHandler.passes` — the events of the passes that found it replaced.

## Main results

* `EventScanner.HistoricalRangeHandler.handle_shape` — all events of a run of the handler.
* `EventScanner.BlockRangeScanner.streamHistorical_shape` — what the stream sends.
-/

namespace EventScanner

open HashChain

variable {Hash : Type}

/-! ### Sending ranges -/

/-- The events of sending ranges, newest first. -/
def sentAll (ranges : List RangeInclusive) : Log Hash :=
  (ranges.map fun range => .sent (dataItem range)).reverse

section SentAll

variable (ranges : List RangeInclusive) (log : Log Hash)

lemma sentAll_cons (range : RangeInclusive) :
    (sentAll (range :: ranges) : Log Hash) = sentAll ranges ++ [.sent (dataItem range)] := by
  simp [sentAll]

@[simp] lemma messages_sentAll :
    messages (sentAll ranges : Log Hash) = ranges.map dataItem := by
  induction ranges with
  | nil => rfl
  | cons range ranges ih =>
    rw [sentAll_cons, messages_append, ih]
    simp

@[simp] lemma clock_sentAll : clock (sentAll ranges ++ log) = clock log := by
  induction ranges generalizing log with
  | nil => rfl
  | cons range ranges ih =>
    rw [sentAll_cons, List.append_assoc, ih]
    simp

/-- Ranges are sent one after the other, or the receiver is found gone. -/
lemma run_streamRanges (sender : Sender) :
    ((streamRanges sender ranges).run log = (some .opened, sentAll ranges ++ log)) ∨
      ∃ log', (streamRanges sender ranges).run log = (some .closed, log') ∧
        sender.isOpen log' = false := by
  induction ranges generalizing log with
  | nil => exact Or.inl rfl
  | cons range ranges ih =>
    unfold streamRanges
    by_cases hopen : sender.isOpen log
    · rw [Proc.run_bind_some (by rw [run_tryStream, if_pos hopen])]
      rw [sentAll_cons, List.append_assoc]
      exact ih _
    · rw [Proc.run_bind_some (by rw [run_tryStream, if_neg hopen])]
      exact Or.inr ⟨log, rfl, by simpa using hopen⟩

end SentAll

namespace HistoricalRangeHandler

variable (self : HistoricalRangeHandler Hash)

/-- The answer to a read of the end block at the `k`-th provider call. -/
def endRead (k : ℕ) : Except RobustProviderError (Block Hash) :=
  self.provider.answer k (self.provider.findTag k (.number self.stop))

/-- Two reads in a row, the first one at call `k`, give blocks that are related. -/
def ReadsAre (related : Hash → Hash → Prop) (k : ℕ) : Prop :=
  ∃ b b', self.endRead k = .ok b ∧ self.endRead (k + 1) = .ok b' ∧ related b.hash b'.hash

/-- Two reads in a row give different hashes. -/
abbrev Replaced (k : ℕ) : Prop := self.ReadsAre (· ≠ ·) k

/-- Two reads in a row give the same hash. -/
abbrev Stable (k : ℕ) : Prop := self.ReadsAre (· = ·) k

/-- The read of the end block. -/
abbrev endRequest : Event Hash := .request (.blockByNumber (.number self.stop))

/-- The events of a pass over the part that is not finalized, with the read behind it. -/
def pass (ranges : List RangeInclusive) : Log Hash := self.endRequest :: sentAll ranges

/-- The events of `k` passes that have found the end block replaced. -/
def passes (ranges : List RangeInclusive) (ancestor k : ℕ) : Log Hash :=
  (List.replicate k (.sent (reorgItem ancestor) :: self.pass ranges)).flatten

/-- One more pass before the others. -/
lemma passes_succ (ranges : List RangeInclusive) (ancestor k : ℕ) :
    self.passes ranges ancestor (k + 1) =
      self.passes ranges ancestor k ++ .sent (reorgItem ancestor) :: self.pass ranges := by
  unfold passes
  rw [List.replicate_succ', List.flatten_append]
  simp

/-- What `k` passes send. -/
lemma messages_passes (ranges : List RangeInclusive) (ancestor k : ℕ) :
    messages (self.passes ranges ancestor k) =
      (List.replicate k (ranges.map dataItem ++ [reorgItem ancestor])).flatten := by
  induction k with
  | zero => rfl
  | succ k ih =>
    rw [passes_succ, messages_append, ih, List.replicate_succ, List.flatten_cons]
    simp [pass]

variable {self}

/-- A block found at a height has that number. -/
lemma number_of_endRead {k : ℕ} {b : Block Hash} (h : self.endRead k = .ok b) :
    b.number = self.stop := by
  unfold endRead RobustProvider.answer at h
  split at h
  · cases h
  · split at h
    · rename_i hfind
      cases h
      exact ((Chain.blockAt_eq_some_iff _ _ _).mp hfind).1
    · cases h

variable (self) in
/-- How the loop over the part that is not finalized ends when the end block was read at call `c`:
cut short, behind a pass between two reads that agree, or out of fuel. -/
inductive LoopShape (ranges : List RangeInclusive) (ancestor c fuel : ℕ) (log : Log Hash) :
    Option ChannelState × Log Hash → Prop
  /-- The run was cut short. -/
  | cutShort {result : Option ChannelState} {log' : Log Hash} :
      CutShort self.sender log' → LoopShape ranges ancestor c fuel log (result, log')
  /-- The end block was found replaced `k` times, and then it was still there. -/
  | stable {k : ℕ} :
      k < fuel → (∀ i < k, self.Replaced (c + i)) → self.Stable (c + k) →
      LoopShape ranges ancestor c fuel log
        (some .opened, self.pass ranges ++ (self.passes ranges ancestor k ++ log))
  /-- The end block was found replaced until the fuel was used up. -/
  | outOfFuel :
      (∀ i < fuel, self.Replaced (c + i)) →
      LoopShape ranges ancestor c fuel log (none, self.passes ranges ancestor fuel ++ log)

/-- One more pass that has found the end block replaced. -/
lemma LoopShape.succ {ranges : List RangeInclusive} {ancestor c fuel : ℕ} {log : Log Hash}
    {result : Option ChannelState × Log Hash} (hreplaced : self.Replaced c)
    (h : self.LoopShape ranges ancestor (c + 1) fuel
      (.sent (reorgItem ancestor) :: (self.pass ranges ++ log)) result) :
    self.LoopShape ranges ancestor c (fuel + 1) log result := by
  have hall {k : ℕ} (hk : ∀ i < k, self.Replaced (c + 1 + i)) :
      ∀ i < k + 1, self.Replaced (c + i) := by
    intro i hi
    cases i with
    | zero => exact hreplaced
    | succ i =>
      have hi := hk i (by omega)
      rwa [Nat.add_assoc, Nat.add_comm 1 i] at hi
  have hlog (k : ℕ) : self.passes ranges ancestor k ++
      .sent (reorgItem ancestor) :: (self.pass ranges ++ log) =
        self.passes ranges ancestor (k + 1) ++ log := by
    rw [passes_succ]
    simp
  cases h with
  | cutShort h => exact .cutShort h
  | @stable k hk hreplaced hstable =>
    rw [hlog]
    rw [Nat.add_assoc, Nat.add_comm 1 k] at hstable
    exact .stable (by omega) (hall hreplaced) hstable
  | outOfFuel hreplaced =>
    rw [hlog]
    exact .outOfFuel (hall hreplaced)

variable [DecidableEq Hash]

variable (self) in
/-- The second read of the end block behind a pass. -/
lemma run_getReorgedEndBlock {c : ℕ} {log : Log Hash} (hc : clock log = c + 1) {b : Block Hash}
    (hb : self.endRead c = .ok b) :
    (∃ log', (self.getReorgedEndBlock b).run log = (some none, log') ∧
        CutShort self.sender log') ∨
      self.Stable c ∧ (self.getReorgedEndBlock b).run log = (some none, self.endRequest :: log) ∨
      ∃ b', self.endRead (c + 1) = .ok b' ∧ self.Replaced c ∧
        (self.getReorgedEndBlock b).run log = (some (some b'), self.endRequest :: log) := by
  have hread : (getBlockByNumber self.provider (.number b.number)).run log =
      (some (self.endRead (c + 1)), self.endRequest :: log) := by
    rw [number_of_endRead hb, ← hc]
    exact run_call ..
  unfold getReorgedEndBlock
  rw [Proc.run_bind_some hread]
  cases hanswer : self.endRead (c + 1) with
  | error e =>
    obtain ⟨channel, log', hrun, hcut⟩ :=
      cutShort_error self.sender (.ofProvider e) (self.endRequest :: log)
    dsimp only
    rw [Proc.run_bind_some hrun]
    exact Or.inl ⟨log', rfl, hcut⟩
  | ok b' =>
    dsimp only
    by_cases hash : b'.hash = b.hash
    · rw [if_pos hash]
      exact Or.inr (Or.inl ⟨⟨b, b', hb, hanswer, hash.symm⟩, rfl⟩)
    · rw [if_neg hash]
      exact Or.inr (Or.inr ⟨b', rfl, ⟨b, b', hb, hanswer, Ne.symm hash⟩, rfl⟩)

/-- **The loop over the part that is not finalized.**

**Proof sketch.** Induction on the fuel. A pass sends the whole part and reads the end block; if
that was replaced, a reorg is sent, and the rest of the loop follows. -/
lemma run_streamUntilStable (nonFinalizedStart ancestor fuel : ℕ) {c : ℕ} {log : Log Hash}
    (hc : clock log = c + 1) {b : Block Hash} (hb : self.endRead c = .ok b) :
    self.LoopShape (RangeIterator.forward nonFinalizedStart self.stop self.maxBlockRange).ranges
      ancestor c fuel log ((self.streamUntilStable nonFinalizedStart ancestor fuel b).run log) := by
  induction fuel generalizing c log b with
  | zero => exact .outOfFuel (by simp)
  | succ fuel ih =>
    unfold streamUntilStable
    dsimp only
    generalize (RangeIterator.forward nonFinalizedStart self.stop self.maxBlockRange).ranges =
      ranges at ih ⊢
    obtain hsent | ⟨log', hsent, hclosed⟩ := run_streamRanges ranges log self.sender
    · rw [Proc.run_bind_some hsent]
      simp only [ChannelState.isClosed, Bool.false_eq_true, if_false]
      obtain ⟨log', hread, hcut⟩ | ⟨hstable, hread⟩ | ⟨b', hb', hreplaced, hread⟩ :=
        run_getReorgedEndBlock self ((clock_sentAll ranges log).trans hc) hb
      · rw [Proc.run_bind_some hread]
        exact .cutShort hcut
      · rw [Proc.run_bind_some hread]
        exact .stable (k := 0) (by omega) (by simp) hstable
      · rw [Proc.run_bind_some hread]
        dsimp only
        by_cases hopen : self.sender.isOpen (self.endRequest :: (sentAll ranges ++ log))
        · rw [Proc.run_bind_some (by rw [run_tryStream, if_pos hopen])]
          exact .succ hreplaced (ih (by simp [pass, hc]) hb')
        · rw [Proc.run_bind_some (by rw [run_tryStream, if_neg hopen])]
          exact .cutShort (Or.inr (by simpa using hopen))
    · rw [Proc.run_bind_some hsent]
      exact .cutShort (Or.inr hclosed)

/-! ### The whole handler -/

section Handler

omit [DecidableEq Hash]

variable (self)

/-- The answer to the call for the finalized height at the `k`-th provider call; `0` if it fails. -/
def finalizedAt (k : ℕ) : ℕ :=
  (self.provider.answer k fun chain =>
    (self.provider.findId k (.number .finalized) chain).map Block.number).toOption.getD 0

/-- The last block of the finalized part of the range. -/
def finalizedBatchEnd (k : ℕ) : ℕ := min (self.finalizedAt k) self.stop

/-- The first block of the rest of the range. -/
def nonFinalizedStart (k : ℕ) : ℕ := max self.start (self.finalizedBatchEnd k + 1)

/-- The ranges of the finalized part. -/
def finalRanges (k : ℕ) : List RangeInclusive :=
  (RangeIterator.forward self.start (self.finalizedBatchEnd k) self.maxBlockRange).ranges

/-- The ranges of the rest. -/
def restRanges (k : ℕ) : List RangeInclusive :=
  (RangeIterator.forward (self.nonFinalizedStart k) self.stop self.maxBlockRange).ranges

/-- The log behind the finalized part, when the handler starts with a log. -/
def finalizedPart (log : Log Hash) : Log Hash :=
  sentAll (self.finalRanges (clock log)) ++
    .request (.blockNumberById (.number .finalized)) :: log

/-- How a run of the handler ends that starts with a log. -/
inductive HandlerShape (fuel : ℕ) (log : Log Hash) : Option ChannelState × Log Hash → Prop
  /-- The run was cut short. -/
  | cutShort {result : Option ChannelState} {log' : Log Hash} :
      CutShort self.sender log' → HandlerShape fuel log (result, log')
  /-- The whole range is final. -/
  | allFinal :
      self.stop < self.nonFinalizedStart (clock log) →
      HandlerShape fuel log (some .opened, self.finalizedPart log)
  /-- The rest of the range is streamed until its end block is stable. -/
  | rest {result : Option ChannelState × Log Hash} :
      self.nonFinalizedStart (clock log) ≤ self.stop →
      self.LoopShape (self.restRanges (clock log)) (self.nonFinalizedStart (clock log) - 1)
        (clock log + 1) fuel (self.endRequest :: self.finalizedPart log) result →
      HandlerShape fuel log result

lemma clock_finalizedPart (log : Log Hash) : clock (self.finalizedPart log) = clock log + 1 := by
  simp [finalizedPart]

/-- The finalized part is sent, or the receiver is found gone. -/
lemma run_streamFinalizedBlocks (log : Log Hash) :
    self.streamFinalizedBlocks.run log =
        (some (some (self.nonFinalizedStart (clock log), self.finalizedAt (clock log))),
          self.finalizedPart log) ∨
      ∃ log', self.streamFinalizedBlocks.run log = (some none, log') ∧
        self.sender.isOpen log' = false := by
  have hfinalized : (getBlockNumberById self.provider (.number .finalized)).run log =
      (some (self.provider.answer (clock log) fun chain =>
        (self.provider.findId (clock log) (.number .finalized) chain).map Block.number),
        .request (.blockNumberById (.number .finalized)) :: log) := run_call ..
  obtain hsent | ⟨log', hsent, hclosed⟩ := run_streamRanges (self.finalRanges (clock log))
    (.request (.blockNumberById (.number .finalized)) :: log) self.sender
  · exact Or.inl ((Proc.run_bind_some hfinalized).trans (Proc.run_bind_some hsent))
  · exact Or.inr ⟨log', (Proc.run_bind_some hfinalized).trans (Proc.run_bind_some hsent), hclosed⟩

end Handler

variable (self) in
/-- **All events of a run of the handler.**

**Proof sketch.** Inside the range, the finalized block is not above the block before the part that
is not finalized, so the latter is the lower bound for common ancestors. -/
theorem handle_shape (fuel : ℕ) (log : Log Hash) :
    self.HandlerShape fuel log ((self.handleStreamHistoricalRange fuel).run log) := by
  unfold handleStreamHistoricalRange
  obtain hfinal | ⟨log', hfinal, hclosed⟩ := self.run_streamFinalizedBlocks log
  · rw [Proc.run_bind_some hfinal]
    dsimp only
    split_ifs with hall
    · exact .allFinal hall
    · have hle := Nat.le_of_not_lt hall
      have hancestor : max (self.nonFinalizedStart (clock log) - 1) (self.finalizedAt (clock log)) =
          self.nonFinalizedStart (clock log) - 1 := by
        unfold nonFinalizedStart finalizedBatchEnd at hle ⊢
        omega
      have hread : (getBlockByNumber self.provider (.number self.stop)).run
          (self.finalizedPart log) =
            (some (self.endRead (clock log + 1)), self.endRequest :: self.finalizedPart log) := by
        rw [← self.clock_finalizedPart log]
        exact run_call ..
      unfold streamNonFinalizedBlocks
      rw [Proc.run_bind_some hread, hancestor]
      cases hanswer : self.endRead (clock log + 1) with
      | error e =>
        obtain ⟨channel, log', hrun, hcut⟩ := cutShort_error self.sender (.ofProvider e)
          (self.endRequest :: self.finalizedPart log)
        dsimp only
        rw [Proc.run_bind_some hrun]
        exact .cutShort hcut
      | ok endBlock =>
        refine .rest hle (run_streamUntilStable _ _ fuel ?_ hanswer)
        rw [clock_request, self.clock_finalizedPart log]
  · rw [Proc.run_bind_some hfinal]
    exact .cutShort (Or.inr hclosed)

/-! ### What is sent -/

omit [DecidableEq Hash] in
variable (self) in
/-- What a run of the handler from the log `before` on has sent, when its log is `log` and `done`
says whether it has returned. The finalized part comes first, cut into batches. If there is more,
the rest, cut into batches, comes once for every read that has found the end block replaced, each
time with a reorg to the block before it, and once more between two reads that agree. -/
def Shaped (fuel : ℕ) (before : Log Hash) (done : Bool) (log : Log Hash) : Prop :=
  ∃ finals rest,
    RangeInclusive.Chunks self.maxBlockRange self.start (self.finalizedBatchEnd (clock before))
      finals ∧
    RangeInclusive.Chunks self.maxBlockRange (self.nonFinalizedStart (clock before)) self.stop
      rest ∧
    self.nonFinalizedStart (clock before) - 1 + 1 = self.nonFinalizedStart (clock before) ∧
    (self.stop < self.nonFinalizedStart (clock before) ∧ done = true ∧
        messages log = messages before ++ finals.map dataItem ∨
      self.nonFinalizedStart (clock before) ≤ self.stop ∧
        ∃ k, (∀ i < k, self.Replaced (clock before + 1 + i)) ∧
          (done = true ∧ k < fuel ∧ self.Stable (clock before + 1 + k) ∧
              log = self.pass rest ++
                (self.passes rest (self.nonFinalizedStart (clock before) - 1) k ++
                  self.endRequest :: self.finalizedPart before) ∧
              messages log = messages before ++ finals.map dataItem ++
                (List.replicate k (rest.map dataItem ++
                  [reorgItem (self.nonFinalizedStart (clock before) - 1)])).flatten ++
                rest.map dataItem ∨
            done = false ∧ k = fuel ∧
              messages log = messages before ++ finals.map dataItem ++
                (List.replicate k (rest.map dataItem ++
                  [reorgItem (self.nonFinalizedStart (clock before) - 1)])).flatten))

omit [DecidableEq Hash] in
variable (self) in
lemma messages_finalizedPart (log : Log Hash) :
    messages (self.finalizedPart log) =
      messages log ++ (self.finalRanges (clock log)).map dataItem := by
  simp [finalizedPart, messages_append]

/-- A run of the handler that is not cut short has this shape. -/
theorem shaped_of_run {fuel : ℕ} {before log : Log Hash} {result : Option ChannelState}
    (hrun : (self.handleStreamHistoricalRange fuel).run before = (result, log))
    (hcut : ¬CutShort self.sender log) : self.Shaped fuel before result.isSome log := by
  have hshape := self.handle_shape fuel before
  rw [hrun] at hshape
  refine ⟨self.finalRanges (clock before), self.restRanges (clock before),
    RangeIterator.ranges_forward _ _ _, RangeIterator.ranges_forward _ _ _, ?_, ?_⟩
  · unfold nonFinalizedStart
    omega
  · cases hshape with
    | cutShort h => exact absurd h hcut
    | allFinal hall => exact Or.inl ⟨hall, rfl, self.messages_finalizedPart before⟩
    | rest hle hloop =>
      refine Or.inr ⟨hle, ?_⟩
      cases hloop with
      | cutShort h => exact absurd h hcut
      | @stable k hk hreplaced hstable =>
        refine ⟨k, hreplaced, Or.inl ⟨rfl, hk, hstable, rfl, ?_⟩⟩
        simp [messages_append, messages_passes, messages_finalizedPart, pass]
      | outOfFuel hreplaced =>
        refine ⟨fuel, hreplaced, Or.inr ⟨rfl, rfl, ?_⟩⟩
        simp [messages_append, messages_passes, messages_finalizedPart]

end HistoricalRangeHandler

/-- The message is a range that contains the block. -/
def covers (n : ℕ) : BlockScannerResult → Bool
  | .ok (.data range) => decide (range.Contains n)
  | .ok (.notification _) | .error _ => false

/-- How many ranges of a cut contain a block. -/
lemma countP_covers {m s e : ℕ} {ranges : List RangeInclusive}
    (h : RangeInclusive.Chunks m s e ranges) (n : ℕ) :
    (ranges.map dataItem).countP (covers n) = if s ≤ n ∧ n ≤ e then 1 else 0 := by
  rw [List.countP_map, ← h.countP_contains n]
  rfl

namespace HistoricalRangeHandler

variable {self : HistoricalRangeHandler Hash}

/-- **Finalized blocks are sent exactly once.** -/
lemma Shaped.countP_finalized {fuel : ℕ} {before log : Log Hash} {done : Bool}
    (h : self.Shaped fuel before done log) (hbefore : messages before = []) {n : ℕ}
    (hstart : self.start ≤ n) (hn : n ≤ self.finalizedBatchEnd (clock before)) :
    (messages log).countP (covers n) = 1 := by
  obtain ⟨finals, rest, hfinals, hrest, -, hcases⟩ := h
  have hone : (finals.map dataItem).countP (covers n) = 1 := by
    rw [countP_covers hfinals, if_pos ⟨hstart, hn⟩]
  have hzero : (rest.map dataItem).countP (covers n) = 0 := by
    rw [countP_covers hrest, if_neg]
    unfold nonFinalizedStart
    omega
  have hpasses (k a : ℕ) :
      (List.replicate k (rest.map dataItem ++ [reorgItem a])).flatten.countP (covers n) = 0 := by
    rw [List.countP_flatten, List.map_replicate, List.countP_append, hzero]
    simp [covers]
  rcases hcases with ⟨-, -, hlog⟩ | ⟨-, k, -, ⟨-, -, -, -, hlog⟩ | ⟨-, -, hlog⟩⟩ <;>
    simp [hlog, hbefore, hone, hzero, hpasses]

end HistoricalRangeHandler

namespace BlockRangeScanner

variable [DecidableEq Hash] (self : BlockRangeScanner Hash)

/-- The handler that streams the blocks between two blocks, in either order. -/
def historicalHandler (sender : Sender) (a b : Block Hash) : HistoricalRangeHandler Hash :=
  ⟨self.provider, self.maxBlockRange, min a.number b.number, max a.number b.number, sender⟩

/-- The log when both ends of the range are resolved. -/
abbrev resolved (startId endId : BlockId Hash) : Log Hash :=
  [.request (.block endId), .request (.block startId)]

/-- The stream runs the handler when both ends are resolved. -/
lemma run_streamHistorical (sender : Sender) (fuel : ℕ) {startId endId : BlockId Hash}
    {a b : Block Hash} (log : Log Hash)
    (ha : self.provider.answer (clock log) (self.provider.findId (clock log) startId) = .ok a)
    (hb : self.provider.answer (clock log + 1) (self.provider.findId (clock log + 1) endId) =
      .ok b) :
    (self.streamHistorical sender fuel startId endId).run log =
      ((self.historicalHandler sender a b).handleStreamHistoricalRange fuel >>= fun _ =>
        pure (.ok ())).run (resolved startId endId ++ log) := by
  have hstart : (getBlock self.provider startId).run log =
      (some (.ok a), .request (.block startId) :: log) := by
    rw [← ha]
    exact run_call ..
  have hend : (getBlock self.provider endId).run (.request (.block startId) :: log) =
      (some (.ok b), resolved startId endId ++ log) := by
    rw [← hb, ← clock_request (.block startId) log]
    exact run_call ..
  have hbounds : (if a.number > b.number then (b.number, a.number) else (a.number, b.number)) =
      (min a.number b.number, max a.number b.number) := by
    split_ifs <;> simp only [Prod.mk.injEq] <;> omega
  unfold streamHistorical
  rw [Proc.run_bind_some hstart, Proc.run_bind_some hend]
  dsimp only
  rw [hbounds]
  rfl

/-- **The shape of the historical stream**, in every run in which no error is sent and the receiver
stays; finalized blocks are sent exactly once. -/
theorem streamHistorical_shape (sender : Sender) (fuel : ℕ) (startId endId : BlockId Hash)
    {a b : Block Hash} (ha : self.provider.answer 0 (self.provider.findId 0 startId) = .ok a)
    (hb : self.provider.answer 1 (self.provider.findId 1 endId) = .ok b)
    {result : Option (Except ScannerError Unit)} {log : Log Hash}
    (hrun : (self.streamHistorical sender fuel startId endId).run [] = (result, log))
    (hok : ∀ e, .sent (.error e) ∉ log) (hopen : sender.isOpen log = true) :
    (self.historicalHandler sender a b).Shaped fuel (resolved startId endId) result.isSome log ∧
      ∀ n, min a.number b.number ≤ n →
        n ≤ (self.historicalHandler sender a b).finalizedBatchEnd 2 →
        (messages log).countP (covers n) = 1 := by
  have hstart : (getBlock self.provider startId).run [] =
      (some (.ok a), [.request (.block startId)]) := by
    rw [← ha]
    exact run_call ..
  have hend : (getBlock self.provider endId).run [.request (.block startId)] =
      (some (.ok b), resolved startId endId) := by
    rw [← hb]
    exact run_call ..
  have hbounds : (if a.number > b.number then (b.number, a.number) else (a.number, b.number)) =
      (min a.number b.number, max a.number b.number) := by
    split_ifs <;> simp only [Prod.mk.injEq] <;> omega
  unfold streamHistorical at hrun
  rw [Proc.run_bind_some hstart, Proc.run_bind_some hend] at hrun
  dsimp only at hrun
  rw [hbounds] at hrun
  have hcut : ¬CutShort sender log := by
    rintro (⟨e, he⟩ | hclosed)
    · exact hok e he
    · simp [hopen] at hclosed
  have hshaped : (self.historicalHandler sender a b).Shaped fuel (resolved startId endId)
      result.isSome log := by
    rcases hhandler : ((self.historicalHandler sender a b).handleStreamHistoricalRange fuel).run
      (resolved startId endId) with ⟨_ | channel, log'⟩
    · obtain ⟨rfl, rfl⟩ := Prod.mk.inj ((Proc.run_bind_none hhandler).symm.trans hrun)
      exact HistoricalRangeHandler.shaped_of_run hhandler hcut
    · obtain ⟨rfl, rfl⟩ := Prod.mk.inj ((Proc.run_bind_some hhandler).symm.trans hrun)
      exact HistoricalRangeHandler.shaped_of_run hhandler hcut
  exact ⟨hshaped, fun n hn hfinal => hshaped.countP_finalized rfl hn hfinal⟩

/-! ### A block that is replaced once -/

/-- Blocks `2`, `3` and `4` are replaced before the fifth provider call. -/
def replacedOnce : BlockRangeScanner ℕ where
  provider := .healthy (switchAt 4 (.ofHashes 0 [1, 2, 3, 4] 1) (.ofHashes 0 [1, 12, 13, 14] 1))
  maxBlockRange := defaultMaxBlockRange
  pastBlocksStorageCapacity := .infinite

/-- The log of a historical stream between the blocks `3` and `1`. -/
def replacedOnceLog : Log ℕ :=
  ((replacedOnce.streamHistorical ⟨none⟩ 5 (.number (.number 3)) (.number (.number 1))).run []).2

/-- Block `1` is final and is sent once; `2..=3` is sent twice. -/
theorem streamHistorical_shape_replacedOnce :
    messages replacedOnceLog =
        [dataItem ⟨1, 1⟩, dataItem ⟨2, 3⟩, reorgItem 1, dataItem ⟨2, 3⟩] ∧
      (replacedOnce.historicalHandler ⟨none⟩ ⟨3, 3⟩ ⟨1, 1⟩).Shaped 5
        (resolved (.number (.number 3)) (.number (.number 1))) true replacedOnceLog := by
  have hmessages : messages replacedOnceLog =
      [dataItem ⟨1, 1⟩, dataItem ⟨2, 3⟩, reorgItem 1, dataItem ⟨2, 3⟩] := rfl
  refine ⟨hmessages, (replacedOnce.streamHistorical_shape ⟨none⟩ 5 (.number (.number 3))
    (.number (.number 1)) rfl rfl rfl (fun e he => ?_) rfl).1⟩
  have hmem : .error e ∈ messages replacedOnceLog := mem_messages.mpr he
  simp [hmessages] at hmem

end BlockRangeScanner

end EventScanner
