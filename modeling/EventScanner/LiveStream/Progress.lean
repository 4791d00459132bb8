import EventScanner.LiveStream.Cursor

set_option relaxedAutoImplicit false
set_option autoImplicit false

/-!
# The live stream processes every header

At the top of its main loop the live stream checks the previous batch end for every header, and
when the chain stays as it is and the calls succeed, the same round streams everything from
where the stream resumes up to the confirmed block. This needs a previous batch end, and the
loop loses it when a header that is confirmed before the start of the stream reveals a reorg
back to before the start.

## Main definitions

* `EventScanner.LiveConfig.ReorgsKeepBatchEnd` — the condition on the checks.
* `EventScanner.LiveConfig.Succeeds` — the calls succeed and the chain does not change.
* `EventScanner.LiveConfig.Processes` — a header is fully processed.

## Main results

* `EventScanner.LiveConfig.run_streamBatches_of_succeeds` — on an unchanged chain, with enough
  fuel, the batch loop ends and sends the chunks of its range.
* `EventScanner.LiveConfig.headers_processed` — every header is processed, in every run that meets
  the condition.
* `EventScanner.LiveConfig.not_processes_shallowHeader` — a run that ignores all later headers.
-/

namespace EventScanner

open HashChain EventLog

variable {Hash R : Type}

namespace LiveConfig

variable (cfg : LiveConfig Hash)

/-- A header for which a check of the main loop finds a reorg back to before the start of the
stream is confirmed at the start or later. -/
def ReorgsKeepBatchEnd : Event Hash → Log Hash → Prop
  | .checked _ (some a), past =>
    ∀ n ∈ checkedHeader past, a.number < cfg.streamStart → cfg.streamStart ≤ cfg.confirmed n
  | _, _ => True

instance (e : Event Hash) (past : Log Hash) : Decidable (cfg.ReorgsKeepBatchEnd e past) :=
  match e with
  | .checked _ (some a) =>
    inferInstanceAs (Decidable (∀ n ∈ checkedHeader past, a.number < cfg.streamStart →
      cfg.streamStart ≤ cfg.confirmed n))
  | .checked _ none | .sent _ | .request _ | .received _ => .isTrue trivial

/-- The calls between the logs `log` and `log'` succeed, on a chain with the given hashes, and the
receiver is still there at the end. -/
structure Succeeds (log log' : Log Hash) (hashes : List Hash) : Prop where
  /-- No call fails. -/
  fault_eq : ∀ k, clock log ≤ k → k < clock log' → cfg.provider.fault k = none
  /-- The chain does not change. -/
  hashes_eq : ∀ k, clock log ≤ k → k < clock log' → (cfg.provider.view k).hashes = hashes
  /-- The consumer still listens. -/
  isOpen : cfg.sender.isOpen log' = true

/-! ### The batch loop on an unchanged chain -/

variable {cfg} {log log₀ log' : Log Hash} {hashes : List Hash}

/-- The part of a run behind some of its events. -/
lemma Succeeds.of_suffix (h : cfg.Succeeds log₀ log' hashes) (hs : log₀ <:+ log) :
    cfg.Succeeds log log' hashes :=
  have hle := clock_le_of_suffix hs
  ⟨fun k hk => h.fault_eq k (by omega), fun k hk => h.hashes_eq k (by omega), h.isOpen⟩

/-- A call of the run sees the block at a height of the chain. -/
lemma Succeeds.exists_sees (h : cfg.Succeeds log log' hashes) (hlt : clock log < clock log')
    {n : ℕ} (hn : n < hashes.length) :
    ∃ b, b.number = n ∧ hashes[b.number]? = some b.hash ∧
      DefaultReorgHandler.Sees cfg.provider (clock log) b := by
  have hhashes := h.hashes_eq _ (Nat.le_refl _) hlt
  refine ⟨⟨n, hashes[n]⟩, rfl, List.getElem?_eq_getElem hn,
    h.fault_eq _ (Nat.le_refl _) hlt, ?_⟩
  unfold Chain.Canonical Chain.hashAt
  rw [hhashes]
  exact List.getElem?_eq_getElem hn

/-- A fetch that is part of a successful run finds the block. -/
lemma run_getBlockByNumber_of_succeeds {α : Type}
    {f : Except RobustProviderError (Block Hash) → Proc (Event Hash) α} {n : ℕ}
    (hs : cfg.Succeeds log ((getBlockByNumber cfg.provider (.number n) >>= f).run log).2 hashes)
    (hn : n < hashes.length) :
    ∃ b, b.number = n ∧ hashes[b.number]? = some b.hash ∧
      (getBlockByNumber cfg.provider (.number n) >>= f).run log =
        (f (.ok b)).run (.request (.blockByNumber (.number n)) :: log) := by
  have hsuffix : .request (.blockByNumber (.number n)) :: log <:+ _ :=
    Proc.suffix_run_bind (getBlockByNumber cfg.provider (.number n)) f
  have hlt := clock_le_of_suffix hsuffix
  rw [clock_request] at hlt
  obtain ⟨b, rfl, hhash, hsees⟩ := hs.exists_sees (by omega) hn
  refine ⟨b, rfl, hhash, ?_⟩
  unfold getBlockByNumber
  rw [Proc.run_bind_some (run_call _ _ _ _), DefaultReorgHandler.answer_eq_ok_of_sees hsees]

variable [DecidableEq Hash] {h : DefaultReorgHandler Hash}

/-- A check that is part of a successful run finds a block of the unchanged chain again. -/
lemma run_checkBlock_of_succeeds {α : Type} {b : Block Hash}
    {f : Except ScannerError (Option (Block Hash)) × DefaultReorgHandler Hash →
      Proc (Event Hash) α}
    (hprov : h.provider = cfg.provider)
    (hs : cfg.Succeeds log ((checkBlock h b >>= f).run log).2 hashes)
    (hb : hashes[b.number]? = some b.hash) :
    (checkBlock h b >>= f).run log = (f (.ok none, h.remember b)).run
      (.checked b none :: .request (.blockByNumber (.number b.number)) :: log) := by
  have hsuffix : .request (.blockByNumber (.number b.number)) :: log <:+
      ((checkBlock h b >>= f).run log).2 := by
    refine (h.request_suffix_check b log).trans ?_
    exact (Proc.suffix_run_bind _ _).trans (Proc.suffix_run_bind _ _)
  have hlt := clock_le_of_suffix hsuffix
  rw [clock_request] at hlt
  have hsees : DefaultReorgHandler.Sees h.provider (clock log) b := by
    rw [hprov]
    refine ⟨hs.fault_eq _ (Nat.le_refl _) (by omega), ?_⟩
    unfold Chain.Canonical Chain.hashAt
    rw [hs.hashes_eq _ (Nat.le_refl _) (by omega)]
    exact hb
  have hrun : (checkBlock h b).run log = (some (.ok none, h.remember b),
      .checked b none :: .request (.blockByNumber (.number b.number)) :: log) := by
    unfold checkBlock
    rw [Proc.run_bind_some (DefaultReorgHandler.run_check_of_sees hsees)]
    rfl
  exact Proc.run_bind_some hrun

variable {fuel : ℕ} {iter iter' : RangeIterator .forward} {last : Option (Block Hash)}
  {batch : RangeInclusive}

/-- A round of the batch loop on an unchanged chain: the batch is sent and its last block passes
the check. -/
lemma run_round_of_succeeds (hprov : h.provider = cfg.provider)
    (hnext : iter.next = some (batch, iter')) (hstop : batch.stop < hashes.length)
    (hs : cfg.Succeeds log ((streamBatches cfg.sender cfg.provider cfg.minCommonAncestor (fuel + 1)
      iter last h).run log).2 hashes) :
    ∃ b, b.number = batch.stop ∧ hashes[b.number]? = some b.hash ∧
      (streamBatches cfg.sender cfg.provider cfg.minCommonAncestor (fuel + 1) iter last h).run log =
        (streamBatches cfg.sender cfg.provider cfg.minCommonAncestor fuel iter' (some b)
          (h.remember b)).run
          (.checked b none :: .request (.blockByNumber (.number b.number)) ::
            .sent (dataItem batch) :: .request (.blockByNumber (.number batch.stop)) :: log) := by
  simp only [streamBatches, hnext] at hs ⊢
  obtain ⟨b, hnum, hhash, hrun⟩ := run_getBlockByNumber_of_succeeds hs hstop
  rw [hrun] at hs ⊢
  dsimp only at hs ⊢
  have hopen : cfg.sender.isOpen (.request (.blockByNumber (.number batch.stop)) :: log) = true :=
    Sender.isOpen_of_suffix (Proc.grows _ _) hs.isOpen
  have hsend := run_tryStream cfg.sender (dataItem batch)
    (.request (.blockByNumber (.number batch.stop)) :: log)
  rw [if_pos hopen] at hsend
  rw [Proc.run_bind_some hsend] at hs ⊢
  simp only [ChannelState.isClosed, Bool.false_eq_true, if_false] at hs ⊢
  rw [run_checkBlock_of_succeeds hprov (hs.of_suffix ?_) hhash]
  · exact ⟨b, hnum, hhash, rfl⟩
  · exact (List.suffix_cons _ _).trans (List.suffix_cons _ _)

/-- What the batch loop leaves behind that has sent some ranges up to `stop`: the block that it
ended with, and the handler that has checked it. -/
def BatchesLeave (hashes : List Hash) (stop : ℕ) (rs : List RangeInclusive)
    (last last' : Option (Block Hash)) (h h' : DefaultReorgHandler Hash) : Prop :=
  (rs = [] ∧ last' = last ∧ h' = h) ∨
    rs ≠ [] ∧ ∃ b, last' = some b ∧ b.number = stop ∧ hashes[b.number]? = some b.hash ∧
      (h.buffer.capacity.Admits h.buffer.inner.length → h.buffer.capacity.Admits 1 →
        h'.buffer.back.map Block.hash = some b.hash)

/-- One more round of the batch loop before the others. -/
lemma BatchesLeave.cons {stop : ℕ} {rs : List RangeInclusive} {b : Block Hash}
    {last' : Option (Block Hash)} {h' : DefaultReorgHandler Hash}
    (hrest : BatchesLeave hashes stop rs (some b) last' (h.remember b) h')
    (hstop : rs = [] → b.number = stop) (hb : hashes[b.number]? = some b.hash)
    (r : RangeInclusive) : BatchesLeave hashes stop (r :: rs) last last' h h' := by
  refine Or.inr ⟨List.cons_ne_nil r rs, ?_⟩
  rcases hrest with ⟨hrs, rfl, rfl⟩ | ⟨-, b', rfl, hnum, hhash, hnewest⟩
  · exact ⟨b, rfl, hstop hrs, hb, fun hadmits hone =>
      DefaultReorgHandler.back_remember hadmits hone b⟩
  · refine ⟨b', rfl, hnum, hhash, fun hadmits hone => hnewest ?_ ?_⟩
    · rw [DefaultReorgHandler.remember_capacity]
      exact DefaultReorgHandler.admits_remember hadmits b
    · rwa [DefaultReorgHandler.remember_capacity]

/-- **The batch loop on an unchanged chain**: it ends, with the chunks of its range sent.

**Proof sketch.** Induction on the fuel. In each round the fetch finds the last block of the
batch, the receiver is there, and the check finds the same block again. -/
theorem run_streamBatches_of_succeeds (hprov : h.provider = cfg.provider) (hwf : iter.Wf)
    (hs : cfg.Succeeds log ((streamBatches cfg.sender cfg.provider cfg.minCommonAncestor fuel
      iter last h).run log).2 hashes)
    (hstop : iter.stop < hashes.length) (hpos : 1 ≤ fuel)
    (hfuel : iter.stop + 1 < fuel + iter.current) :
    ∃ rs last' h' log', RangeInclusive.Chunks iter.rangeSize iter.current iter.stop rs ∧
      BatchesLeave hashes iter.stop rs last last' h h' ∧
      (streamBatches cfg.sender cfg.provider cfg.minCommonAncestor fuel iter last h).run log =
        (some (last', h'), log') ∧
      sentRanges log' = rs.reverse ++ sentRanges log ∧
      messages log' = messages log ++ rs.map dataItem := by
  induction fuel generalizing iter last h log with
  | zero => omega
  | succ fuel ih =>
    cases hnext : iter.next with
    | none =>
      refine ⟨[], last, h, log, hwf.next_eq_none.mp hnext, Or.inl ⟨rfl, rfl, rfl⟩, ?_, rfl,
        (List.append_nil _).symm⟩
      simp only [streamBatches, hnext]
      rfl
    | some next =>
      obtain ⟨batch, iter'⟩ := next
      obtain ⟨hle, hbatch, hcur, hstop', hsize, hwf'⟩ := hwf.next_eq_some hnext
      have hbatchStop : batch.stop ≤ iter.stop := by
        rw [hbatch]
        exact Nat.min_le_right _ _
      have hstart : iter.current ≤ batch.stop := by
        rw [hbatch]
        dsimp only
        omega
      obtain ⟨b, hnum, hb, hrun⟩ := run_round_of_succeeds hprov hnext (by omega) hs
      rw [hrun] at hs ⊢
      obtain ⟨rs, last', h', log', hchunks, hleave, hrun', hsent, hmessages⟩ :=
        ih ((DefaultReorgHandler.remember_provider h b).trans hprov) hwf'
          (hs.of_suffix (List.suffix_append [_, _, _, _] log)) (by omega) (by omega) (by omega)
      rw [hstop'] at hleave hchunks
      rw [hcur, hsize] at hchunks
      have hend : rs = [] → b.number = iter.stop := by
        rintro rfl
        have hdone : iter.stop < batch.stop + 1 := hchunks
        omega
      refine ⟨batch :: rs, last', h', log', ⟨hle, hbatch, hchunks⟩, hleave.cons hend hb batch,
        hrun', ?_, ?_⟩
      · rw [hsent]
        simp [sentRanges]
      · rw [hmessages]
        simp

/-! ### Rounds of the main loop -/

variable (cfg) in
/-- Where the stream stands behind the check of the previous batch end `b` with the answer
`a`. -/
def afterCheck (b : Block Hash) : Option (Block Hash) → LiveStreamingState Hash
  | none => ⟨b.number + 1, some b⟩
  | some a => cfg.afterReorg a

variable (cfg) in
/-- A header `n` is fully processed at the top of the main loop. There is a previous batch end
`b`, and the round begins with its check. If the check answers with `a`, all calls of the round
succeed on an unchanged chain that has the confirmed block, the receiver stays, there is enough
fuel, and the confirmed block is not below the position behind the check, then the round ends at
the top of the loop, and the ranges it has sent are the chunks from that position up to the
confirmed block. -/
def Processes (fuel n : ℕ) (state : LiveStreamingState Hash) (h : DefaultReorgHandler Hash)
    (log : Log Hash) : Prop :=
  ∃ b, state.previousBatchEnd = some b ∧
    ((ReorgHandler.check h b).run (.received (.ok n) :: log)).2 <:+
      ((cfg.liveIteration fuel (.ok n) state h).run log).2 ∧
    ∀ a h₁ log₁ hashes,
      (ReorgHandler.check h b).run (.received (.ok n) :: log) = (some (.ok a, h₁), log₁) →
      (cfg.afterCheck b a).batchStart ≤ cfg.confirmed n →
      cfg.Succeeds log ((cfg.liveIteration fuel (.ok n) state h).run log).2 hashes →
      cfg.confirmed n < hashes.length → cfg.confirmed n + 2 ≤ fuel →
      ∃ state' h' log' rs,
        (cfg.liveIteration fuel (.ok n) state h).run log = (some (some (state', h')), log') ∧
          RangeInclusive.Chunks cfg.maxBlockRange (cfg.afterCheck b a).batchStart
            (cfg.confirmed n) rs ∧
          sentRanges log' = rs.reverse ++ sentRanges log

section Round

variable {n : ℕ} {b : Block Hash} {a : Option (Block Hash)} {h₁ : DefaultReorgHandler Hash}
  {log₁ : Log Hash} {batchStart : ℕ}

variable (cfg) in
/-- The check of the previous batch end begins the round of a header. -/
lemma check_suffix_liveIteration (fuel n batchStart : ℕ) (b : Block Hash)
    (h : DefaultReorgHandler Hash) (log : Log Hash) :
    ((checkBlock h b).run (.received (.ok n) :: log)).2 <:+
      ((cfg.liveIteration fuel (.ok n) ⟨batchStart, some b⟩ h).run log).2 := by
  unfold liveIteration
  rw [Proc.run_bind_emit]
  exact Proc.suffix_run_bind _ _

/-- The events by which the main loop reports the answer of its check. -/
def reorgNotice : Option (Block Hash) → Log Hash
  | none => []
  | some a => [.sent (reorgItem a.number)]

omit [DecidableEq Hash] in
/-- The log grows from the header to the report. -/
lemma suffix_reorgNotice (b : Block Hash) (a : Option (Block Hash)) (reqs : Log Hash) (n : ℕ)
    (log : Log Hash) :
    log <:+ reorgNotice a ++ .checked b a :: (reqs ++ .received (.ok n) :: log) := by
  refine ((List.suffix_cons (.received (.ok n)) log).trans (List.suffix_append reqs _)).trans ?_
  exact (List.suffix_cons (.checked b a) _).trans (List.suffix_append _ _)

omit [DecidableEq Hash] in
/-- No range is sent from the header to the report. -/
lemma sentRanges_reorgNotice {reqs : Log Hash} (b : Block Hash) (a : Option (Block Hash))
    (hreqs : ∀ e ∈ reqs, e.isRequest = true) (n : ℕ) (log : Log Hash) :
    sentRanges (reorgNotice a ++ .checked b a :: (reqs ++ .received (.ok n) :: log)) =
      sentRanges log := by
  have hsilent := sentRanges_of_silent (silentLog_of_isRequest hreqs) (.received (.ok n) :: log)
  cases a <;> exact hsilent

/-- Behind an answered check the round reports a reorg and streams up to the confirmed block, unless
the receiver is gone. -/
lemma run_liveIteration_of_check
    (hcheck : (ReorgHandler.check h b).run (.received (.ok n) :: log) = (some (.ok a, h₁), log₁))
    (hopen : cfg.sender.isOpen
      ((cfg.liveIteration fuel (.ok n) ⟨batchStart, some b⟩ h).run log).2 = true) :
    (cfg.liveIteration fuel (.ok n) ⟨batchStart, some b⟩ h).run log =
      (cfg.streamUpTo fuel n (cfg.afterCheck b a) h₁).run
        (reorgNotice a ++ .checked b a :: log₁) := by
  have hrun : (checkBlock h b).run (.received (.ok n) :: log) =
      (some (.ok a, h₁), .checked b a :: log₁) := by
    unfold checkBlock
    rw [Proc.run_bind_some hcheck]
    rfl
  have hsuffix := check_suffix_liveIteration cfg fuel n batchStart b h log
  rw [hrun] at hsuffix
  have hopen' := Sender.isOpen_of_suffix hsuffix hopen
  unfold liveIteration
  rw [Proc.run_bind_emit]
  dsimp only
  rw [Proc.run_bind_some hrun]
  cases a with
  | none => rfl
  | some a =>
    dsimp only
    rw [Proc.run_bind_some (by rw [run_handleReorgDetected, if_pos hopen'])]
    rfl

variable (cfg) in
/-- When there is something to stream, the log grows as the batch loop makes it grow. -/
lemma streamUpTo_log {state : LiveStreamingState Hash} (hle : state.batchStart ≤ cfg.confirmed n)
    (fuel : ℕ) (h : DefaultReorgHandler Hash) (log : Log Hash) :
    ((cfg.streamUpTo fuel n state h).run log).2 =
      ((streamBatches cfg.sender cfg.provider cfg.minCommonAncestor fuel
        (.forward state.batchStart (cfg.confirmed n) cfg.maxBlockRange) none h).run log).2 := by
  rw [cfg.run_streamUpTo_of_le hle]
  rcases (streamBatches cfg.sender cfg.provider cfg.minCommonAncestor fuel
    (.forward state.batchStart (cfg.confirmed n) cfg.maxBlockRange) none h).run log with
    ⟨_ | ⟨_ | b, h'⟩, log'⟩ <;> rfl

/-- **Streaming up to the confirmed block on an unchanged chain.** The range is not empty, so the
batch loop returns its last block. -/
lemma run_streamUpTo_of_succeeds {state : LiveStreamingState Hash}
    (hprov : h.provider = cfg.provider) (hle : state.batchStart ≤ cfg.confirmed n)
    (hs : cfg.Succeeds log ((cfg.streamUpTo fuel n state h).run log).2 hashes)
    (hheight : cfg.confirmed n < hashes.length) (hfuel : cfg.confirmed n + 2 ≤ fuel) :
    ∃ rs b h' log', RangeInclusive.Chunks cfg.maxBlockRange state.batchStart (cfg.confirmed n) rs ∧
      b.number = cfg.confirmed n ∧ hashes[b.number]? = some b.hash ∧
      (h.buffer.capacity.Admits h.buffer.inner.length → h.buffer.capacity.Admits 1 →
        h'.buffer.back.map Block.hash = some b.hash) ∧
      (cfg.streamUpTo fuel n state h).run log =
        (some (some (⟨cfg.confirmed n + 1, some b⟩, h')), log') ∧
      sentRanges log' = rs.reverse ++ sentRanges log ∧
      messages log' = messages log ++ rs.map dataItem := by
  rw [cfg.streamUpTo_log hle] at hs
  rw [cfg.run_streamUpTo_of_le hle]
  obtain ⟨rs, last, h', log', hchunks, hleave, hrun, hsent⟩ := run_streamBatches_of_succeeds
    hprov (RangeIterator.wf_forward ..) hs hheight (by omega)
    (by dsimp only [RangeIterator.forward]; omega)
  have hne : rs ≠ [] := by
    rintro rfl
    exact Nat.not_lt_of_le hle hchunks
  obtain ⟨-, b, rfl, hnum, hhash, hnewest⟩ := hleave.resolve_left fun hnil => hne hnil.1
  rw [hrun]
  exact ⟨rs, b, h', log', hchunks, hnum, hhash, hnewest, rfl, hsent⟩

/-- **A round of the main loop with a previous batch end processes its header.**

**Proof sketch.** The check is the first thing the round does. Behind it, the batch loop runs from
the new position up to the confirmed block. -/
theorem processes_of_batchEnd (hprov : h.provider = cfg.provider) (fuel n batchStart : ℕ)
    (b : Block Hash) (log : Log Hash) : cfg.Processes fuel n ⟨batchStart, some b⟩ h log := by
  refine ⟨b, rfl, ?_, ?_⟩
  · exact (Proc.suffix_run_bind _ _).trans
      (check_suffix_liveIteration cfg fuel n batchStart b h log)
  · intro a h₁ log₁ hashes hcheck hle hs hheight hfuel
    obtain ⟨answer, h₂, reqs, hquiet, hreqs⟩ :=
      ReorgHandler.check_quiet h b (.received (.ok n) :: log)
    rw [hquiet] at hcheck
    simp only [Prod.mk.injEq, Option.some.injEq] at hcheck
    obtain ⟨⟨rfl, rfl⟩, rfl⟩ := hcheck
    have hrun := run_liveIteration_of_check hquiet hs.isOpen
    have hsent := sentRanges_reorgNotice b a hreqs n log
    have hsuffix := suffix_reorgNotice b a reqs n log
    rw [hrun] at hs ⊢
    obtain ⟨rs, b', h', log', hchunks, -, -, -, hrun', hranges, -⟩ := run_streamUpTo_of_succeeds
      ((DefaultReorgHandler.check_provider hquiet).trans hprov) hle (hs.of_suffix hsuffix) hheight
      hfuel
    exact ⟨_, h', log', rs, hrun', hchunks, hranges.trans (by rw [hsent])⟩

end Round

/-! ### Every run -/

variable (cfg) in
/-- The main loop is not at its top without a previous batch end, and the handler asks the same
node as the stream. -/
def HasBatchEnd (s : LiveState Hash (DefaultReorgHandler Hash)) : Prop :=
  match s.phase with
  | .waiting state => s.handler.provider = cfg.provider ∧ state.previousBatchEnd.isSome
  | .starting | .streaming _ _ => s.handler.provider = cfg.provider
  | .stopped => True

variable {s t : LiveState Hash (DefaultReorgHandler Hash)}

/-- **One step keeps the previous batch end.**

**Proof sketch.** Only a reorg back to before the start of the stream leaves the loop without a
previous batch end. The condition says that the header which reveals it has a confirmed block
from the start on, so the batch loop runs before the top of the loop is reached again, and it
returns a block. -/
lemma hasBatchEnd_step (hst : LiveStep cfg s t) (hC : Always cfg.ReorgsKeepBatchEnd t.log)
    (hI : cfg.HasBatchEnd s) : cfg.HasBatchEnd t := by
  cases hst with
  | first hrel hnotice => exact hI
  | batch hb =>
    cases hb with
    | emit hnext hnum hsees => exact hI
    | clean hcheck hreqs => exact (DefaultReorgHandler.check_provider hcheck).trans hI
    | reorg hcheck hreqs => exact (DefaultReorgHandler.check_provider hcheck).trans hI
  | batchesDone hnext => exact ⟨hI, rfl⟩
  | lagged => exact hI
  | ignored => exact hI
  | @header n _ b _ _ _ _ _ hh =>
    obtain ⟨hprov, -⟩ := hI
    cases hh with
    | clean hcheck hreqs =>
      have hprov' := (DefaultReorgHandler.check_provider hcheck).trans hprov
      unfold proceed
      split_ifs
      · exact ⟨hprov', rfl⟩
      · exact hprov'
    | @reorg a _ _ _ _ hcheck hreqs =>
      have hprov' := (DefaultReorgHandler.check_provider hcheck).trans hprov
      unfold proceed afterReorg
      split_ifs with ha hlt hlt
      · have hkeep := hC.2.1 n (checkedHeader_append hreqs n _) ha
        dsimp only at hlt
        omega
      · exact hprov'
      · exact ⟨hprov', rfl⟩
      · exact hprov'
  | stop hextra => trivial

/-- **Every header is processed**, in every run in which each header that reveals a reorg back to
before the start of the stream is confirmed at the start or later. -/
theorem headers_processed (capacity : RingBufferCapacity) {state : LiveStreamingState Hash}
    (htop : LoopTop cfg (DefaultReorgHandler.new cfg.provider capacity) state h log)
    (hC : Always cfg.ReorgsKeepBatchEnd log) (fuel n : ℕ) :
    cfg.Processes fuel n state h log := by
  have hI := LoggedSystem.invariant (I := cfg.HasBatchEnd)
    (fun _ _ hst hC hI => hasBatchEnd_step hst hC hI) htop.reach rfl hC
  obtain ⟨batchStart, _ | b⟩ := state
  · exact absurd hI.2 (by simp)
  · exact processes_of_batchEnd hI.1 fuel n batchStart b log

/-! ### A header confirmed before the start -/

/-- Blocks `1` and `2` are replaced after the second provider call. -/
def shallowHeader : RobustProvider ℕ :=
  .healthy (switchAt 2 (.ofHashes 0 [1, 2] 0) (.ofHashes 0 [11, 12, 13] 0))

/-- The live stream over that chain. -/
def shallowHeaderConfig (streamStart : ℕ) : LiveConfig ℕ where
  streamStart := streamStart
  blockConfirmations := 0
  maxBlockRange := defaultMaxBlockRange
  sender := ⟨none⟩
  provider := shallowHeader

/-- The handler of that stream, with the given blocks in its buffer. -/
abbrev shallowHeaderHandler (blocks : List (Block ℕ)) : DefaultReorgHandler ℕ :=
  ⟨shallowHeader, ⟨blocks, .infinite⟩⟩

/-- The log of the run from block `2` on, behind the headers `2` and `1`: block `2` was sent and
found replaced, and block `1` of the new fork lies before the start. -/
def shallowHeaderLog : Log ℕ :=
  [.sent (reorgItem 0), .checked ⟨2, 2⟩ (some ⟨0, 0⟩), .request (.blockByNumber .finalized),
    .request (.blockByNumber (.number 2)), .request (.blockByNumber (.number 2)),
    .received (.ok 1), .checked ⟨2, 2⟩ none, .request (.blockByNumber (.number 2)),
    .sent (dataItem ⟨2, 2⟩), .request (.blockByNumber (.number 2)), .received (.ok 2)]

/-- The log behind the header `2` alone. -/
def shallowHeaderStart : Log ℕ :=
  shallowHeaderLog.drop 6

/-- The main loop is entered behind the header `2`. -/
lemma loopTop_shallowHeaderStart :
    LoopTop (shallowHeaderConfig 2) (shallowHeaderHandler []) ⟨2, some ⟨2, 2⟩⟩
      (shallowHeaderHandler [⟨2, 2⟩]) shallowHeaderStart := by
  have hfirst : ((shallowHeaderConfig 2).initializeLiveStreamingState 3 2
      (shallowHeaderHandler [])).run [.received (.ok 2)] =
        (some (some ⟨2, some ⟨2, 2⟩⟩, shallowHeaderHandler [⟨2, 2⟩]), shallowHeaderStart) := rfl
  exact .first (by decide) (Or.inl rfl) hfirst

/-- The log behind the headers `2` and `3`: the second reveals the same reorg, and its batch run is
`2..=3`. -/
def deepHeaderLog : Log ℕ :=
  [.checked ⟨3, 13⟩ none, .request (.blockByNumber (.number 3)), .sent (dataItem ⟨2, 3⟩),
    .request (.blockByNumber (.number 3)), .sent (reorgItem 0), .checked ⟨2, 2⟩ (some ⟨0, 0⟩),
    .request (.blockByNumber .finalized), .request (.blockByNumber (.number 2)),
    .request (.blockByNumber (.number 2)), .received (.ok 3)] ++ shallowHeaderStart

/-- The theorem on a run with a reorg back to before the start that a header at full height
reveals. -/
theorem headers_processed_deepHeader :
    (shallowHeaderConfig 2).Processes 5 3 ⟨4, some ⟨3, 13⟩⟩ (shallowHeaderHandler [⟨3, 13⟩])
      deepHeaderLog := by
  have hround : ((shallowHeaderConfig 2).liveIteration 4 (.ok 3) ⟨2, some ⟨2, 2⟩⟩
      (shallowHeaderHandler [⟨2, 2⟩])).run shallowHeaderStart =
        (some (some (⟨4, some ⟨3, 13⟩⟩, shallowHeaderHandler [⟨3, 13⟩])), deepHeaderLog) := rfl
  exact headers_processed .infinite (.next loopTop_shallowHeaderStart hround) (by decide) 5 3

/-- The top of the main loop behind the headers `2` and `1`. -/
lemma loopTop_shallowHeader :
    LoopTop (shallowHeaderConfig 2) (shallowHeaderHandler []) ⟨2, none⟩ (shallowHeaderHandler [])
      shallowHeaderLog := by
  have hround : ((shallowHeaderConfig 2).liveIteration 3 (.ok 1) ⟨2, some ⟨2, 2⟩⟩
      (shallowHeaderHandler [⟨2, 2⟩])).run shallowHeaderStart =
        (some (some (⟨2, none⟩, shallowHeaderHandler [])), shallowHeaderLog) := rfl
  exact .next loopTop_shallowHeaderStart hround

/-- The stream from block `2` on is at the top of its main loop behind the headers `2` and `1`, and
processes no header any more: it takes every later header and does nothing. -/
theorem not_processes_shallowHeader :
    ∃ state h log, LoopTop (shallowHeaderConfig 2) (shallowHeaderHandler []) state h log ∧
      ∀ fuel n, ¬(shallowHeaderConfig 2).Processes fuel n state h log ∧
        ((shallowHeaderConfig 2).liveIteration fuel (.ok n) state h).run log =
          (some (some (state, h)), .received (.ok n) :: log) := by
  refine ⟨_, _, _, loopTop_shallowHeader, fun fuel n => ⟨?_, rfl⟩⟩
  rintro ⟨b, hb, -⟩
  simp at hb

end LiveConfig

end EventScanner
