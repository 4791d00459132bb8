import EventScanner.BlockRangeScanner.Common

set_option relaxedAutoImplicit false
set_option autoImplicit false

/-!
# The batch loop as a transition system

`stream_range_with_reorg_handling` is one loop over the batches of a range. This file says once
what a round of that loop can do, as a step relation, and shows that every run of the loop is a
run of these steps.

## Main definitions

* `EventScanner.BatchPhase`, `EventScanner.BatchState` — where the loop stands.
* `EventScanner.BatchStep` — one step: send a batch, or check its last block.
* `EventScanner.batchSystem` — the steps as a logged transition system.

## Main results

* `EventScanner.streamBatches_reach` — a run of the loop is a run of the steps; it ends with an
  exhausted iterator, or stops after events that no consumer sees as blocks or reorgs.
-/

namespace EventScanner

open HashChain

variable {Hash R : Type}

/-- The consumer learns nothing about blocks from the event: it sends neither a range nor a
reorg. -/
def Event.Silent : Event Hash → Prop
  | .sent (.ok (.data _)) | .sent (.ok (.notification (.reorgDetected _))) => False
  | _ => True

@[simp] lemma Event.silent_request (r : Request Hash) : (Event.request r).Silent := trivial

@[simp] lemma Event.silent_received (item : Except RobustProviderError ℕ) :
    (Event.received item : Event Hash).Silent := trivial

@[simp] lemma Event.silent_checked (b : Block Hash) (a : Option (Block Hash)) :
    (Event.checked b a).Silent := trivial

@[simp] lemma Event.silent_error (e : ScannerError) :
    (Event.sent (.error e) : Event Hash).Silent := trivial

@[simp] lemma Event.silent_switchingToLive :
    (Event.sent (notificationItem .switchingToLive) : Event Hash).Silent := trivial

lemma Event.silent_of_isRequest {e : Event Hash} (h : e.isRequest = true) : e.Silent := by
  cases e <;> simp_all

/-- Events from which the consumer learns nothing about blocks. -/
def SilentLog (events : Log Hash) : Prop := ∀ e ∈ events, e.Silent

@[simp] lemma silentLog_nil : SilentLog ([] : Log Hash) := by simp [SilentLog]

@[simp] lemma silentLog_cons {e : Event Hash} {events : Log Hash} :
    SilentLog (e :: events) ↔ e.Silent ∧ SilentLog events := by simp [SilentLog]

@[simp] lemma silentLog_append {events events' : Log Hash} :
    SilentLog (events ++ events') ↔ SilentLog events ∧ SilentLog events' := by
  simp [SilentLog, or_imp, forall_and]

lemma silentLog_of_isRequest {reqs : Log Hash} (h : ∀ e ∈ reqs, e.isRequest = true) :
    SilentLog reqs := fun e he => Event.silent_of_isRequest (h e he)

/-- Sending an error leaves at most that error in the log. -/
lemma tryStream_error (sender : Sender) (e : ScannerError) (log : Log Hash) :
    ∃ channel extra, (tryStream sender (.error e)).run log = (some channel, extra ++ log) ∧
      SilentLog extra := by
  rw [run_tryStream]
  split_ifs
  · exact ⟨.opened, [.sent (.error e)], rfl, by simp⟩
  · exact ⟨.closed, [], rfl, by simp⟩

/-! ### The steps -/

/-- Where the batch loop stands. -/
inductive BatchPhase (Hash : Type)
  /-- At the top of the loop. -/
  | ready (iter : RangeIterator .forward) (lastBatchEnd : Option (Block Hash))
  /-- A batch has been sent; its last block is still to be checked. -/
  | sent (iter : RangeIterator .forward) (batchEnd : Block Hash)

/-- The state of the batch loop. -/
structure BatchState (Hash R : Type) where
  /-- Where the loop stands. -/
  phase : BatchPhase Hash
  /-- The reorg handler. -/
  handler : R
  /-- The events so far. -/
  log : Log Hash

section Steps

variable [ReorgHandler Hash R]

/-- A step of the batch loop. -/
inductive BatchStep (provider : RobustProvider Hash) (minCommonAncestor : ℕ) :
    BatchState Hash R → BatchState Hash R → Prop
  /-- The last block of the next batch is fetched and the batch is sent. -/
  | emit {iter iter' : RangeIterator .forward} {last : Option (Block Hash)} {h : R}
      {log : Log Hash} {batch : RangeInclusive} {b : Block Hash} :
      iter.next = some (batch, iter') → b.number = batch.stop →
      DefaultReorgHandler.Sees provider (clock log) b →
      BatchStep provider minCommonAncestor ⟨.ready iter last, h, log⟩
        ⟨.sent iter' b, h,
          .sent (dataItem batch) :: .request (.blockByNumber (.number batch.stop)) :: log⟩
  /-- The last block of the batch is still there. -/
  | clean {iter : RangeIterator .forward} {b : Block Hash} {h h' : R} {log reqs : Log Hash} :
      (ReorgHandler.check h b).run log = (some (.ok none, h'), reqs ++ log) →
      (∀ e ∈ reqs, e.isRequest = true) →
      BatchStep provider minCommonAncestor ⟨.sent iter b, h, log⟩
        ⟨.ready iter (some b), h', .checked b none :: (reqs ++ log)⟩
  /-- The last block of the batch was replaced: the iterator goes back. -/
  | reorg {iter : RangeIterator .forward} {b a : Block Hash} {h h' : R} {log reqs : Log Hash} :
      (ReorgHandler.check h b).run log = (some (.ok (some a), h'), reqs ++ log) →
      (∀ e ∈ reqs, e.isRequest = true) →
      BatchStep provider minCommonAncestor ⟨.sent iter b, h, log⟩
        ⟨.ready (iter.resetTo (max (a.number + 1) minCommonAncestor)) (some b), h',
          .sent (reorgItem a.number) :: .checked b (some a) :: (reqs ++ log)⟩

/-- The batch loop as a logged transition system. -/
def batchSystem (provider : RobustProvider Hash) (minCommonAncestor : ℕ) :
    EventLog.LoggedSystem (BatchState Hash R) (Event Hash) where
  log := BatchState.log
  step := BatchStep provider minCommonAncestor
  log_suffix := by
    rintro s t (_ | _ | _)
    · exact (List.suffix_cons _ _).trans (List.suffix_cons _ _)
    · exact (List.suffix_append _ _).trans (List.suffix_cons _ _)
    · exact ((List.suffix_append _ _).trans (List.suffix_cons _ _)).trans (List.suffix_cons _ _)

/-! ### Runs of the loop -/

/-- How a run of the batch loop with result `res` and final log `log'` ends: at a state with an
exhausted iterator, whose last batch end it returns, or on the way, without a result. -/
def BatchEnds (provider : RobustProvider Hash) (minCommonAncestor : ℕ) (s : BatchState Hash R)
    (res : Option (Option (Block Hash) × R)) (log' : Log Hash) : Prop :=
  ∃ t, (batchSystem provider minCommonAncestor).Reach s t ∧
    ((∃ iter last, iter.next = none ∧ t.phase = .ready iter last ∧ res = some (last, t.handler) ∧
        log' = t.log) ∨
      (res = none ∨ ∃ h, res = some (none, h)) ∧ ∃ extra, SilentLog extra ∧ log' = extra ++ t.log)

section

variable {provider : RobustProvider Hash} {minCommonAncestor : ℕ} {s t : BatchState Hash R}
  {res : Option (Option (Block Hash) × R)} {log' : Log Hash}

/-- A run that is left at a state, after silent events. -/
lemma BatchEnds.left (s : BatchState Hash R) (extra : Log Hash) (hextra : SilentLog extra)
    (hres : res = none ∨ ∃ h, res = some (none, h)) :
    BatchEnds provider minCommonAncestor s res (extra ++ s.log) :=
  ⟨s, .refl, Or.inr ⟨hres, extra, hextra, rfl⟩⟩

/-- A step before a run. -/
lemma BatchEnds.head (hst : BatchStep provider minCommonAncestor s t)
    (h : BatchEnds provider minCommonAncestor t res log') :
    BatchEnds provider minCommonAncestor s res log' := by
  obtain ⟨u, hu, hend⟩ := h
  exact ⟨u, .head hst hu, hend⟩

end

/-- **Runs of the batch loop are runs of the steps**, whatever the fuel.

**Proof sketch.** Induction on the fuel. A round sends a batch and checks its last block, which
is two steps; every other outcome leaves the loop after silent events. -/
theorem streamBatches_reach (provider : RobustProvider Hash) (minCommonAncestor : ℕ)
    (sender : Sender) (fuel : ℕ) (iter : RangeIterator .forward) (last : Option (Block Hash))
    (h : R) (log : Log Hash) :
    BatchEnds provider minCommonAncestor ⟨.ready iter last, h, log⟩
      ((streamBatches sender provider minCommonAncestor fuel iter last h).run log).1
      ((streamBatches sender provider minCommonAncestor fuel iter last h).run log).2 := by
  induction fuel generalizing iter last h log with
  | zero => exact BatchEnds.left _ [] silentLog_nil (Or.inl rfl)
  | succ fuel ih =>
    simp only [streamBatches]
    cases hnext : iter.next with
    | none => exact ⟨_, .refl, Or.inl ⟨iter, last, hnext, rfl, rfl, rfl⟩⟩
    | some next =>
      obtain ⟨batch, iter'⟩ := next
      simp only [getBlockByNumber]
      rw [Proc.run_bind_some (run_call _ _ _ _)]
      cases hfetch : provider.answer (clock log)
          (provider.findTag (clock log) (.number batch.stop)) with
      | error e =>
        obtain ⟨channel, extra, hrun, hextra⟩ := tryStream_error sender (.ofProvider e)
          (.request (.blockByNumber (.number batch.stop)) :: log)
        dsimp only
        rw [Proc.run_bind_some hrun]
        rw [List.append_cons]
        exact BatchEnds.left ⟨.ready iter last, h, log⟩ _ (by simp [hextra])
          (Or.inr ⟨h, rfl⟩)
      | ok b =>
        obtain ⟨hnum, hsees⟩ := DefaultReorgHandler.answer_number_eq_ok hfetch
        dsimp only
        by_cases hopen : sender.isOpen (.request (.blockByNumber (.number batch.stop)) :: log)
        · refine BatchEnds.head (.emit hnext hnum hsees) ?_
          rw [Proc.run_bind_some (by rw [run_tryStream, if_pos hopen])]
          simp only [ChannelState.isClosed, Bool.false_eq_true, if_false]
          obtain ⟨h', reqs, hreqs, ⟨e, hcheck, hrun⟩ | ⟨a, hcheck, hrun⟩⟩ := checkBlock_cases h b
            (.sent (dataItem batch) :: .request (.blockByNumber (.number batch.stop)) :: log)
          · rw [Proc.run_bind_some hrun]
            obtain ⟨channel, extra, hrun', hextra⟩ := tryStream_error sender e
              (reqs ++ .sent (dataItem batch) ::
                .request (.blockByNumber (.number batch.stop)) :: log)
            dsimp only
            rw [Proc.run_bind_some hrun', ← List.append_assoc]
            exact BatchEnds.left _ _ (by simp [hextra, silentLog_of_isRequest hreqs])
              (Or.inr ⟨h', rfl⟩)
          · rw [Proc.run_bind_some hrun]
            cases a with
            | none =>
              exact BatchEnds.head (.clean hcheck hreqs) (ih iter' (some b) h' _)
            | some a =>
              dsimp only
              by_cases hopen' : sender.isOpen (.checked b (some a) :: (reqs ++
                  .sent (dataItem batch) ::
                    .request (.blockByNumber (.number batch.stop)) :: log))
              · refine BatchEnds.head (.reorg hcheck hreqs) ?_
                rw [Proc.run_bind_some (by rw [run_tryStream, if_pos hopen'])]
                simp only [Bool.false_eq_true, if_false]
                exact ih _ (some b) h' _
              · rw [Proc.run_bind_some (by rw [run_tryStream, if_neg hopen'])]
                simp only [if_true, Proc.run_pure]
                rw [← List.cons_append]
                exact BatchEnds.left _ _ (by simp [silentLog_of_isRequest hreqs])
                  (Or.inr ⟨h', rfl⟩)
        · rw [Proc.run_bind_some (by rw [run_tryStream, if_neg hopen])]
          simp only [ChannelState.isClosed, if_true, Proc.run_pure]
          exact BatchEnds.left ⟨.ready iter last, h, log⟩
            [.request (.blockByNumber (.number batch.stop))] (by simp)
            (Or.inr ⟨h, rfl⟩)

end Steps

end EventScanner
