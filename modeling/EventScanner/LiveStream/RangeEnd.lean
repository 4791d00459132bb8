import EventScanner.LiveStream.Buffer
import EventScanner.Lib.Triple

set_option relaxedAutoImplicit false
set_option autoImplicit false

/-!
# The block that a range ends with

`stream_range_with_reorg_handling` returns the last block of its range, which its caller remembers
as the previous batch end. That block is on the chain, as far as its check could tell, unless a
check of the range falls back to a finalized block at or above the end of the range: then the
iterator is exhausted, and the replaced block is returned.

## Main definitions

* `EventScanner.lastAnswer` — the answer to the last check of a block.
* `EventScanner.RangePost` — what a caller relies on.
* `EventScanner.FinalityBelow` — the condition on the finalized block.

## Main results

* `EventScanner.streamRange_post_iff` — exactly the calls that meet the condition return what their
  caller relies on.
* `EventScanner.not_rangePost_finalityJumps` — a call that returns a replaced block.
-/

namespace EventScanner

open HashChain EventLog

variable {Hash : Type} [DecidableEq Hash]

/-- The answer to the last check of the block. -/
def lastAnswer (b : Block Hash) : Log Hash → Option (Option (Block Hash))
  | [] => none
  | .checked c answer :: log => if c = b then some answer else lastAnswer b log
  | _ :: log => lastAnswer b log

/-- What the caller of a range up to the block `stop` relies on, with the log `start` before the
call: without a block, an error was streamed or the receiver is gone; a block has the number `stop`,
and its last check has found it on the chain. -/
def RangePost (sender : Sender) (stop : ℕ) (start : Log Hash) :
    Option (Block Hash) → Log Hash → Prop
  | none, log =>
    (∃ e past, start <:+ past ∧ .sent (.error e) :: past <:+ log) ∨ sender.isOpen log = false
  | some b, log => b.number = stop ∧ lastAnswer b log = some none

/-- When a check finds its block replaced and the receiver is there to learn of it, the finalized
block that the check sees is below `stop`. -/
def FinalityBelow (provider : RobustProvider Hash) (sender : Sender) (stop : ℕ) :
    Event Hash → Log Hash → Prop
  | .checked b (some a), past => sender.isOpen (.checked b (some a) :: past) = true →
    ∀ f ∈ (provider.current past).finalized, f < stop
  | _, _ => True

section Range

variable {provider : RobustProvider Hash} {sender : Sender} {m stop : ℕ} {start : Log Hash}
  {iter : RangeIterator .forward} {last : Option (Block Hash)} {h : DefaultReorgHandler Hash}

/-- At the top of the batch loop: the condition was met since the start of the call, and if the
iterator is exhausted, the last batch end is the block to return. -/
structure AtTop (provider : RobustProvider Hash) (sender : Sender) (stop : ℕ) (start : Log Hash)
    (iter : RangeIterator .forward) (last : Option (Block Hash)) (log : Log Hash) : Prop where
  /-- The call has begun. -/
  begun : start <:+ log
  /-- The condition was met. -/
  below : AlwaysSince start (FinalityBelow provider sender stop) log
  /-- An exhausted iterator leaves the block to return. -/
  done : iter.stop < iter.current → ∃ b, last = some b ∧ RangePost sender stop start (some b) log

/-- The call may return: with the postcondition exactly if the condition was met. -/
def MayReturn (provider : RobustProvider Hash) (sender : Sender) (stop : ℕ) (start : Log Hash)
    (res : Option (Block Hash)) (log : Log Hash) : Prop :=
  RangePost sender stop start res log ↔
    AlwaysSince start (FinalityBelow provider sender stop) log

omit [DecidableEq Hash] in
/-- What is sent while the receiver is there, and what is left when it is gone. -/
lemma triple_sendIfOpen {item : BlockScannerResult} {P : Log Hash → Prop}
    {Q : ChannelState → Log Hash → Prop} {E : Log Hash → Prop}
    (hopen : ∀ log, P log → sender.isOpen log = true → Q .opened (.sent item :: log))
    (hclosed : ∀ log, P log → sender.isOpen log = false → Q .closed log) :
    Proc.Triple P (tryStream sender item) Q E := by
  intro log hP
  rw [run_tryStream]
  split_ifs with h
  · exact hopen log hP h
  · exact hclosed log hP (Bool.eq_false_iff.mpr h)

/-- The call is left when the receiver is gone. -/
lemma mayReturn_closed {log : Log Hash} (hclosed : sender.isOpen log = false)
    (hbelow : AlwaysSince start (FinalityBelow provider sender stop) log) :
    MayReturn provider sender stop start none log := iff_of_true (Or.inr hclosed) hbelow

/-- The call is left with an error, which is streamed unless the receiver is gone. -/
lemma triple_leaveError {e : ScannerError} {E : Log Hash → Prop} :
    Proc.Triple
      (fun log => start <:+ log ∧ AlwaysSince start (FinalityBelow provider sender stop) log)
      (tryStream sender (.error e) >>= fun _ => pure (none, h))
      (fun res => MayReturn provider sender stop start res.1) E := by
  refine Proc.Triple.bind (triple_sendIfOpen
    (Q := fun _ => MayReturn provider sender stop start none) ?_ ?_)
    fun _ => Proc.Triple.pure fun _ hlog => hlog
  · rintro log ⟨hbegun, hbelow⟩ -
    refine iff_of_true (Or.inl ⟨e, log, hbegun, List.suffix_refl _⟩) ?_
    exact (alwaysSince_cons hbegun).mpr ⟨trivial, hbelow⟩
  · rintro log ⟨-, hbelow⟩ hclosed
    exact mayReturn_closed hclosed hbelow

/-- The answer to a block at or below `stop` is below `stop` exactly if the finalized block that the
check sees is: a buffered block is below the checked one. -/
lemma ancestor_lt_iff {b a : Block Hash} {h' : DefaultReorgHandler Hash} {reqs log : Log Hash}
    (hprov : h.provider = provider) (hs : Stacked h.buffer.inner b.number) (hb : b.number ≤ stop)
    (hcheck : (ReorgHandler.check h b).run log = (some (.ok (some a), h'), reqs ++ log)) :
    a.number < stop ↔ ∀ f ∈ (provider.current (reqs ++ log)).finalized, f < stop := by
  obtain ⟨-, -, hsearch⟩ := DefaultReorgHandler.check_eq_ok_some hcheck
  obtain ⟨-, f, ⟨-, -, hf⟩, hans⟩ := hsearch.answer
  rw [hprov] at hf
  have hiff : (∀ f ∈ (provider.current (reqs ++ log)).finalized, f < stop) ↔ f.number < stop := by
    unfold RobustProvider.current
    rw [hf]
    simp
  rw [hiff]
  rcases hans with ⟨older, hkept, hsuffix, hle, -⟩ | ⟨rfl, -⟩
  · have hlt := hs.lt a (hsuffix.subset (hkept ▸ List.mem_cons_self))
    exact iff_of_true (by omega) (by omega)
  · rfl

/-- A replaced block is returned when the condition is broken. -/
lemma mayReturn_replaced {b a : Block Hash} {log : Log Hash} (hbegun : start <:+ log)
    (hopen : sender.isOpen (.checked b (some a) :: log) = true)
    (hbroken : ¬∀ f ∈ (provider.current log).finalized, f < stop) :
    MayReturn provider sender stop start (some b)
      (.sent (reorgItem a.number) :: .checked b (some a) :: log) := by
  refine iff_of_false (fun hpost => ?_) fun hbelow => ?_
  · have hanswer := hpost.2
    simp [lastAnswer] at hanswer
  · have hbelow' := ((alwaysSince_cons (hbegun.trans (List.suffix_cons _ _))).mp hbelow).2
    exact hbroken (((alwaysSince_cons hbegun).mp hbelow').1 hopen)

/-- **A reorg in the batch loop.** The loop goes on below `stop`; otherwise its iterator is
exhausted, and the replaced block is returned. -/
lemma triple_rangeReorg {fuel : ℕ} {b a : Block Hash} (hdone : ¬a.number < stop → iter.next = none)
    (hmore : a.number < stop → iter.current ≤ iter.stop)
    (hrest : a.number < stop → Proc.Triple (AtTop provider sender stop start iter (some b))
      (streamBatches sender provider m fuel iter (some b) h)
      (fun res => MayReturn provider sender stop start res.1) fun _ => True) :
    Proc.Triple
      (fun log => ∃ past, log = .checked b (some a) :: past ∧ start <:+ past ∧
        AlwaysSince start (FinalityBelow provider sender stop) past ∧
        (a.number < stop ↔ ∀ f ∈ (provider.current past).finalized, f < stop))
      (tryStream sender (reorgItem a.number) >>= fun channel =>
        if channel.isClosed then pure (none, h)
        else streamBatches sender provider m fuel iter (some b) h)
      (fun res => MayReturn provider sender stop start res.1) fun _ => True := by
  refine Proc.Triple.bind (triple_sendIfOpen
    (Q := fun channel log => if channel.isClosed then MayReturn provider sender stop start none log
      else (a.number < stop → AtTop provider sender stop start iter (some b) log) ∧
        (¬a.number < stop → MayReturn provider sender stop start (some b) log)) ?_ ?_)
    fun channel => ?_
  · rintro _ ⟨past, rfl, hbegun, hbelow, hiff⟩ hopen
    refine ⟨fun hlt => ?_, fun hlt => mayReturn_replaced hbegun hopen fun h => hlt (hiff.mpr h)⟩
    have hbegun' : start <:+ .checked b (some a) :: past :=
      hbegun.trans (List.suffix_cons _ _)
    refine ⟨hbegun'.trans (List.suffix_cons _ _), ?_, fun hlt' => ?_⟩
    · refine (alwaysSince_cons hbegun').mpr ⟨trivial, ?_⟩
      exact (alwaysSince_cons hbegun).mpr ⟨fun _ => hiff.mp hlt, hbelow⟩
    · exact absurd (hmore hlt) (Nat.not_le_of_lt hlt')
  · rintro _ ⟨past, rfl, hbegun, hbelow, -⟩ hclosed
    refine mayReturn_closed hclosed ((alwaysSince_cons hbegun).mpr ⟨fun hopen => ?_, hbelow⟩)
    rw [hclosed] at hopen
    cases hopen
  · cases channel with
    | closed => exact Proc.Triple.pure fun _ hlog => hlog
    | opened =>
      by_cases hlt : a.number < stop
      · exact (hrest hlt).conseq (fun _ hlog => hlog.1 hlt) (fun _ _ h => h) fun _ h => h
      · cases fuel with
        | zero => exact Proc.Triple.halt fun _ _ => trivial
        | succ fuel =>
          simp only [streamBatches, hdone hlt]
          exact Proc.Triple.pure fun _ hlog => hlog.2 hlt

/-- **The batch loop returns what its caller relies on exactly if the condition is met.**

**Proof sketch.** Induction on the fuel. The ancestor of a reorg below `stop` leaves something to
stream, so the loop goes on. One at or above `stop` is the finalized block, so the condition is
broken, and it exhausts the iterator, so the replaced block is returned. -/
lemma triple_rangeEnd (hm : m ≤ stop) (fuel : ℕ) (hprov : h.provider = provider)
    (hwf : iter.Wf) (hstop : iter.stop = stop) (hs : Stacked h.buffer.inner iter.current) :
    Proc.Triple (AtTop provider sender stop start iter last)
      (streamBatches sender provider m fuel iter last h)
      (fun res => MayReturn provider sender stop start res.1) fun _ => True := by
  induction fuel generalizing iter last h with
  | zero => exact Proc.Triple.halt fun _ _ => trivial
  | succ fuel ih =>
    unfold streamBatches
    rcases hnext : iter.next with _ | ⟨batch, iter'⟩
    · refine Proc.Triple.pure fun log hlog => ?_
      obtain ⟨b, rfl, hpost⟩ := hlog.done (hwf.next_eq_none.mp hnext)
      exact iff_of_true hpost hlog.below
    · obtain ⟨hle, hbatch, hcur, hstop', -, hwf'⟩ := hwf.next_eq_some hnext
      have hbounds : iter.current ≤ batch.stop ∧ batch.stop ≤ stop := by
        rw [hbatch]
        dsimp only
        omega
      refine Proc.Triple.bind (Q := fun answer log => start <:+ log ∧
        AlwaysSince start (FinalityBelow provider sender stop) log ∧
          ∀ b, answer = .ok b → b.number = batch.stop) ?_ fun answer => ?_
      · intro log hlog
        refine ⟨hlog.begun.trans (List.suffix_cons _ _),
          (alwaysSince_cons hlog.begun).mpr ⟨trivial, hlog.below⟩, fun b hb => ?_⟩
        exact (DefaultReorgHandler.answer_number_eq_ok hb).1
      rcases answer with e | b
      · exact triple_leaveError.conseq (fun _ hlog => ⟨hlog.1, hlog.2.1⟩) (fun _ _ h => h)
          fun _ h => h
      by_cases hnum : b.number = batch.stop
      swap
      · exact fun log hlog => absurd (hlog.2.2 b rfl) hnum
      have hsb : Stacked h.buffer.inner b.number := hs.mono (by omega)
      refine Proc.Triple.bind (triple_sendIfOpen (Q := fun channel log => start <:+ log ∧
        AlwaysSince start (FinalityBelow provider sender stop) log ∧
          (channel = .closed → sender.isOpen log = false)) ?_ ?_) fun channel => ?_
      · rintro log ⟨hbegun, hbelow, -⟩ -
        exact ⟨hbegun.trans (List.suffix_cons _ _),
          (alwaysSince_cons hbegun).mpr ⟨trivial, hbelow⟩, by simp⟩
      · rintro log ⟨hbegun, hbelow, -⟩ hclosed
        exact ⟨hbegun, hbelow, fun _ => hclosed⟩
      cases channel with
      | closed =>
        exact Proc.Triple.pure fun log hlog => mayReturn_closed (hlog.2.2 rfl) hlog.2.1
      | opened =>
        rintro log ⟨hbegun, hbelow, -⟩
        simp only [ChannelState.isClosed, Bool.false_eq_true, if_false]
        obtain ⟨h', reqs, hreqs, ⟨e, hcheck, hrun⟩ | ⟨answer, hcheck, hrun⟩⟩ :=
          checkBlock_cases h b log
        all_goals
          obtain ⟨hbegun', hbelow'⟩ := alwaysSince_requests (fun _ _ => trivial) hreqs hbegun hbelow
          rw [Proc.run_bind_some hrun]
        · exact triple_leaveError _ ⟨hbegun', hbelow'⟩
        have hprov' := (DefaultReorgHandler.check_provider hcheck).trans hprov
        cases answer with
        | none =>
          obtain ⟨rfl, -⟩ := DefaultReorgHandler.check_eq_ok_none hcheck
          refine ih hprov' hwf' (hstop'.trans hstop) ?_ _
            ⟨hbegun'.trans (List.suffix_cons _ _),
              (alwaysSince_cons hbegun').mpr ⟨trivial, hbelow'⟩,
              fun hdone => ⟨b, rfl, by omega, by simp [lastAnswer]⟩⟩
          rw [hcur, ← hnum]
          exact hsb.remember
        | some a =>
          have hiff := ancestor_lt_iff hprov hsb (hnum ▸ hbounds.2) hcheck
          refine triple_rangeReorg (fun hlt => ?_) (fun hlt => ?_) (fun hlt => ?_) _
            ⟨_, rfl, hbegun', hbelow', hiff⟩
          · refine (hwf'.resetTo _).next_eq_none.mpr ?_
            rw [RangeIterator.resetTo_stop, RangeIterator.resetTo_current]
            omega
          · rw [RangeIterator.resetTo_stop, RangeIterator.resetTo_current]
            omega
          · obtain ⟨-, htops, -⟩ := LiveConfig.stacked_search hsb hcheck
            exact ih hprov' (hwf'.resetTo _) (hstop'.trans hstop)
              (htops.stacked.mono (Nat.le_max_left _ _))

end Range

/-- **What `stream_range_with_reorg_handling` returns.** Whenever a call returns, its caller gets
what it relies on exactly if no check of the call that reports a reorg sees a finalized block at or
above the end of the range. The buffered blocks are below the range, as in every live stream. -/
theorem streamRange_post_iff {provider : RobustProvider Hash} {sender : Sender} {fuel m k stop : ℕ}
    {maxBlockRange : MaxBlockRange} {h h' : DefaultReorgHandler Hash} {res : Option (Block Hash)}
    {log log' : Log Hash} (hm : m ≤ k) (hk : k ≤ stop) (hprov : h.provider = provider)
    (hs : Stacked h.buffer.inner k)
    (hrun : (streamRangeWithReorgHandling fuel m k stop maxBlockRange sender provider h).run log =
      (some (res, h'), log')) :
    RangePost sender stop log res log' ↔
      AlwaysSince log (FinalityBelow provider sender stop) log' := by
  have htop : AtTop provider sender stop log (.forward k stop maxBlockRange) none log :=
    ⟨List.suffix_refl log, alwaysSince_refl log, fun hlt => absurd hlt (Nat.not_lt_of_le hk)⟩
  have hend := triple_rangeEnd (hm.trans hk) fuel hprov
    (RangeIterator.wf_forward k stop maxBlockRange) rfl hs log htop
  unfold streamRangeWithReorgHandling at hrun
  rw [hrun] at hend
  exact hend

/-! ### A finalized block at the end of the range -/

/-- Block `1` is replaced after the first call, and the new chain is final up to a height. -/
def finalityJumps (finalized : ℕ) : RobustProvider ℕ :=
  .healthy (switchAt 1 (.ofHashes 0 [1] 0) (.ofHashes 0 [11, 12] finalized))

/-- The handler of a stream over that chain. -/
abbrev finalityJumpsHandler (finalized : ℕ) (blocks : List (Block ℕ)) : DefaultReorgHandler ℕ :=
  ⟨finalityJumps finalized, ⟨blocks, .infinite⟩⟩

/-- The log up to the report of the reorg, with the finalized block as the common ancestor. -/
def finalityJumpsLog (finalized : Block ℕ) : Log ℕ :=
  [.sent (reorgItem finalized.number), .checked ⟨1, 1⟩ (some finalized),
    .request (.blockByNumber .finalized), .request (.blockByNumber (.number 1)),
    .sent (dataItem ⟨1, 1⟩), .request (.blockByNumber (.number 1))]

/-- Behind a reorg back to block `0` the range is streamed again. -/
def finalityStaysLog : Log ℕ :=
  [.checked ⟨1, 11⟩ none, .request (.blockByNumber (.number 1)), .sent (dataItem ⟨1, 1⟩),
    .request (.blockByNumber (.number 1))] ++ finalityJumpsLog ⟨0, 0⟩

/-- While block `0` is the finalized one, the call returns the new block `1`. -/
theorem streamRange_post_iff_finalityStays :
    RangePost ⟨none⟩ 1 [] (some ⟨1, 11⟩) finalityStaysLog ↔
      AlwaysSince [] (FinalityBelow (finalityJumps 0) ⟨none⟩ 1) finalityStaysLog := by
  have hrun : (streamRangeWithReorgHandling 3 0 1 1 defaultMaxBlockRange ⟨none⟩ (finalityJumps 0)
      (finalityJumpsHandler 0 [])).run [] =
        (some (some ⟨1, 11⟩, finalityJumpsHandler 0 [⟨1, 11⟩]), finalityStaysLog) := rfl
  exact streamRange_post_iff (by decide) (by decide) rfl (stacked_nil 1) hrun

/-- With the new block `1` final at once, the call returns the old one, for which its own check has
reported a reorg. -/
theorem not_rangePost_finalityJumps :
    FinalityKept (finalityJumps 1).view ∧
      (streamRangeWithReorgHandling 3 0 1 1 defaultMaxBlockRange ⟨none⟩ (finalityJumps 1)
        (finalityJumpsHandler 1 [])).run [] =
          (some (some ⟨1, 1⟩, finalityJumpsHandler 1 []), finalityJumpsLog ⟨1, 11⟩) ∧
      ¬RangePost ⟨none⟩ 1 [] (some ⟨1, 1⟩) (finalityJumpsLog ⟨1, 11⟩) := by
  refine ⟨finalityKept_switchAt (by decide), rfl, ?_⟩
  rintro ⟨-, hanswer⟩
  simp [lastAnswer, finalityJumpsLog] at hanswer

end EventScanner
