import EventScanner.BlockRangeScanner.HistoricalRangeHandler
import EventScanner.LiveStream.SteadyRound

set_option relaxedAutoImplicit false
set_option autoImplicit false

/-!
# Passes of the catch-up phase

A pass is one run of the historical handler. It sends ranges up to its end block only, and it
reports a reorg only if its end block is replaced while it runs.

## Main definitions

* `EventScanner.HistoricalRangeHandler.Watching` — what a pass knows of its end block.

## Main results

* `EventScanner.HistoricalRangeHandler.triple_runSync_of_parts` — the rule for a pass.
* `EventScanner.HistoricalRangeHandler.triple_runSync_of_sent` — what the events of a pass keep, the
  pass keeps.
* `EventScanner.HistoricalRangeHandler.triple_runSync_of_watching` — a pass on one chain reports no
  reorg.
-/

namespace EventScanner

open HashChain EventLog

variable {Hash : Type}

namespace HistoricalRangeHandler

/-- The ranges of an iterator end where it ends, at the latest. -/
lemma stop_le_of_mem_ranges {s e : ℕ} {m : MaxBlockRange} {r : RangeInclusive}
    (hr : r ∈ (RangeIterator.forward s e m).ranges) : r.stop ≤ e :=
  ((RangeIterator.ranges_forward s e m).bounds hr).2.2.1

section Rule

variable [DecidableEq Hash] (self : HistoricalRangeHandler Hash)

/-- **The rule for a pass.** What holds of the log, and of the end block once it is known, holds
behind the pass if each of its parts keeps it.

**Proof sketch.** The pass follows its parts; the loop is by induction on its fuel. -/
theorem triple_runSync_of_parts {I : Option (Block Hash) → Log Hash → Prop}
    (hrequest : ∀ r log, I none log → I none (.request r :: log))
    (hrange : ∀ known r log, r.stop ≤ self.stop → I known log →
      I known (.sent (dataItem r) :: log))
    (herror : ∀ e log, I none log → I none (.sent (.error e) :: log))
    (hread : Proc.Triple (I none) (getBlockByNumber self.provider (.number self.stop))
      (fun answer log => I none log ∧ ∀ b, answer = .ok b → I (some b) log) (I none))
    (hreread : ∀ endBlock, Proc.Triple (I (some endBlock)) (self.getReorgedEndBlock endBlock)
      (fun new log => I none log ∧ ∀ b, new = some b →
        I (some b) log ∧ ∀ a, I (some b) (.sent (reorgItem a) :: log)) (I none))
    (hforget : ∀ b log, I (some b) log → I none log) (fuel : ℕ) :
    Proc.Triple (I none) (self.runSync fuel) (fun _ => I none) (I none) := by
  refine Proc.Triple.bind (Q := fun _ => I none) ?_ fun res => ?_
  · refine Proc.Triple.bind (Q := fun _ => I none) (triple_call fun _ => hrequest _)
      fun finalized => ?_
    refine Proc.Triple.bind (Q := fun _ => I none) (triple_streamRanges_of_sent fun r hr log =>
      hrange none r log ((stop_le_of_mem_ranges hr).trans (Nat.min_le_right _ _))) fun channel => ?_
    cases channel <;> exact Proc.Triple.pure fun _ h => h
  rcases res with _ | ⟨nonFinalizedStart, finalized⟩
  · exact Proc.Triple.pure fun _ h => h
  dsimp only
  split_ifs
  · exact Proc.Triple.pure fun _ h => h
  refine Proc.Triple.bind hread fun answer => ?_
  cases answer with
  | error e =>
    refine Proc.Triple.bind (Q := fun _ => I none)
      (triple_tryStream (fun log h => herror _ log h.1) fun _ h => h.1) fun _ => ?_
    exact Proc.Triple.pure fun _ h => h
  | ok endBlock =>
    refine Proc.Triple.conseq (P := I (some endBlock)) ?_ (fun _ h => h.2 endBlock rfl)
      (fun _ _ h => h) fun _ h => h
    generalize max (nonFinalizedStart - 1) finalized = minCommonAncestor
    induction fuel generalizing endBlock with
    | zero => exact Proc.Triple.halt (hforget endBlock)
    | succ fuel ih =>
      refine Proc.Triple.bind (Q := fun _ => I (some endBlock)) ?_ fun channel => ?_
      · exact triple_streamRanges_of_sent fun r hr log =>
          hrange (some endBlock) r log (stop_le_of_mem_ranges hr)
      cases channel with
      | closed => exact Proc.Triple.pure (hforget endBlock)
      | opened =>
        refine Proc.Triple.bind (hreread endBlock) fun new => ?_
        cases new with
        | none => exact Proc.Triple.pure fun _ h => h.1
        | some newEndBlock =>
          refine Proc.Triple.bind (Q := fun _ => I (some newEndBlock))
            (triple_tryStream (fun _ h => (h.2 newEndBlock rfl).2 _)
              fun _ h => (h.2 newEndBlock rfl).1) fun channel => ?_
          cases channel with
          | closed => exact Proc.Triple.pure (hforget newEndBlock)
          | opened => exact ih newEndBlock

/-- **What the events of a pass keep, the pass keeps**: calls, ranges that do not go beyond its end
block, reorgs and errors. -/
theorem triple_runSync_of_sent {P : Log Hash → Prop}
    (hrequest : ∀ r log, P log → P (.request r :: log))
    (hrange : ∀ r log, r.stop ≤ self.stop → P log → P (.sent (dataItem r) :: log))
    (hreorg : ∀ a log, P log → P (.sent (reorgItem a) :: log))
    (herror : ∀ e log, P log → P (.sent (.error e) :: log)) (fuel : ℕ) :
    Proc.Triple P (self.runSync fuel) (fun _ => P) P := by
  refine self.triple_runSync_of_parts (I := fun _ => P) hrequest (fun _ => hrange) herror
    (triple_call fun _ log h => ⟨hrequest _ log h, fun _ _ => hrequest _ log h⟩)
    (fun endBlock => ?_) (fun _ _ h => h) fuel
  refine Proc.Triple.conseq (Q := fun _ => P) ?_ (fun _ h => h)
    (fun _ log h => ⟨h, fun _ _ => ⟨h, fun a => hreorg a log h⟩⟩) fun _ h => h
  refine Proc.Triple.bind (Q := fun _ => P) (triple_call fun _ => hrequest _) fun answer => ?_
  cases answer with
  | error e =>
    exact Proc.Triple.bind (Q := fun _ => P) (triple_tryStream (herror _) fun _ h => h) fun _ =>
      Proc.Triple.pure fun _ h => h
  | ok newEndBlock =>
    dsimp only
    split_ifs <;> exact Proc.Triple.pure fun _ h => h

end Rule

end HistoricalRangeHandler

/-! ### Passes on one chain -/

namespace HistoricalRangeHandler

variable (handler : HistoricalRangeHandler Hash) (chain : Chain Hash) (log₀ : Log Hash)

/-- A pass that has not reported a reorg if the chain was `chain` all the time, and whose end block,
once it is known, is then on the chain. -/
structure Watching (known : Option (Block Hash)) (log : Log Hash) : Prop where
  /-- No reorg was reported. -/
  quiet : QuietSince handler.provider chain log₀ log
  /-- The end block of the pass. -/
  number_eq : ∀ b ∈ known, b.number = handler.stop
  /-- It is on the chain. -/
  canonical : ∀ b ∈ known, handler.provider.ShowsOnly chain log₀ log → chain.Canonical b

variable {handler chain log₀} {known : Option (Block Hash)} {log : Log Hash} {E : Log Hash → Prop}

/-- An event that is no reorg, or that comes when the chain has not been the same. -/
lemma Watching.cons {e : Event Hash} (h : handler.Watching chain log₀ known log)
    (he : handler.provider.ShowsOnly chain log₀ log → ∀ a, e ≠ .sent (reorgItem a)) :
    handler.Watching chain log₀ known (e :: log) where
  quiet := h.quiet.cons he
  number_eq := h.number_eq
  canonical b hb hview :=
    h.canonical b hb (hview.mono (List.suffix_refl _) (List.suffix_cons e log))

/-- The end block may be forgotten. -/
lemma Watching.forget (h : handler.Watching chain log₀ known log) :
    handler.Watching chain log₀ none log :=
  ⟨h.quiet, by simp, by simp⟩

/-- The end block is read. -/
lemma triple_read_of_watching :
    Proc.Triple (handler.Watching chain log₀ known)
      (getBlockByNumber handler.provider (.number handler.stop))
      (fun answer log => handler.Watching chain log₀ known log ∧
        ∀ b, answer = .ok b → handler.Watching chain log₀ (some b) log) E := by
  intro log hlog
  have hcall := hlog.cons (e := .request (.blockByNumber (.number handler.stop))) (by simp)
  refine ⟨hcall, fun b hb => ?_⟩
  obtain ⟨hnum, -, hcan⟩ := DefaultReorgHandler.answer_number_eq_ok hb
  refine ⟨hcall.quiet, ?_, ?_⟩
  · rintro b ⟨⟩
    exact hnum
  · rintro b ⟨⟩ hview
    exact hlog.quiet.canonical hcan hview

variable [DecidableEq Hash]

/-- The end block is read again: another block means that the chain has changed. -/
lemma triple_reread_of_watching {endBlock : Block Hash} :
    Proc.Triple (handler.Watching chain log₀ (some endBlock)) (handler.getReorgedEndBlock endBlock)
      (fun new log => handler.Watching chain log₀ none log ∧ ∀ b, new = some b →
        handler.Watching chain log₀ (some b) log ∧
          ∀ a, handler.Watching chain log₀ (some b) (.sent (reorgItem a) :: log)) E := by
  intro log hlog
  unfold getReorgedEndBlock
  rw [hlog.number_eq endBlock rfl]
  revert log
  refine Proc.Triple.bind triple_read_of_watching fun answer => ?_
  cases answer with
  | error e =>
    refine Proc.Triple.bind (Q := fun _ => handler.Watching chain log₀ (some endBlock))
      (triple_tryStream (fun _ h => h.1.cons (by simp)) fun _ h => h.1) fun _ => ?_
    exact Proc.Triple.pure fun log h => ⟨h.forget, by simp⟩
  | ok newEndBlock =>
    dsimp only
    split_ifs with hash
    · exact Proc.Triple.pure fun log h => ⟨h.1.forget, by simp⟩
    · refine Proc.Triple.pure fun log h => ⟨h.1.forget, ?_⟩
      rintro b ⟨⟩
      obtain ⟨hold, hnew⟩ := h
      have hnew := hnew newEndBlock rfl
      refine ⟨hnew, fun a => hnew.cons fun hview => absurd ?_ hash⟩
      have heq := (hnew.canonical newEndBlock rfl hview).eq_of_number_eq
        (hold.canonical endBlock rfl hview)
        ((hnew.number_eq newEndBlock rfl).trans (hold.number_eq endBlock rfl).symm)
      rw [heq]

variable (handler chain) in
/-- **A pass reports no reorg** as long as the chain does not change.

**Proof sketch.** It reports one only when its end block is another one than when it began. -/
theorem triple_runSync_of_watching (fuel : ℕ) :
    Proc.Triple (handler.Watching chain log₀ none) (handler.runSync fuel)
      (fun _ => handler.Watching chain log₀ none) (handler.Watching chain log₀ none) :=
  handler.triple_runSync_of_parts (fun _ _ h => h.cons (by simp))
    (fun _ _ _ _ h => h.cons (by simp)) (fun _ _ h => h.cons (by simp)) triple_read_of_watching
    (fun _ => triple_reread_of_watching) (fun _ _ h => h.forget) fuel

end HistoricalRangeHandler

end EventScanner
