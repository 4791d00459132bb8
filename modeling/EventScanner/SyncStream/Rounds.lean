import EventScanner.BlockRangeScanner.SyncHandler
import EventScanner.SyncStream.Passes

set_option relaxedAutoImplicit false
set_option autoImplicit false

/-!
# The sync stream in rounds

The sync stream proceeds in rounds: passes of the catch-up phase, the first round of the live
phase, and the rounds of its main loop. This file says where the stream can stand between two
rounds, and what it has sent by then.

## Main definitions

* `EventScanner.SyncTop` — where the stream stands between two rounds.
* `EventScanner.SyncHandler.Move`, `EventScanner.SyncHandler.Round` — what it does between two
  rounds, and a round.
* `EventScanner.SyncHandler.Reached` — the tops that are reached by rounds with a property.
* `EventScanner.CatchupEvent` — the events of the catch-up phase.

## Main results

* `EventScanner.SyncHandler.catchupHistoricalBlocks_reached` — the catch-up phase of a run is made
  of rounds.
-/

namespace EventScanner

open HashChain EventLog

variable {Hash : Type}

/-- Where the sync stream stands between two rounds. -/
inductive SyncTop (Hash : Type)
  /-- Behind a pass of the catch-up phase. -/
  | passed (startBlock : ℕ)
  /-- Before the next pass, or the live phase. -/
  | catchup (startBlock confirmedTip : ℕ)
  /-- Subscribed to headers, before the first one. -/
  | subscribed (startBlock : ℕ)
  /-- At the top of the main loop of the live phase. -/
  | live (startBlock : ℕ) (state : LiveStreamingState Hash) (h : DefaultReorgHandler Hash)

/-- The block that the next round checks at its beginning. -/
def SyncTop.remembered : SyncTop Hash → Option (Block Hash)
  | .live _ state _ => state.previousBatchEnd
  | .passed _ | .catchup _ _ | .subscribed _ => none

/-! ### The events of the catch-up phase -/

/-- An event of the catch-up phase: no range goes up to `startBlock`, and the stream has not
switched to the live phase. -/
def CatchupEvent (startBlock : ℕ) : Event Hash → Prop
  | .sent (.ok (.data r)) => r.stop < startBlock
  | .sent (.ok (.notification .switchingToLive)) => False
  | _ => True

/-- All events are of the catch-up phase. -/
def CatchupLog (startBlock : ℕ) (log : Log Hash) : Prop := ∀ e ∈ log, CatchupEvent startBlock e

/-- The block `n` was sent in the catch-up phase, when the log was `before`, and it still stands. -/
def FromCatchup (log : Log Hash) (n : ℕ) (before : Log Hash) : Prop :=
  Standing log n before ∧ .sent (notificationItem .switchingToLive) ∉ before

section CatchupLog

variable {s s' n : ℕ} {log log' before : Log Hash} {e : Event Hash}

lemma catchupLog_nil : CatchupLog s ([] : Log Hash) := by simp [CatchupLog]

lemma catchupLog_cons : CatchupLog s (e :: log) ↔ CatchupEvent s e ∧ CatchupLog s log := by
  simp [CatchupLog]

lemma CatchupLog.mono (h : CatchupLog s log) (hs : s ≤ s') : CatchupLog s' log := by
  intro e he
  have hevent := h e he
  match e with
  | .sent (.ok (.data r)) => exact Nat.lt_of_lt_of_le hevent hs
  | .sent (.ok (.notification .switchingToLive)) => exact hevent
  | .sent (.ok (.notification (.reorgDetected _))) | .sent (.ok (.notification .noPastLogsFound))
  | .sent (.error _) | .request _ | .received _ | .checked _ _ => trivial

/-- What stands in the catch-up phase was sent in it, and is below its end. -/
lemma CatchupLog.standing (h : CatchupLog s log) (hs : Standing log n before) :
    n < s ∧ FromCatchup log n before := by
  obtain ⟨news, r, heq, hn, ha⟩ := hs
  have hstop : CatchupEvent s (.sent (dataItem r) : Event Hash) := h _ (by simp [heq])
  refine ⟨Nat.lt_of_le_of_lt hn.2 hstop, ⟨news, r, heq, hn, ha⟩, fun hswitch => ?_⟩
  exact h _ (heq ▸ List.mem_append_right _ (List.mem_cons_of_mem _ hswitch))

end CatchupLog

namespace SyncHandler

variable (self : SyncHandler Hash)

/-! ### Rounds -/

/-- The handler of a pass. -/
def pass (startBlock confirmedTip : ℕ) : HistoricalRangeHandler Hash :=
  ⟨self.provider, self.maxBlockRange, startBlock, confirmedTip, self.sender⟩

variable [DecidableEq Hash]

/-- A pass of the catch-up phase sends blocks up to its end only. -/
lemma triple_pass_catchupLog {startBlock confirmedTip : ℕ} (hlt : startBlock < confirmedTip)
    (fuel : ℕ) :
    Proc.Triple (CatchupLog startBlock) ((self.pass startBlock confirmedTip).runSync fuel)
      (fun _ => CatchupLog (confirmedTip + 1)) (CatchupLog (confirmedTip + 1)) :=
  ((self.pass startBlock confirmedTip).triple_runSync_of_sent
    (P := CatchupLog (confirmedTip + 1))
    (fun _ _ h => catchupLog_cons.mpr ⟨trivial, h⟩)
    (fun _ _ hstop h => catchupLog_cons.mpr ⟨Nat.lt_succ_of_le hstop, h⟩)
    (fun _ _ h => catchupLog_cons.mpr ⟨trivial, h⟩)
    (fun _ _ h => catchupLog_cons.mpr ⟨trivial, h⟩) fuel).conseq
    (fun _ h => h.mono (by omega)) (fun _ _ h => h) fun _ h => h

/-- What the stream does between two rounds. -/
inductive Move : SyncTop Hash → Log Hash → SyncTop Hash → Log Hash → Prop
  /-- Behind a pass it asks for the tip. -/
  | tip {startBlock latest : ℕ} {log log' : Log Hash} :
      (getBlockNumber self.provider).run log = (some (.ok latest), log') →
      Move (.passed startBlock) log (.catchup startBlock (latest - self.blockConfirmations)) log'
  /-- When the tip has not moved, it goes over to the live phase. -/
  | subscribe {startBlock confirmedTip : ℕ} {log log' log'' : Log Hash} :
      ¬startBlock < confirmedTip →
      (subscribeBlocks self.provider).run log = (some (.ok ()), log') →
      (tryStream self.sender (notificationItem .switchingToLive)).run log' =
        (some .opened, log'') →
      Move (.catchup startBlock confirmedTip) log (.subscribed startBlock) log''
  /-- The subscription lagged. -/
  | lagged {startBlock fuel skipped : ℕ} {state state' : LiveStreamingState Hash}
      {h h' : DefaultReorgHandler Hash} {log log' : Log Hash} :
      ((self.liveConfig startBlock).liveIteration fuel (.error (.lagged skipped)) state h).run log =
        (some (some (state', h')), log') →
      Move (.live startBlock state h) log (.live startBlock state' h') log'

/-- A round that is over. -/
inductive Round : SyncTop Hash → Log Hash → SyncTop Hash → Log Hash → Prop
  /-- A pass of the catch-up phase. -/
  | pass {startBlock confirmedTip fuel : ℕ} {log log' : Log Hash} :
      startBlock < confirmedTip →
      ((self.pass startBlock confirmedTip).runSync fuel).run log = (some .opened, log') →
      Round (.catchup startBlock confirmedTip) log (.passed (confirmedTip + 1)) log'
  /-- The first round of the live phase. -/
  | first {startBlock fuel n : ℕ} {state : LiveStreamingState Hash}
      {h : DefaultReorgHandler Hash} {log log' : Log Hash} :
      startBlock ≤ (self.liveConfig startBlock).confirmed n →
      ((self.liveConfig startBlock).initializeLiveStreamingState fuel n self.reorgHandler).run
        (.received (.ok n) :: log) = (some (some state, h), log') →
      Round (.subscribed startBlock) log (.live startBlock state h) log'
  /-- A round of the main loop. -/
  | iteration {startBlock fuel n : ℕ} {state state' : LiveStreamingState Hash}
      {h h' : DefaultReorgHandler Hash} {log log' : Log Hash} :
      ((self.liveConfig startBlock).liveIteration fuel (.ok n) state h).run log =
        (some (some (state', h')), log') →
      Round (.live startBlock state h) log (.live startBlock state' h') log'

/-- The tops that the stream reaches from its start on, catching up, by rounds with the property
`C`. The fuel may differ from round to round. -/
inductive Reached (C : SyncTop Hash → Log Hash → Log Hash → Prop) :
    SyncTop Hash → Log Hash → Prop
  /-- Before the first pass. -/
  | start {startBlock latest : ℕ} {log log' : Log Hash} :
      (getBlockNumberById self.provider self.startId).run [] = (some (.ok startBlock), log) →
      (getBlockNumber self.provider).run log = (some (.ok latest), log') →
      ¬startBlock > latest - self.blockConfirmations →
      Reached C (.catchup startBlock (latest - self.blockConfirmations)) log'
  /-- Between two rounds. -/
  | move {top top' : SyncTop Hash} {log log' : Log Hash} :
      Reached C top log → self.Move top log top' log' → Reached C top' log'
  /-- Behind a round. -/
  | round {top top' : SyncTop Hash} {log log' : Log Hash} :
      Reached C top log → self.Round top log top' log' → C top log log' → Reached C top' log'

variable {self} {C : SyncTop Hash → Log Hash → Log Hash → Prop} {top top' : SyncTop Hash}
  {log log' : Log Hash}

/-- **The catch-up phase is made of rounds.**

**Proof sketch.** Induction on the fuel: a pass, and the question for the tip behind it. -/
theorem catchupHistoricalBlocks_reached
    (hC : ∀ top log top' log', self.Round top log top' log' → C top log log') (fuel s tip : ℕ) :
    Proc.Triple (self.Reached C (.catchup s tip)) (self.catchupHistoricalBlocks fuel s tip)
      (fun res log => ∀ s', res = .ok (some s') →
        ∃ tip', ¬s' < tip' ∧ self.Reached C (.catchup s' tip') log) (fun _ => True) := by
  induction fuel generalizing s tip with
  | zero => exact Proc.Triple.halt fun _ _ => trivial
  | succ fuel ih =>
    unfold catchupHistoricalBlocks
    split_ifs with hlt
    · refine Proc.Triple.bind (Q := fun channel log =>
        channel = .opened → self.Reached C (.passed (tip + 1)) log) ?_ fun channel => ?_
      · refine Proc.Triple.of_run fun log channel log' htop hrun => ?_
        rintro rfl
        have hround : self.Round (.catchup s tip) log (.passed (tip + 1)) log' := .pass hlt hrun
        exact htop.round hround (hC _ _ _ _ hround)
      · cases channel with
        | closed => exact Proc.Triple.pure fun _ _ => by simp
        | opened =>
          refine Proc.Triple.bind (Q := fun answer log => ∀ latest, answer = .ok latest →
            self.Reached C (.catchup (tip + 1) (latest - self.blockConfirmations)) log) ?_
            fun answer => ?_
          · refine Proc.Triple.of_run fun log answer log' htop hrun => ?_
            rintro latest rfl
            exact (htop rfl).move (.tip hrun)
          · cases answer with
            | error e => exact Proc.Triple.pure fun _ _ => by simp
            | ok latest => exact (ih _ _).conseq (fun _ h => h _ rfl) (fun _ _ h => h) fun _ h => h
    · refine Proc.Triple.pure fun log htop s' heq => ?_
      obtain rfl : s = s' := by simpa using heq
      exact ⟨tip, hlt, htop⟩

end SyncHandler

end EventScanner
