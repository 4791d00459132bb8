import EventScanner.BlockRangeScanner.SyncHandler

set_option relaxedAutoImplicit false
set_option autoImplicit false

/-!
# The phases of a sync stream

The sync stream makes passes of its catch-up phase until the tip stands still, and goes over to the
live phase; or it begins with the live phase. This file turns what one pass keeps and what the
live phase leads to into a property of the whole log.

## Main definitions

* `EventScanner.SyncHandler.PhasesKeep` — what the phases keep.

## Main results

* `EventScanner.SyncHandler.PhasesKeep.run` — the rule for the whole stream.
-/

namespace EventScanner

open HashChain EventLog

variable {Hash : Type} [DecidableEq Hash]

namespace SyncHandler

/-- What the phases of a sync stream keep: `H k` holds while the next pass begins at `k`, and `F`
holds wherever the stream is left. -/
structure PhasesKeep (handler : SyncHandler Hash) (H : ℕ → Log Hash → Prop)
    (F : Log Hash → Prop) : Prop where
  /-- Between two passes there are provider calls. -/
  request : ∀ k r log, H k log → H k (.request r :: log)
  /-- The stream may be left between two passes. -/
  left : ∀ k log, H k log → F log
  /-- It may be left with an error there. -/
  error : ∀ k e log, H k log → F (.sent (.error e) :: log)
  /-- A pass moves the start behind its end. -/
  pass : ∀ k tip fuel, k < tip → Proc.Triple (H k)
    (HistoricalRangeHandler.runSync
      ⟨handler.provider, handler.maxBlockRange, k, tip, handler.sender⟩ fuel)
    (fun channel log => F log ∧ (channel = .opened → H (tip + 1) log)) F
  /-- The live phase starts where the last pass has ended. -/
  live : ∀ k fuel subscription log, H k log →
    F (((handler.liveConfig k).streamLiveBlocks fuel subscription handler.reorgHandler false).run
      (.sent (notificationItem .switchingToLive) :: log)).2

namespace PhasesKeep

variable {handler : SyncHandler Hash} {H : ℕ → Log Hash → Prop} {F : Log Hash → Prop}

/-- The catch-up phase.

**Proof sketch.** Induction on the fuel: a pass, and the call for the tip behind it. -/
lemma catchup (h : handler.PhasesKeep H F) (fuel k tip : ℕ) :
    Proc.Triple (H k) (handler.catchupHistoricalBlocks fuel k tip)
      (fun res log => match res with
        | .ok none => F log
        | .ok (some k') => H k' log
        | .error _ => ∃ k', H k' log) F := by
  induction fuel generalizing k tip with
  | zero => exact Proc.Triple.halt (h.left k)
  | succ fuel ih =>
    unfold catchupHistoricalBlocks
    split_ifs with hlt
    · refine Proc.Triple.bind (h.pass k tip fuel hlt) fun channel => ?_
      cases channel with
      | closed => exact Proc.Triple.pure fun log hlog => hlog.1
      | opened =>
        refine Proc.Triple.bind (Q := fun _ => H (tip + 1))
          (triple_call fun _ log hlog => h.request _ _ log (hlog.2 rfl)) fun latest => ?_
        cases latest with
        | error e => exact Proc.Triple.pure fun log hlog => ⟨tip + 1, hlog⟩
        | ok latest => exact ih (tip + 1) (latest - handler.blockConfirmations)
    · exact Proc.Triple.pure fun log hlog => hlog

/-- An error may be sent at the end. -/
lemma leave {e : ScannerError} (h : handler.PhasesKeep H F) (k : ℕ) :
    Proc.Triple (H k) (tryStream handler.sender (.error e) >>= fun _ => pure ()) (fun _ => F) F :=
  Proc.Triple.bind (triple_tryStream (h.error k e) (h.left k)) fun _ =>
    Proc.Triple.pure fun _ hlog => hlog

/-- The live phase behind the catch-up phase. -/
lemma transition (h : handler.PhasesKeep H F) (fuel k : ℕ)
    (subscription : List SubscriptionItem) :
    Proc.Triple (H k) (handler.transitionToLive fuel subscription k handler.reorgHandler)
      (fun _ => F) F := by
  refine Proc.Triple.bind (Q := fun _ => H k) (triple_call fun _ => h.request k _) fun answer => ?_
  cases answer with
  | error e => exact h.leave k
  | ok u =>
    refine Proc.Triple.bind (Q := fun channel log => if channel.isClosed then F log else
      ∃ past, log = .sent (notificationItem .switchingToLive) :: past ∧ H k past) ?_
      fun channel => ?_
    · exact triple_tryStream (fun log hlog => ⟨log, rfl, hlog⟩) (h.left k)
    · cases channel with
      | closed => exact Proc.Triple.pure fun _ hlog => hlog
      | opened =>
        refine Proc.Triple.of_log fun log hlog => ?_
        obtain ⟨past, rfl, hpast⟩ := hlog
        exact h.live k fuel subscription past hpast

/-- The catch-up phase and the live phase behind it. -/
lemma catchupThenLive (h : handler.PhasesKeep H F) (fuel k tip : ℕ)
    (subscription : List SubscriptionItem) :
    Proc.Triple (H k) (handler.spawnCatchupThenLive fuel subscription k tip) (fun _ => F) F := by
  refine Proc.Triple.bind (h.catchup fuel k tip) fun res => ?_
  rcases res with e | _ | k'
  · intro log hlog
    obtain ⟨k', hlog⟩ := hlog
    exact h.leave k' log hlog
  · exact Proc.Triple.pure fun _ hlog => hlog
  · exact h.transition fuel k' subscription

/-- **The rule for a sync stream**: it keeps what its phases keep, from its resolved start on. The
live phase may also begin at once, behind the subscription. -/
theorem run (h : handler.PhasesKeep H F) (fuel : ℕ) (subscription : List SubscriptionItem)
    (hfail : F [.request .blockNumber, .request (.blockNumberById handler.startId)])
    (hfirst : ∀ start,
      ((getBlockNumberById handler.provider handler.startId).run []).1 = some (.ok start) →
        H start [.request (.blockNumberById handler.startId)])
    (honly : ∀ start,
      ((getBlockNumberById handler.provider handler.startId).run []).1 = some (.ok start) →
        F (((handler.liveConfig start).streamLiveBlocks fuel subscription
          handler.reorgHandler true).run [.request .subscribeBlocks, .request .blockNumber,
            .request (.blockNumberById handler.startId)]).2) :
    F ((handler.run fuel subscription).run []).2 := by
  obtain ⟨answer, hresolved⟩ : ∃ answer,
      (getBlockNumberById handler.provider handler.startId).run [] =
        (some answer, [.request (.blockNumberById handler.startId)]) := ⟨_, run_call ..⟩
  rw [hresolved] at hfirst honly
  unfold SyncHandler.run
  rw [Proc.run_bind_some hresolved]
  refine Proc.Triple.log_of_run (P := fun log =>
    log = [.request (.blockNumberById handler.startId)]) ?_ rfl
  refine Proc.Triple.bind (Q := fun _ log =>
    log = [.request .blockNumber, .request (.blockNumberById handler.startId)]) ?_ fun latest => ?_
  · exact triple_call fun _ log hlog => congrArg _ hlog
  rcases answer with e | start
  · exact Proc.Triple.pure fun log hlog => hlog ▸ hfail
  · have hnext := h.request start .blockNumber _ (hfirst start rfl)
    cases latest with
    | error e => exact Proc.Triple.pure fun log hlog => hlog ▸ h.left start _ hnext
    | ok latest =>
      dsimp only
      split_ifs
      · refine Proc.Triple.bind (Q := fun _ log => log = [.request .subscribeBlocks,
          .request .blockNumber, .request (.blockNumberById handler.startId)])
          (triple_call fun _ log hlog => congrArg _ hlog) fun answer => ?_
        cases answer with
        | error e =>
          exact Proc.Triple.pure fun log hlog => hlog ▸ h.left start _ (h.request start _ _ hnext)
        | ok u =>
          refine Proc.Triple.bind (Q := fun _ => F) ?_ fun _ => Proc.Triple.pure fun _ hlog => hlog
          exact Proc.Triple.of_log fun log hlog => hlog ▸ honly start rfl
      · refine Proc.Triple.bind (Q := fun _ => F) ?_ fun _ => Proc.Triple.pure fun _ hlog => hlog
        exact (h.catchupThenLive fuel start _ subscription).conseq (fun log hlog => hlog ▸ hnext)
          (fun _ _ h => h) fun _ h => h

end PhasesKeep

end SyncHandler

end EventScanner
