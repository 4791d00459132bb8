import EventScanner.BlockRangeHandler.Concurrency
import EventScanner.SyncFromLatest.Delivery

set_option relaxedAutoImplicit false
set_option autoImplicit false

/-!
# How much a sync does at a time

Each of the two handlers of a sync from the latest events keeps to the limit on concurrent fetches.
But `handle` of the first one may return while its collecting tasks still fetch, so both may have
queries open at the same time: up to twice as many as one handler.

## Main definitions

* `EventScanner.SyncState.openFetches` — the log queries that are open.

## Main results

* `EventScanner.SyncFromLatest.openFetches_le` — how many there are at most.
* `EventScanner.SyncFromLatest.openFetches_le_both` — twice as many as for one handler.
-/

namespace EventScanner

variable {n : ℕ} {D : Type}

/-- The log queries that the second phase has open. -/
def SyncStage.openFetches : SyncStage n D → ℕ
  | .collecting | .notifying _ _ => 0
  | .live network => network.openFetches

/-- The log queries that a sync has open. -/
def SyncState.openFetches (s : SyncState n D) : ℕ := s.latest.openFetches + s.stage.openFetches

namespace SyncFromLatest

variable {setup : SyncFromLatest n D} {s t : SyncState n D}

/-- The consumers of both phases keep to the limit. -/
structure Bounded (setup : SyncFromLatest n D) (s : SyncState n D) : Prop where
  /-- The first phase. -/
  latest : ∀ i, (s.latest.consumers i).Bounded setup.config
  /-- The second phase. -/
  live : ∀ network, s.stage = .live network → ∀ i, (network.consumers i).Bounded setup.config

/-- One step keeps both phases to the limit. -/
lemma Bounded.step (h : setup.Bounded s) (hst : setup.SyncStep s t) : setup.Bounded t := by
  cases hst with
  | latest a ha => exact ⟨(networkStep_of_act ha).bounded h.latest, h.live⟩
  | goOn =>
    refine ⟨h.latest, ?_⟩
    intro network hstage
    obtain rfl := SyncStage.live.inj hstage
    exact bounded_start setup.streamHandler _
  | fail | notify => exact ⟨h.latest, by simp⟩
  | live a ha =>
    refine ⟨h.latest, ?_⟩
    intro network hstage
    obtain rfl := SyncStage.live.inj hstage
    exact (networkStep_of_act ha).bounded (h.live _ rfl)
  | drop => exact ⟨h.latest, h.live⟩

/-- **The queries of a sync**, in every interleaving: at most twice the number of listeners times
the limit; and no more than for one handler before the second phase has begun, or when the
collecting tasks of the first one have ended.

**Proof sketch.** Each handler keeps to the limit, and a task that has ended waits for nothing. -/
theorem openFetches_le (h : setup.system.Reach setup.start s) :
    s.openFetches ≤ 2 * (n * setup.config.maxConcurrentFetches) ∧
      ((∀ network, s.stage ≠ .live network) ∨ (∀ i, (s.latest.consumers i).ended = true) →
        s.openFetches ≤ n * setup.config.maxConcurrentFetches) := by
  have hbounded : setup.Bounded s :=
    ActionSystem.invariant (fun _ _ hst hI => Bounded.step hI (syncStep_of_step hst)) h
      ⟨bounded_start setup.collectionHandler _, by simp [start]⟩
  have hlatest : s.latest.openFetches ≤ n * setup.config.maxConcurrentFetches :=
    Network.openFetches_le_sum hbounded.latest
  have hlive : s.stage.openFetches ≤ n * setup.config.maxConcurrentFetches := by
    cases hstage : s.stage with
    | collecting | notifying => exact Nat.zero_le _
    | live network => exact Network.openFetches_le_sum (hbounded.live network hstage)
  unfold SyncState.openFetches
  refine ⟨by omega, fun hone => ?_⟩
  rcases hone with hnotLive | hended
  · have hnone : s.stage.openFetches = 0 := by
      cases hstage : s.stage with
      | collecting | notifying => rfl
      | live network => exact absurd hstage (hnotLive network)
    omega
  · have hnone : s.latest.openFetches = 0 := by
      apply Finset.sum_eq_zero
      intro i _
      unfold Consumer.openFetches
      rw [hended i, if_pos rfl]
    omega

/-! ### Both phases at a time -/

/-- The forwarding task of the first phase passes on its message and ends while its logs are being
fetched. The second phase begins and fetches logs too. -/
def overlap (i : Fin n) : List (SyncAction n) :=
  List.map SyncAction.latest
      [.next, .task i .recv, .task i .send, .task i .pull, .next, .task i .recv, .join] ++
    [.proceed] ++ List.map SyncAction.live [.next, .task i .recv, .task i .send, .task i .pull]

/-- With one listener and a limit of one, two queries are open. -/
theorem openFetches_le_both :
    ∃ s, BlockRangeScanner.growingSync.system.Reach BlockRangeScanner.growingSync.start s ∧
      s.openFetches = 2 ∧
      s.openFetches ≤ 2 * (1 * BlockRangeScanner.growingSync.config.maxConcurrentFetches) := by
  have hrun : (BlockRangeScanner.growingSync.system.run (overlap 0)
      BlockRangeScanner.growingSync.start).map SyncState.openFetches = some 2 := rfl
  obtain ⟨s, hs, hopen⟩ := Option.map_eq_some_iff.mp hrun
  have hreach := ActionSystem.reach_of_run hs
  exact ⟨s, hreach, hopen, (openFetches_le hreach).1⟩

end SyncFromLatest

end EventScanner
