import EventScanner.BlockRangeHandler.Service

set_option relaxedAutoImplicit false
set_option autoImplicit false

/-!
# The sync from the latest events

`EventScanner<SyncFromLatestEvents>::start` in `from_latest.rs` runs two handlers one after the
other: the first one collects the latest events, the second one streams what follows. Both send
to the same listeners, and the second one starts when `handle` of the first one has returned.

## Main definitions

* `EventScanner.SyncFromLatest`, `EventScanner.SyncState` — the two phases, and all tasks.
* `EventScanner.SyncFromLatest.system` — their steps.
-/

namespace EventScanner

variable {n : ℕ} {τ D : Type}

/-- The phase that an item comes from. -/
inductive Phase
  /-- The latest events. -/
  | latest
  /-- What follows them. -/
  | live
  deriving DecidableEq

/-- What a listener has received, newest first, and whether it has dropped its receiver. -/
structure Mailbox (D : Type) where
  /-- The items received. -/
  received : List (Phase × EventScannerResult D)
  /-- The receiver is gone. -/
  dropped : Bool

/-- A sync from the latest events for `n` listeners. -/
structure SyncFromLatest (n : ℕ) (D : Type) where
  /-- The settings of both handlers. -/
  config : HandlerConfig
  /-- How many events the first phase collects. -/
  count : ℕ
  /-- The answers to the log queries of the first phase. -/
  latestLogs : Fin n → GetLogs D
  /-- The answers to the log queries of the second phase. -/
  liveLogs : Fin n → GetLogs D
  /-- The stream of the first phase. -/
  rewindStream : List BlockScannerResult
  /-- The stream of the second phase, or the error of its setup. -/
  syncStream : Except ScannerError (List BlockScannerResult)

/-- Where the task that `start` spawns stands. -/
inductive SyncStage (n : ℕ) (D : Type)
  /-- In `handle` of the first handler. -/
  | collecting
  /-- The second stream could not be set up; the listeners still to be told. -/
  | notifying (e : ScannerError) (listeners : List (Fin n))
  /-- In `handle` of the second handler. -/
  | live (network : Network n (StreamTask D) D)

/-- All tasks of a sync. The consumers of the first handler may go on when it has returned. -/
structure SyncState (n : ℕ) (D : Type) where
  /-- The first handler. -/
  latest : Network n (CollectingTask D) D
  /-- Where the task that `start` spawns stands. -/
  stage : SyncStage n D
  /-- The listeners. -/
  mailboxes : Fin n → Mailbox D

/-- A step of a sync. -/
inductive SyncAction (n : ℕ)
  /-- A step of the first handler or its consumers. -/
  | latest (a : NetworkAction n)
  /-- `start` goes on behind the first handler. -/
  | proceed
  /-- A listener is told that the second stream could not be set up. -/
  | notify
  /-- A step of the second handler or its consumers. -/
  | live (a : NetworkAction n)
  /-- A listener drops its receiver. -/
  | drop (i : Fin n)

/-- The listener is still there. -/
def SyncState.listening (s : SyncState n D) (i : Fin n) : Bool := !(s.mailboxes i).dropped

/-- The mailboxes behind a step of a handler: with the items that the step has sent. -/
def deposit (phase : Phase) (inner : ProcessingTask τ D) (before after : Network n τ D)
    (mailboxes : Fin n → Mailbox D) (i : Fin n) : Mailbox D :=
  { mailboxes i with
    received :=
      (inner.newItems (before.consumers i).task (after.consumers i).task).map (phase, ·) ++
        (mailboxes i).received }

namespace SyncFromLatest

variable (self : SyncFromLatest n D)

/-- `collection_handler`. -/
def collectionHandler : BlockRangeHandler n (CollectingTask D) D :=
  ⟨self.config, latestTask self.count, self.latestLogs⟩

/-- `stream_handler`. -/
def streamHandler : BlockRangeHandler n (StreamTask D) D :=
  ⟨self.config, streamTask, self.liveLogs⟩

/-- Before the first step. -/
def start : SyncState n D :=
  ⟨self.collectionHandler.start self.rewindStream, .collecting, fun _ => ⟨[], false⟩⟩

/-- A step of a sync. -/
def act (a : SyncAction n) (s : SyncState n D) : Option (SyncState n D) :=
  match a with
  | .latest a =>
    (self.collectionHandler.act s.listening s.latest a).map fun latest =>
      { s with
        latest := latest
        mailboxes := deposit .latest self.collectionHandler.inner s.latest latest s.mailboxes }
  | .proceed =>
    match s.stage, s.latest.broadcaster with
    | .collecting, .returned =>
      match self.syncStream with
      | .ok messages => some { s with stage := .live (self.streamHandler.start messages) }
      | .error e => some { s with stage := .notifying e (List.finRange n) }
    | _, _ => none
  | .notify =>
    match s.stage with
    | .notifying e (i :: listeners) =>
      some { s with
        stage := .notifying e listeners
        mailboxes :=
          if s.listening i then
            Function.update s.mailboxes i { s.mailboxes i with
              received := (.live, .error e) :: (s.mailboxes i).received }
          else s.mailboxes }
    | .notifying _ [] | .collecting | .live _ => none
  | .live a =>
    match s.stage with
    | .live network =>
      (self.streamHandler.act s.listening network a).map fun network' =>
        { s with
          stage := .live network'
          mailboxes := deposit .live self.streamHandler.inner network network' s.mailboxes }
    | .collecting | .notifying _ _ => none
  | .drop i =>
    some { s with
      mailboxes := Function.update s.mailboxes i { s.mailboxes i with dropped := true } }

/-- A sync as a system of actions. -/
def system : ActionSystem (SyncState n D) (SyncAction n) := ⟨self.act⟩

variable {self}

/-- The receivers that are gone when a mailbox has changed. -/
lemma dropped_update (mailboxes : Fin n → Mailbox D) (i : Fin n) (mailbox : Mailbox D) :
    (fun j => (Function.update mailboxes i mailbox j).dropped) =
      Function.update (fun j => (mailboxes j).dropped) i mailbox.dropped := by
  funext j
  by_cases hij : j = i
  · subst hij
    simp
  · simp [hij]

/-- The first phase of a sync is a handler with its listeners.

**Proof sketch.** Induction on the run. What the second phase and the task between the phases do
changes neither the first handler nor which receivers are gone. -/
lemma exists_service_reach {s : SyncState n D} (h : self.system.Reach self.start s) :
    ∃ taken, self.collectionHandler.service.Reach
      (self.collectionHandler.serviceStart self.rewindStream)
      ⟨s.latest, fun i => (s.mailboxes i).dropped, taken⟩ := by
  induction h with
  | refl => exact ⟨fun _ => [], .refl⟩
  | @tail s t _ hst ih =>
    obtain ⟨taken, hreach⟩ := ih
    obtain ⟨a, ha⟩ := hst
    change self.act a s = some t at ha
    unfold act at ha
    cases a with
    | latest a =>
      obtain ⟨network, hnetwork, rfl⟩ := Option.map_eq_some_iff.mp ha
      exact ⟨_, reach_proceed hreach hnetwork⟩
    | proceed =>
      dsimp only at ha
      split at ha
      · split at ha
        all_goals
          obtain rfl := Option.some.inj ha
          exact ⟨taken, hreach⟩
      · cases ha
    | notify =>
      dsimp only at ha
      split at ha
      · obtain rfl := Option.some.inj ha
        refine ⟨taken, ?_⟩
        dsimp only
        split_ifs
        · rw [dropped_update, Function.update_eq_self]
          exact hreach
        · exact hreach
      all_goals cases ha
    | live a =>
      dsimp only at ha
      split at ha
      · obtain ⟨network, -, rfl⟩ := Option.map_eq_some_iff.mp ha
        exact ⟨taken, hreach⟩
      all_goals cases ha
    | drop i =>
      obtain rfl := Option.some.inj ha
      refine ⟨taken, ?_⟩
      dsimp only
      rw [dropped_update]
      by_cases hgone : (s.mailboxes i).dropped = true
      · rw [← hgone, Function.update_eq_self]
        exact hreach
      · exact reach_drop hreach (by simpa using hgone)

end SyncFromLatest

end EventScanner
