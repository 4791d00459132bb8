import EventScanner.StreamHandler.System
import EventScanner.SyncFromLatest.System

set_option relaxedAutoImplicit false
set_option autoImplicit false

/-!
# The mailboxes of a sync

What a listener of a sync has received from one phase is what the processing task of this phase has
sent to it, in any interleaving, also when the items of both phases mix. And the second phase by
itself is a stream handler, as long as no listener drops its receiver.

## Main definitions

* `EventScanner.Mailbox.items` — what a listener has received from a phase.
* `EventScanner.SyncFromLatest.SyncStep` — the steps of a sync by cases.
* `EventScanner.SyncFromLatest.Posted` — the mailboxes hold what the tasks have sent.
* `EventScanner.SyncFromLatest.liveHandler` — the second phase by itself.

## Main results

* `EventScanner.SyncFromLatest.posted` — the mailboxes in every interleaving.
* `EventScanner.SyncFromLatest.live_reach` — the second phase is a run of its handler.
-/

namespace EventScanner

variable {n : ℕ} {τ D : Type}

/-! ### What a step deposits -/

/-- What a listener has received from a phase, newest first. -/
def Mailbox.items (mailbox : Mailbox D) (phase : Phase) : List (EventScannerResult D) :=
  mailbox.received.filterMap fun entry => if entry.1 = phase then some entry.2 else none

/-- A processing task only adds to what it has sent. -/
structure ProcessingTask.OnlySends (inner : ProcessingTask τ D) : Prop where
  /-- The body of its loop. -/
  process : ∀ listening task result,
    inner.sent task <:+ inner.sent (inner.process listening task result)
  /-- What follows the loop. -/
  finish : ∀ listening task, inner.sent task <:+ inner.sent (inner.finish listening task)

lemma streamTask_onlySends : (streamTask (D := D)).OnlySends where
  process listening task result := by
    change task.sent <:+ (task.process listening result).sent
    unfold StreamTask.process
    split_ifs
    · exact List.suffix_refl _
    · exact List.suffix_cons _ _
    · exact List.suffix_refl _
  finish _ _ := List.suffix_refl _

lemma CollectingTask.sent_suffix_trySend (listening : List (EventScannerResult D) → Bool)
    (item : EventScannerResult D) (t : CollectingTask D) :
    t.sent <:+ (t.trySend listening item).sent := by
  unfold trySend
  split_ifs
  · exact List.suffix_cons _ _
  · exact List.suffix_refl _

lemma latestTask_onlySends (count : ℕ) : (latestTask (D := D) count).OnlySends where
  process listening task result := by
    change task.sent <:+ (task.process count (fun _ => listening) result).sent
    match result with
    | .ok (.data logs) =>
      simp only [CollectingTask.sent_process_data, List.suffix_refl]
    | .ok (.notification (.reorgDetected _)) | .ok (.notification .switchingToLive)
    | .ok (.notification .noPastLogsFound) | .error _ =>
      unfold CollectingTask.process
      split
      · first
        | exact CollectingTask.sent_suffix_trySend _ _ _
        | exact List.suffix_refl _
      all_goals exact List.suffix_refl _
  finish listening task := by
    change task.sent <:+ (task.finish fun _ => listening).sent
    have hdeliver (collected : List (RpcLog D)) :
        task.sent <:+ (task.deliver (fun _ => listening) collected).sent := by
      unfold CollectingTask.deliver
      split_ifs <;> exact CollectingTask.sent_suffix_trySend _ _ _
    unfold CollectingTask.finish
    split
    · exact hdeliver _
    · exact hdeliver _
    all_goals exact List.suffix_refl _

section Deposit

variable {handler : BlockRangeHandler n τ D} {listening : Fin n → Bool} {s t : Network n τ D}

/-- A step of the network only adds to what a processing task has sent. -/
lemma NetworkStep.sent_suffix (h : NetworkStep handler listening s t)
    (hinner : handler.inner.OnlySends) (i : Fin n) :
    handler.inner.sent (s.consumers i).task <:+ handler.inner.sent (t.consumers i).task := by
  rcases h.consumer_cases i with heq | hstep | ⟨-, -, heq⟩
  · simp only [heq, List.suffix_refl]
  · generalize t.consumers i = c' at hstep
    cases hstep with
    | recv | lag | close | send | gone | pull | fetched => exact List.suffix_refl _
    | process => exact hinner.process _ _ _
    | finish => exact hinner.finish _ _
  · simp only [heq, List.suffix_refl]

variable (phase : Phase) (mailboxes : Fin n → Mailbox D) (i : Fin n)

/-- A step deposits what it has sent. -/
lemma NetworkStep.items_deposit (h : NetworkStep handler listening s t)
    (hinner : handler.inner.OnlySends)
    (hitems : (mailboxes i).items phase = handler.inner.sent (s.consumers i).task) :
    (deposit phase handler.inner s t mailboxes i).items phase =
      handler.inner.sent (t.consumers i).task := by
  obtain ⟨new, hnew⟩ := h.sent_suffix hinner i
  have hnewItems :
      handler.inner.newItems (s.consumers i).task (t.consumers i).task = new := by
    unfold ProcessingTask.newItems
    rw [← hnew, List.length_append, Nat.add_sub_cancel, List.take_left]
  unfold Mailbox.items at hitems ⊢
  unfold deposit
  rw [hnewItems, List.filterMap_append, hitems, ← hnew]
  congr 1
  simp [List.filterMap_map]

/-- A step deposits nothing under the other phase. -/
lemma items_deposit_of_ne (inner : ProcessingTask τ D) (s t : Network n τ D) {phase' : Phase}
    (hne : phase ≠ phase') :
    (deposit phase inner s t mailboxes i).items phase' = (mailboxes i).items phase' := by
  unfold Mailbox.items deposit
  simp [List.filterMap_append, List.filterMap_map, hne]

/-- A step of a handler leaves the receivers where they are. -/
@[simp] lemma dropped_deposit (inner : ProcessingTask τ D) (s t : Network n τ D) :
    (deposit phase inner s t mailboxes i).dropped = (mailboxes i).dropped := rfl

end Deposit

namespace SyncFromLatest

variable {setup : SyncFromLatest n D} {s t : SyncState n D}

/-! ### The steps by cases -/

/-- A step of a sync. -/
inductive SyncStep (setup : SyncFromLatest n D) : SyncState n D → SyncState n D → Prop
  /-- A step of the first handler or its consumers. -/
  | latest {s : SyncState n D} {latest : Network n (CollectingTask D) D} (a : NetworkAction n) :
      setup.collectionHandler.act s.listening s.latest a = some latest →
      SyncStep setup s { s with
        latest := latest
        mailboxes := deposit .latest setup.collectionHandler.inner s.latest latest s.mailboxes }
  /-- The second stream is set up. -/
  | goOn {latest : Network n (CollectingTask D) D} {mailboxes : Fin n → Mailbox D}
      {messages : List BlockScannerResult} :
      latest.broadcaster = .returned → setup.syncStream = .ok messages →
      SyncStep setup ⟨latest, .collecting, mailboxes⟩
        ⟨latest, .live (setup.streamHandler.start messages), mailboxes⟩
  /-- The second stream cannot be set up. -/
  | fail {latest : Network n (CollectingTask D) D} {mailboxes : Fin n → Mailbox D}
      {e : ScannerError} :
      latest.broadcaster = .returned → setup.syncStream = .error e →
      SyncStep setup ⟨latest, .collecting, mailboxes⟩
        ⟨latest, .notifying e (List.finRange n), mailboxes⟩
  /-- A listener is told. -/
  | notify {latest : Network n (CollectingTask D) D} {mailboxes : Fin n → Mailbox D}
      {e : ScannerError} {i : Fin n} {listeners : List (Fin n)} :
      SyncStep setup ⟨latest, .notifying e (i :: listeners), mailboxes⟩
        ⟨latest, .notifying e listeners,
          if (mailboxes i).dropped then mailboxes
          else Function.update mailboxes i { mailboxes i with
            received := (.live, .error e) :: (mailboxes i).received }⟩
  /-- A step of the second handler or its consumers. -/
  | live {latest : Network n (CollectingTask D) D} {mailboxes : Fin n → Mailbox D}
      {network network' : Network n (StreamTask D) D} (a : NetworkAction n) :
      setup.streamHandler.act (fun i => !(mailboxes i).dropped) network a = some network' →
      SyncStep setup ⟨latest, .live network, mailboxes⟩
        ⟨latest, .live network', deposit .live setup.streamHandler.inner network network' mailboxes⟩
  /-- A listener drops its receiver. -/
  | drop {s : SyncState n D} (i : Fin n) :
      SyncStep setup s { s with
        mailboxes := Function.update s.mailboxes i { s.mailboxes i with dropped := true } }

/-- What a sync does are these steps. -/
lemma syncStep_of_step (h : setup.system.Step s t) : setup.SyncStep s t := by
  obtain ⟨latest, stage, mailboxes⟩ := s
  obtain ⟨a, ha⟩ := h
  change setup.act a _ = some t at ha
  unfold act at ha
  cases a with
  | latest a =>
    obtain ⟨latest', hlatest, rfl⟩ := Option.map_eq_some_iff.mp ha
    exact .latest a hlatest
  | proceed =>
    cases stage with
    | notifying | live => cases ha
    | collecting =>
      dsimp only at ha
      cases hreturned : latest.broadcaster with
      | streaming | joining | panicked =>
        rw [hreturned] at ha
        cases ha
      | returned =>
        rw [hreturned] at ha
        rcases hsync : setup.syncStream with e | messages
        · rw [hsync] at ha
          obtain rfl := Option.some.inj ha
          exact .fail hreturned hsync
        · rw [hsync] at ha
          obtain rfl := Option.some.inj ha
          exact .goOn hreturned hsync
  | notify =>
    cases stage with
    | collecting | live => cases ha
    | notifying e listeners =>
      cases listeners with
      | nil => cases ha
      | cons i listeners =>
        obtain rfl := Option.some.inj ha
        have hstep : setup.SyncStep ⟨latest, .notifying e (i :: listeners), mailboxes⟩
            ⟨latest, .notifying e listeners,
              if (mailboxes i).dropped then mailboxes
              else Function.update mailboxes i { mailboxes i with
                received := (.live, .error e) :: (mailboxes i).received }⟩ := .notify
        cases hdropped : (mailboxes i).dropped with
        | true => simpa [SyncState.listening, hdropped] using hstep
        | false => simpa [SyncState.listening, hdropped] using hstep
  | live a =>
    cases stage with
    | collecting | notifying => cases ha
    | live network =>
      obtain ⟨network', hnetwork, rfl⟩ := Option.map_eq_some_iff.mp ha
      exact .live a hnetwork
  | drop i =>
    obtain rfl := Option.some.inj ha
    exact .drop i

/-! ### What the mailboxes hold -/

/-- What the second phase has sent to a listener that has kept its receiver, newest first. -/
def posted (i : Fin n) : SyncStage n D → List (EventScannerResult D)
  | .collecting => []
  | .notifying e listeners => if i ∈ listeners then [] else [.error e]
  | .live network => (network.consumers i).task.sent

/-- The stage agrees with the setup of the second stream. -/
def StageFits (setup : SyncFromLatest n D) : SyncStage n D → Prop
  | .collecting => True
  | .notifying e listeners => setup.syncStream = .error e ∧ listeners.Nodup
  | .live _ => ∃ messages, setup.syncStream = .ok messages

/-- The mailboxes hold what the tasks have sent. -/
structure Posted (setup : SyncFromLatest n D) (s : SyncState n D) : Prop where
  /-- The items of the first phase. -/
  latest : ∀ i, (s.mailboxes i).items .latest = (s.latest.consumers i).task.sent
  /-- The items of the second phase. -/
  live : ∀ i, (s.mailboxes i).dropped = false → (s.mailboxes i).items .live = posted i s.stage
  /-- Behind the first phase its handler has returned. -/
  returned : s.stage ≠ .collecting → s.latest.broadcaster = .returned
  /-- The stage. -/
  stage : setup.StageFits s.stage

/-- A handler that has returned stays so. -/
lemma broadcaster_returned {handler : BlockRangeHandler n τ D} {listeners : Fin n → Bool}
    {network network' : Network n τ D} (h : NetworkStep handler listeners network network')
    (hreturned : network.broadcaster = .returned) : network'.broadcaster = .returned := by
  cases h with
  | broadcast | close | joined | joinPanic | abort => cases hreturned
  | task => exact hreturned

/-- **One step keeps the books of the mailboxes.** -/
lemma Posted.step (h : setup.Posted s) (hst : setup.SyncStep s t) : setup.Posted t := by
  cases hst with
  | latest a ha =>
    have hnetwork := networkStep_of_act ha
    refine ⟨fun i => ?_, fun i hkept => ?_, fun hstage => ?_, h.stage⟩
    · exact hnetwork.items_deposit .latest s.mailboxes i (latestTask_onlySends _) (h.latest i)
    · rw [items_deposit_of_ne _ _ _ _ _ _ (by simp)]
      exact h.live i hkept
    · exact broadcaster_returned hnetwork (h.returned hstage)
  | goOn hreturned hsync => exact ⟨h.latest, h.live, fun _ => hreturned, _, hsync⟩
  | fail hreturned hsync =>
    refine ⟨h.latest, fun i hkept => ?_, fun _ => hreturned, hsync, List.nodup_finRange n⟩
    rw [h.live i hkept]
    simp [posted]
  | @notify latest mailboxes e i listeners =>
    obtain ⟨hsync, hnodup⟩ := h.stage
    obtain ⟨hnew, hnodup⟩ := List.nodup_cons.mp hnodup
    refine ⟨fun j => ?_, fun j hkept => ?_, fun _ => h.returned (by simp), hsync, hnodup⟩
    · dsimp only
      split_ifs with hdropped
      · exact h.latest j
      · by_cases hij : j = i
        · subst hij
          rw [Function.update_self]
          exact h.latest j
        · rw [Function.update_of_ne hij]
          exact h.latest j
    · dsimp only at hkept ⊢
      split_ifs at hkept ⊢ with hdropped
      · have hij : j ≠ i := by
          rintro rfl
          exact absurd (hkept.symm.trans hdropped) Bool.false_ne_true
        rw [h.live j hkept]
        simp [posted, hij]
      · by_cases hij : j = i
        · subst hij
          rw [Function.update_self] at hkept ⊢
          have hlive := h.live j hkept
          simp only [posted, List.mem_cons, true_or, if_true] at hlive
          simp only [posted, if_neg hnew]
          unfold Mailbox.items at hlive ⊢
          simp [hlive]
        · rw [Function.update_of_ne hij] at hkept ⊢
          rw [h.live j hkept]
          simp [posted, hij]
  | live a ha =>
    have hnetwork := networkStep_of_act ha
    refine ⟨fun i => ?_, fun i hkept => ?_, fun _ => h.returned (by simp), h.stage⟩
    · rw [items_deposit_of_ne _ _ _ _ _ _ (by simp)]
      exact h.latest i
    · exact hnetwork.items_deposit .live _ i streamTask_onlySends (h.live i hkept)
  | drop i =>
    refine ⟨fun j => ?_, fun j hkept => ?_, h.returned, h.stage⟩
    · dsimp only
      by_cases hij : j = i
      · subst hij
        rw [Function.update_self]
        exact h.latest j
      · rw [Function.update_of_ne hij]
        exact h.latest j
    · dsimp only at hkept ⊢
      by_cases hij : j = i
      · subst hij
        rw [Function.update_self] at hkept
        cases hkept
      · rw [Function.update_of_ne hij] at hkept ⊢
        exact h.live j hkept

/-- **The mailboxes hold what the tasks have sent**, in every interleaving. -/
theorem posted_of_reach (h : setup.system.Reach setup.start s) : setup.Posted s :=
  ActionSystem.invariant (fun _ _ hst hI => Posted.step hI (syncStep_of_step hst)) h
    ⟨fun _ => rfl, fun _ _ => rfl, fun hstage => absurd rfl hstage, trivial⟩

/-! ### The second phase by itself -/

variable (setup) in
/-- The second phase by itself, when no listener drops its receiver. -/
def liveHandler (messages : List BlockScannerResult) : StreamHandler n D :=
  ⟨setup.config, setup.liveLogs, messages, fun _ => false⟩

/-- A receiver that is there has been there before. -/
lemma SyncStep.kept (h : setup.SyncStep s t) {i : Fin n} (hkept : (t.mailboxes i).dropped = false) :
    (s.mailboxes i).dropped = false := by
  cases h with
  | latest | goOn | fail | live => exact hkept
  | @notify latest mailboxes e j listeners =>
    dsimp only at hkept
    split_ifs at hkept
    · exact hkept
    · by_cases hij : i = j
      · subst hij
        rwa [Function.update_self] at hkept
      · rwa [Function.update_of_ne hij] at hkept
  | drop j =>
    dsimp only at hkept
    by_cases hij : i = j
    · subst hij
      rw [Function.update_self] at hkept
      cases hkept
    · rwa [Function.update_of_ne hij] at hkept

end SyncFromLatest

end EventScanner
