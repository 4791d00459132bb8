import EventScanner.HistoricalStream.Shape
import EventScanner.SyncStream.Settled

set_option relaxedAutoImplicit false
set_option autoImplicit false

/-!
# Confirmations make shallow reorgs invisible

A stream with `c` confirmations does not touch the blocks that reorgs of a depth below `c` replace.
In a history with such reorgs only, neither the live stream nor the sync stream reports a reorg or
sends a block twice.

## Main definitions

* `EventScanner.HeadersSeen` — headers are no higher than the chain has been.
* `EventScanner.NoReorgSeen` — no reorg is reported, and no block is sent twice.

## Main results

* `EventScanner.BlockRangeScanner.streams_noReorgSeen` — confirmations hide shallow reorgs.

## Design

The chain changes in its own time: `chain t` is the chain at its `t`-th moment, and the `k`-th
provider call is answered at the moment `moment k`. Any number of changes may lie between two calls.
-/

namespace EventScanner

open HashChain EventLog

variable {Hash : Type}

/-- A header that arrives before the next provider call is no higher than the chain has been by
then. -/
def HeadersSeen (chain : ℕ → Chain Hash) (moment : ℕ → ℕ) : Event Hash → Log Hash → Prop
  | .received (.ok n), past => n ≤ peak chain (moment (clock past))
  | _, _ => True

instance (chain : ℕ → Chain Hash) (moment : ℕ → ℕ) (e : Event Hash) (past : Log Hash) :
    Decidable (HeadersSeen chain moment e past) :=
  match e with
  | .received (.ok n) => inferInstanceAs (Decidable (n ≤ peak chain (moment (clock past))))
  | .received (.error _) | .request _ | .checked _ _ | .sent _ => .isTrue trivial

/-- No reorg is reported, and no block is sent twice. -/
structure NoReorgSeen (log : Log Hash) : Prop where
  /-- No reorg is reported. -/
  no_reorg : ∀ a, .sent (reorgItem a) ∉ log
  /-- No block is sent twice. -/
  once : ∀ n, (messages log).countP (covers n) ≤ 1

section Items

variable {m s k e : ℕ} {before items : List BlockScannerResult} {log : Log Hash}

/-- How many ranges among consecutive ones contain a block. -/
lemma Streams.countP_covers (h : Streams m s e items) (n : ℕ) :
    items.countP (covers n) = if s ≤ n ∧ n < e then 1 else 0 := by
  have hcount : (items.filterMap dataRange).countP (fun r => decide (r.Contains n)) =
      items.countP (covers n) := by
    rw [List.countP_filterMap]
    congr 1
    funext item
    match item with
    | .ok (.data _) | .ok (.notification _) | .error _ => rfl
  rw [← hcount, h.consecutive.countP_contains]

/-- **Consecutive ranges, a notice and further consecutive ranges** contain no block twice and
report no reorg. -/
lemma noReorgSeen_of_streamed (notice : List BlockScannerResult) (hbefore : Streams m s k before)
    (hnotice : ∀ item ∈ notice, item = notificationItem .switchingToLive)
    (h : Streamed m k e (before ++ notice) log) : NoReorgSeen log := by
  obtain ⟨items, hlog, hitems⟩ := h
  refine ⟨fun a ha => ?_, fun n => ?_⟩
  · have hmem : reorgItem a ∈ before ++ notice ++ items := hlog ▸ mem_messages.mpr ha
    rcases List.mem_append.mp hmem with hmem | hmem
    · rcases List.mem_append.mp hmem with hmem | hmem
      · exact hbefore.quiet _ hmem
      · simpa using hnotice _ hmem
    · exact hitems.quiet _ hmem
  · have hzero : notice.countP (covers n) = 0 := by
      refine List.countP_eq_zero.mpr fun item hitem => ?_
      rw [hnotice item hitem]
      exact Bool.false_ne_true
    have hle := hitems.consecutive.le
    rw [hlog, List.countP_append, List.countP_append, hzero, hbefore.countP_covers,
      hitems.countP_covers]
    split_ifs <;> omega

/-- Consecutive ranges without a notice. -/
lemma noReorgSeen_of_streamed_nil (hbefore : Streams m s k before)
    (h : Streamed m k e before log) : NoReorgSeen log := by
  rw [← List.append_nil before] at h
  exact noReorgSeen_of_streamed [] hbefore (fun _ hitem => absurd hitem List.not_mem_nil) h

/-- Consecutive ranges alone. -/
lemma Streams.noReorgSeen (h : Streams m s e (messages log)) : NoReorgSeen log :=
  noReorgSeen_of_streamed_nil h (streamed_start rfl)

/-- A run that has sent nothing. -/
lemma noReorgSeen_of_nil (h : messages log = []) : NoReorgSeen log := by
  have hnil : Streams 0 0 0 (messages log) := by
    rw [h]
    exact Streams.nil
  exact hnil.noReorgSeen

end Items

section Shallow

variable {provider : RobustProvider Hash} {chain : ℕ → Chain Hash} {moment : ℕ → ℕ}
  {blockConfirmations : ℕ}

/-- Blocks that are deep enough below the peak of the chain are settled. -/
lemma settledUpTo_of_shallowReorgs (hview : ∀ k, provider.view k = chain (moment k))
    (hmoment : Monotone moment) (hshallow : ShallowReorgs blockConfirmations chain) {k n : ℕ}
    (hn : n ≤ peak chain (moment k)) : provider.SettledUpTo k (n - blockConfirmations) := by
  intro i hi b hb hcanonical j hij
  rw [hview] at hcanonical ⊢
  have hpeak := peak_mono chain (hmoment hi)
  exact hshallow.canonical (hmoment hij) (by omega) hcanonical

/-- Headers that are no higher than the chain has been confirm settled blocks. -/
lemma headersSettled_of_seen {log : Log Hash} (hview : ∀ k, provider.view k = chain (moment k))
    (hmoment : Monotone moment) (hshallow : ShallowReorgs blockConfirmations chain)
    (hseen : Always (HeadersSeen chain moment) log) :
    Always (HeadersSettled provider blockConfirmations) log := by
  refine hseen.mono fun e past hpast => ?_
  match e with
  | .received (.ok n) => exact settledUpTo_of_shallowReorgs hview hmoment hshallow hpast
  | .received (.error _) | .request _ | .checked _ _ | .sent _ => trivial

end Shallow

namespace BlockRangeScanner

variable [DecidableEq Hash] (self : BlockRangeScanner Hash)

/-- **Confirmations hide shallow reorgs**, in every run of the live stream and of the sync
stream. -/
theorem streams_noReorgSeen {chain : ℕ → Chain Hash} {moment : ℕ → ℕ}
    (hview : ∀ k, self.provider.view k = chain (moment k)) (hmoment : Monotone moment)
    {blockConfirmations : ℕ} (hshallow : ShallowReorgs blockConfirmations chain)
    (hfault : ∀ k, self.provider.fault k ≠ some .blockNotFound) (sender : Sender) (fuel : ℕ)
    (subscription : List SubscriptionItem) (result : Option (Except ScannerError Unit))
    (log : Log Hash) (hseen : Always (HeadersSeen chain moment) log) :
    ((self.streamLive sender fuel subscription blockConfirmations).run [] = (result, log) →
        NoReorgSeen log) ∧
      ∀ startId,
        (self.streamFrom sender fuel subscription startId blockConfirmations).run [] =
          (result, log) →
        NoReorgSeen log := by
  have htips : self.provider.TipsSettled blockConfirmations := by
    intro k
    refine settledUpTo_of_shallowReorgs hview hmoment hshallow ?_
    rw [hview]
    exact height_le_peak chain (moment k)
  have hC := headersSettled_of_seen hview hmoment hshallow hseen
  constructor
  · intro hrun
    have hends := self.streamLive_settled hfault sender fuel subscription blockConfirmations hrun hC
    rcases result with _ | e | u
    · obtain ⟨⟨e, hstreamed⟩, -⟩ := hends
      exact hstreamed.streams.noReorgSeen
    · exact noReorgSeen_of_nil hends
    · obtain ⟨e, hstreamed, -⟩ := hends
      exact (Streamed.streams (hstreamed.elim id And.left)).noReorgSeen
  · intro startId hrun
    obtain ⟨start, -, hends⟩ := SyncHandler.run_settled
      (SyncHandler.new self.provider self.maxBlockRange startId blockConfirmations
        self.pastBlocksStorageCapacity sender) hfault rfl htips fuel subscription hrun hC
    rcases result with _ | e | u
    · obtain ⟨k, hcaught, ⟨⟨e, hstreamed⟩, -⟩ | ⟨hlog, -⟩⟩ := hends
      · exact noReorgSeen_of_streamed _ hcaught (by simp) hstreamed
      · rw [← hlog] at hcaught
        exact hcaught.noReorgSeen
    · exact noReorgSeen_of_nil hends
    · obtain ⟨k, hcaught, e, hstreamed | ⟨hstreamed, -⟩, -⟩ := hends
      · exact noReorgSeen_of_streamed _ hcaught (by simp) hstreamed
      · exact noReorgSeen_of_streamed_nil hcaught hstreamed

/-! ### A shallow reorg -/

/-- A history in which the blocks `4` and `5` are replaced at the third moment. -/
def shallow : ℕ → Chain ℕ :=
  switchAt 2 (.ofHashes 0 [1, 2, 3, 4, 5] 0) (.ofHashes 0 [1, 2, 3, 14, 15, 16] 0)

/-- A scanner over that history, with a provider call at each moment. -/
def shallowScanner : BlockRangeScanner ℕ where
  provider := .healthy shallow
  maxBlockRange := defaultMaxBlockRange
  pastBlocksStorageCapacity := .infinite

/-- The log of a live stream with two confirmations. -/
def shallowLiveLog : Log ℕ := ((shallowScanner.streamLive ⟨none⟩ 5 [.ok 5, .ok 6] 2).run []).2

/-- The log of a sync stream from block `1` on with two confirmations. -/
def shallowSyncLog : Log ℕ :=
  ((shallowScanner.streamFrom ⟨none⟩ 5 [.ok 5, .ok 6] (.number (.number 1)) 2).run []).2

/-- Both streams send block `4` of the new fork and do not report the old one. -/
theorem streams_noReorgSeen_shallow :
    messages shallowLiveLog = [dataItem ⟨4, 4⟩] ∧ NoReorgSeen shallowLiveLog ∧
      messages shallowSyncLog =
        [dataItem ⟨1, 3⟩, notificationItem .switchingToLive, dataItem ⟨4, 4⟩] ∧
      NoReorgSeen shallowSyncLog := by
  have hshallow : ShallowReorgs 2 shallow := shallowReorgs_switchAt (by decide)
  refine ⟨rfl, (shallowScanner.streams_noReorgSeen (fun _ => rfl) monotone_id hshallow
    (by simp [shallowScanner, RobustProvider.healthy]) ⟨none⟩ 5 [.ok 5, .ok 6] _ shallowLiveLog
    (by decide)).1 rfl, rfl, (shallowScanner.streams_noReorgSeen (fun _ => rfl) monotone_id hshallow
      (by simp [shallowScanner, RobustProvider.healthy]) ⟨none⟩ 5 [.ok 5, .ok 6] _ shallowSyncLog
      (by decide)).2 (.number (.number 1)) rfl⟩

end BlockRangeScanner

end EventScanner
