import EventScanner.BlockRangeStream.RangeSize
import EventScanner.HistoricalStream.Shape
import EventScanner.LatestEventsHandler.MatchingLogs
import EventScanner.Lib.Replica
import EventScanner.StreamHandler.Isolation
import EventScanner.SyncStream.Restart

set_option relaxedAutoImplicit false
set_option autoImplicit false

/-!
# A subscriber that keeps a replica of the matching logs

A subscriber appends the logs it receives and drops those behind a reported common ancestor. The
logs of a range are fetched when the range is taken from the stream, so they may belong to blocks
that are replaced later; but then the range is sent again. This file says what such a subscriber
holds: as long as the stream follows the rollback protocol, its logs are in order and without
duplicates at every moment, and they are those of the chain if and only if the last query for each
block was answered with them.

## Main definitions

* `EventScanner.replica` — the logs a subscriber holds behind the items it has received.
* `EventScanner.updates`, `EventScanner.lastQueryAnswer` — the stream as a source of logs.
* `EventScanner.StreamHandler.Replicates` — what holds of a subscriber at every moment.
* `EventScanner.HoldsRanges` — which blocks it holds behind a range.

## Main results

* `EventScanner.always_appends` — on a stream that follows the protocol, a range begins behind
  everything held.
* `EventScanner.StreamHandler.replicates` — a listener of a stream handler.
* `EventScanner.BlockRangeScanner.streamFrom_replicates` — the sync stream.
* `EventScanner.BlockRangeScanner.streamHistorical_replicates` — the historical stream.
-/

namespace EventScanner

open HashChain EventLog

variable {Hash D : Type}

/-! ### The subscriber -/

/-- What a subscriber makes of an item. -/
def applyItem (held : List (RpcLog D)) : EventScannerResult D → List (RpcLog D)
  | .ok (.data logs) => held ++ logs
  | .ok (.notification (.reorgDetected commonAncestor)) =>
    held.filter fun l => l.number ≤ commonAncestor
  | .ok (.notification .switchingToLive) | .ok (.notification .noPastLogsFound) | .error _ => held

/-- The logs a subscriber holds behind items, which are given in order. -/
def replica (items : List (EventScannerResult D)) : List (RpcLog D) := items.foldl applyItem []

lemma replica_concat (items : List (EventScannerResult D)) (item : EventScannerResult D) :
    replica (items ++ [item]) = applyItem (replica items) item := by
  unfold replica
  rw [List.foldl_append]
  rfl

/-- A range without logs, which is not sent, makes no difference. -/
lemma replica_kept (items : List (EventScannerResult D)) :
    replica (kept items) = replica items := by
  induction items using List.reverseRecOn with
  | nil => rfl
  | append_singleton items item ih =>
    have hkept : kept (items ++ [item]) = kept items ++ kept [item] := List.filter_append ..
    rw [hkept, replica_concat, ← ih]
    by_cases hskip : StreamTask.skipped item = true
    · have hnil : kept [item] = [] := by simp [kept, hskip]
      rw [hnil, List.append_nil]
      rcases item with e | logs | notification
      · cases hskip
      · obtain rfl : logs = [] := List.isEmpty_iff.mp hskip
        exact (List.append_nil _).symm
      · cases hskip
    · have hone : kept [item] = [item] := by simp [kept, hskip]
      rw [hone, replica_concat]

/-! ### The stream as a source of logs -/

/-- What a block-range stream publishes to a listener: each range with the logs fetched for it, and
each reorg. A range whose query has failed brings nothing. -/
def updates (getLogs : GetLogs D) : Log Hash → List (Replica.Update (RpcLog D))
  | [] => []
  | .sent (.ok (.data r)) :: log =>
    match getLogs (messages log).length r with
    | .ok logs => .extend r.start r.stop logs :: updates getLogs log
    | .error _ => updates getLogs log
  | .sent (.ok (.notification (.reorgDetected a))) :: log => .withdraw a :: updates getLogs log
  | _ :: log => updates getLogs log

/-- The answer to the last query for a block that was not taken back since. -/
def lastQueryAnswer (getLogs : GetLogs D) (log : Log Hash) (n : ℕ) : Option (List (RpcLog D)) :=
  Replica.lastSpan RpcLog.number n (updates getLogs log)

/-- A query for a range is answered with logs of the range, in order. -/
def AnsweredInRange (getLogs : GetLogs D) : Prop :=
  ∀ k range logs, getLogs k range = .ok logs → FetchedFrom range logs

variable {getLogs : GetLogs D} {log past : Log Hash} {start m n : ℕ}

lemma updates_of_ok {r : RangeInclusive} {logs : List (RpcLog D)}
    (h : getLogs (messages log).length r = .ok logs) :
    updates getLogs (.sent (dataItem r) :: log) =
      .extend r.start r.stop logs :: updates getLogs log := by
  simp only [updates, h]

lemma updates_of_error {r : RangeInclusive} {e : RobustProviderError}
    (h : getLogs (messages log).length r = .error e) :
    updates getLogs (.sent (dataItem r) :: log) = updates getLogs log := by
  simp only [updates, h]

/-- **The subscriber is a replica of this source.** -/
lemma replica_outcomesOf (getLogs : GetLogs D) (log : Log Hash) :
    replica (outcomesOf getLogs (messages log)) =
      Replica.replay RpcLog.number (updates getLogs log) := by
  induction log with
  | nil => rfl
  | cons e log ih =>
    match e with
    | .request _ | .received _ | .checked _ _ => exact ih
    | .sent item =>
      rw [messages_sent, outcomesOf_concat, replica_concat, ih]
      match item with
      | .ok (.data r) =>
        rcases hanswer : getLogs (messages log).length r with e | logs
        · rw [fetchResult_of_error hanswer, updates_of_error hanswer]
          rfl
        · rw [fetchResult_of_ok hanswer, updates_of_ok hanswer]
          rfl
      | .ok (.notification .switchingToLive) | .ok (.notification .noPastLogsFound)
      | .ok (.notification (.reorgDetected _)) | .error _ => rfl

/-- The subscriber holds logs of blocks it holds. -/
lemma held_of_mem_replay (hanswers : AnsweredInRange getLogs) {l : RpcLog D}
    (h : l ∈ Replica.replay RpcLog.number (updates getLogs log)) : Held log l.number := by
  induction log with
  | nil => cases h
  | cons e log ih =>
    match e with
    | .sent (.ok (.data r)) =>
      rcases hanswer : getLogs (messages log).length r with e | logs
      · rw [updates_of_error hanswer] at h
        exact Or.inr (ih h)
      · rw [updates_of_ok hanswer] at h
        rcases List.mem_append.mp h with h | h
        · exact Or.inr (ih h)
        · exact Or.inl ((hanswers _ _ _ hanswer).mined l h).2
    | .sent (.ok (.notification (.reorgDetected a))) =>
      obtain ⟨hmem, ha⟩ := List.mem_filter.mp h
      exact ⟨of_decide_eq_true ha, ih hmem⟩
    | .sent (.ok (.notification .switchingToLive)) | .sent (.ok (.notification .noPastLogsFound))
    | .sent (.error _) | .request _ | .received _ | .checked _ _ => exact ih h

/-- On a stream that follows the protocol every block held is before the position. -/
lemma lt_position_of_held (hprotocol : Always (RollsBack start) log) (hfit : RangesFit m log)
    (h : Held log n) : n < position start log := by
  induction log with
  | nil => exact absurd h id
  | cons e log ih =>
    obtain ⟨he, hprotocol⟩ := hprotocol
    obtain ⟨hsize, hfit⟩ := hfit
    have ih := ih hprotocol hfit
    match e with
    | .sent (.ok (.data r)) =>
      change n < r.stop + 1
      rcases h with hin | hpast
      · exact Nat.lt_succ_of_le hin.2
      · have hbefore := ih hpast
        rw [← he.1] at hbefore
        have hle : r.start ≤ r.stop := hsize.1
        omega
    | .sent (.ok (.notification (.reorgDetected a))) =>
      change n < max (a + 1) start
      have ha : n ≤ a := h.1
      omega
    | .sent (.ok (.notification .switchingToLive)) | .sent (.ok (.notification .noPastLogsFound))
    | .sent (.error _) | .request _ | .received _ | .checked _ _ => exact ih h

/-- **On a stream that follows the protocol a range begins behind everything held.** -/
theorem always_appends (hprotocol : Always (RollsBack start) log) (hfit : RangesFit m log)
    (hanswers : AnsweredInRange getLogs) :
    Always (Replica.Appends RpcLog.number RpcLog.Before) (updates getLogs log) := by
  induction log with
  | nil => trivial
  | cons e log ih =>
    obtain ⟨he, hprotocol⟩ := hprotocol
    obtain ⟨hsize, hfit⟩ := hfit
    have ih := ih hprotocol hfit
    match e with
    | .sent (.ok (.data r)) =>
      rcases hanswer : getLogs (messages log).length r with e | logs
      · rw [updates_of_error hanswer]
        exact ih
      · rw [updates_of_ok hanswer]
        have hfetched := hanswers _ _ _ hanswer
        refine ⟨⟨fun l hl => (hfetched.mined l hl).2, hfetched.ascending, fun l hl => ?_⟩, ih⟩
        rw [he.1]
        exact lt_position_of_held hprotocol hfit (held_of_mem_replay hanswers hl)
    | .sent (.ok (.notification (.reorgDetected a))) => exact ⟨trivial, ih⟩
    | .sent (.ok (.notification .switchingToLive)) | .sent (.ok (.notification .noPastLogsFound))
    | .sent (.error _) | .request _ | .received _ | .checked _ _ => exact ih

/-- When no query has failed, the blocks with a last answer are those held. -/
lemma lastQueryAnswer_isSome_iff (hok : ∀ e, .error e ∉ outcomesOf getLogs (messages log)) :
    (lastQueryAnswer getLogs log n).isSome = true ↔ Held log n := by
  unfold lastQueryAnswer
  induction log with
  | nil => simp [updates, Replica.lastSpan, Held]
  | cons e log ih =>
    match e with
    | .request _ | .received _ | .checked _ _ => exact ih hok
    | .sent item =>
      rw [messages_sent, outcomesOf_concat] at hok
      have ih := ih fun e he => hok e (List.mem_append_left _ he)
      match item with
      | .ok (.data r) =>
        rcases hanswer : getLogs (messages log).length r with e | logs
        · rw [fetchResult_of_error hanswer] at hok
          exact absurd (List.mem_append_right _ (List.mem_singleton_self _)) (hok _)
        · rw [updates_of_ok hanswer, Replica.lastSpan_extend]
          change _ ↔ r.Contains n ∨ Held log n
          split_ifs with hin
          · exact ⟨fun _ => Or.inl hin, fun _ => rfl⟩
          · rw [ih]
            exact ⟨Or.inr, fun h => h.resolve_left hin⟩
      | .ok (.notification (.reorgDetected a)) =>
        change (Replica.lastSpan RpcLog.number n (.withdraw a :: updates getLogs log)).isSome =
          true ↔ n ≤ a ∧ Held log n
        rw [Replica.lastSpan_withdraw]
        split_ifs with ha
        · rw [ih]
          exact ⟨fun h => ⟨ha, h⟩, And.right⟩
        · exact ⟨fun h => absurd h Bool.false_ne_true, fun h => absurd h.1 ha⟩
      | .ok (.notification .switchingToLive) | .ok (.notification .noPastLogsFound)
      | .error _ => exact ih

/-- The logs of a chain in the blocks that a consumer holds. -/
def MatchingLogs.inHeld (matching : MatchingLogs D) (log : Log Hash) : List (RpcLog D) :=
  matching.logs.filter fun l => decide (Held log l.number)

/-- The logs of a held block. -/
lemma MatchingLogs.at_inHeld (matching : MatchingLogs D) (h : Held log n) :
    Replica.at' RpcLog.number n (matching.inHeld log) = matching.within n n := by
  unfold Replica.at' MatchingLogs.inHeld MatchingLogs.within
  rw [List.filter_filter]
  refine List.filter_congr fun l _ => ?_
  rw [Bool.eq_iff_iff]
  simp only [Bool.and_eq_true, decide_eq_true_eq]
  constructor
  · rintro ⟨hn, -⟩
    omega
  · rintro ⟨hge, hle⟩
    obtain rfl : l.number = n := Nat.le_antisymm hle hge
    exact ⟨rfl, h⟩

/-- **When the subscriber holds the logs of a chain.** If no query has failed, it does for the
blocks it holds if and only if the last query for each of these blocks was answered with them.

**Proof sketch.** Each range begins behind everything held, so the subscriber is a replica in
order. -/
theorem replica_eq_iff (hprotocol : Always (RollsBack start) log) (hfit : RangesFit m log)
    (hanswers : AnsweredInRange getLogs) (hok : ∀ e, .error e ∉ outcomesOf getLogs (messages log))
    (matching : MatchingLogs D) :
    replica (outcomesOf getLogs (messages log)) = matching.inHeld log ↔
      ∀ n, Held log n → lastQueryAnswer getLogs log n = some (matching.within n n) := by
  have hreference : (matching.inHeld log).Pairwise RpcLog.Before := matching.ascending.filter _
  rw [replica_outcomesOf]
  refine (Replica.replay_eq_iff ?_ ?_ (always_appends hprotocol hfit hanswers) hreference).trans ?_
  · exact fun l l' => RpcLog.before_of_number_lt
  · exact fun l l' => RpcLog.Before.number_le
  constructor
  · intro h n hn
    obtain ⟨answer, hanswer⟩ :=
      Option.isSome_iff_exists.mp ((lastQueryAnswer_isSome_iff hok).mpr hn)
    have hn' := h n
    unfold lastQueryAnswer at hanswer ⊢
    rw [hanswer] at hn' ⊢
    exact congrArg some (hn'.trans (matching.at_inHeld hn))
  · intro h n
    by_cases hn : Held log n
    · have hanswer := h n hn
      unfold lastQueryAnswer at hanswer
      rw [hanswer]
      exact (matching.at_inHeld hn).symm
    · have hnone : lastQueryAnswer getLogs log n = none := by
        rw [← Option.not_isSome_iff_eq_none, lastQueryAnswer_isSome_iff hok]
        exact hn
      unfold lastQueryAnswer at hnone
      rw [hnone]
      symm
      apply Replica.at'_eq_nil
      rintro l hl rfl
      exact hn (of_decide_eq_true (List.mem_filter.mp hl).2)

/-! ### A listener of a stream handler -/

/-- Every first part of the messages is what had been sent at some moment. -/
lemma exists_suffix_messages (log : Log Hash) {k : ℕ} (hk : k ≤ (messages log).length) :
    ∃ past, past <:+ log ∧ messages past = (messages log).take k ∧
      (k = (messages log).length → past = log) := by
  induction log with
  | nil => exact ⟨[], List.suffix_refl _, by simp, fun _ => rfl⟩
  | cons e log ih =>
    by_cases hall : k = (messages (e :: log)).length
    · exact ⟨e :: log, List.suffix_refl _, by rw [hall, List.take_length], fun _ => rfl⟩
    · match e with
      | .request _ | .received _ | .checked _ _ =>
        obtain ⟨past, hpast, hmessages, -⟩ := ih hk
        exact ⟨past, hpast.trans (List.suffix_cons _ _), hmessages, fun h => absurd h hall⟩
      | .sent item =>
        rw [messages_sent, List.length_append, List.length_singleton] at hall hk
        obtain ⟨past, hpast, hmessages, -⟩ := ih (by omega)
        refine ⟨past, hpast.trans (List.suffix_cons _ _), ?_, fun h => absurd h ?_⟩
        · rw [messages_sent, List.take_append_of_le_length (by omega), hmessages]
        · rw [messages_sent, List.length_append, List.length_singleton]
          exact hall

namespace StreamHandler

variable {n : ℕ} {setup : StreamHandler n D} {s : StreamState n D} {i : Fin n}

variable (setup) in
/-- A subscriber, when the block-range stream had the log `past`: it has received what was sent up
to then, its replica is in order without duplicates, and if it has seen no error, its replica agrees
with the logs of a chain if and only if the last query for each block held was answered with them.
-/
structure ReplicatesAt (i : Fin n) (past : Log Hash) (s : StreamState n D) : Prop where
  /-- What it has received. -/
  received_eq :
    setup.received s i = kept (outcomesOf (setup.getLogs i) (EventScanner.messages past))
  /-- Its replica is in order. -/
  ordered : (replica (setup.received s i)).Pairwise RpcLog.Before
  /-- When it agrees with a chain. -/
  agrees : (∀ e, .error e ∉ setup.received s i) → ∀ matching : MatchingLogs D,
    replica (setup.received s i) = matching.inHeld past ↔
      ∀ n, Held past n →
        lastQueryAnswer (setup.getLogs i) past n = some (matching.within n n)

variable (setup) in
/-- In every interleaving, every subscriber that has kept its receiver and has not lagged holds a
replica of the stream at some moment, and of the whole stream when nothing more happens. -/
def Replicates (log : Log Hash) : Prop :=
  ∀ s, setup.system.Reach setup.start s → ∀ i, s.Keeps i →
    ∃ past, past <:+ log ∧ setup.ReplicatesAt i past s ∧ (setup.Quiet s → past = log)

variable {log : Log Hash} {start m : ℕ}

/-- What is kept of outcomes has the same errors. -/
lemma error_mem_kept {items : List (EventScannerResult D)} {e : ScannerError} :
    .error e ∈ kept items ↔ .error e ∈ items := by
  unfold kept
  rw [List.mem_filter]
  exact and_iff_left rfl

/-- **A listener of a stream handler is a replica of a stream that follows the rollback
protocol**, if the handler is harmless. -/
theorem replicates (hharmless : setup.Harmless)
    (hstream : setup.messages = EventScanner.messages log)
    (hprotocol : Always (RollsBack start) log) (hfit : RangesFit m log)
    (hanswers : ∀ i, AnsweredInRange (setup.getLogs i)) : setup.Replicates log := by
  intro s hreach i hkeeps
  obtain ⟨k, hk, hreceived, hall⟩ := exists_received hharmless hreach hkeeps
  rw [hstream] at hk hreceived hall
  obtain ⟨past, hpast, hmessages, hend⟩ := exists_suffix_messages log hk
  rw [← hmessages] at hreceived
  have hprotocol := hprotocol.of_suffix hpast
  have hfit : RangesFit m past := Always.of_suffix hfit hpast
  refine ⟨past, hpast, ⟨hreceived, ?_, fun hok matching => ?_⟩, fun hquiet => hend (hall hquiet)⟩
  · rw [hreceived, replica_kept, replica_outcomesOf]
    refine Replica.pairwise_replay (fun l l' => ?_) (always_appends hprotocol hfit (hanswers i))
    exact RpcLog.before_of_number_lt
  · rw [hreceived] at hok ⊢
    rw [replica_kept]
    exact replica_eq_iff hprotocol hfit (hanswers i) (fun e he => hok e (error_mem_kept.mpr he))
      matching

end StreamHandler

/-! ### What a subscriber of a stream holds -/

section HoldsRanges

variable {r : RangeInclusive}

/-- A stream that follows the protocol never stands before its start. -/
lemma start_le_position (hprotocol : Always (RollsBack start) log) (hfit : RangesFit m log) :
    start ≤ position start log := by
  induction log with
  | nil => exact Nat.le_refl _
  | cons e log ih =>
    obtain ⟨he, hprotocol⟩ := hprotocol
    obtain ⟨hsize, hfit⟩ := hfit
    have ih := ih hprotocol hfit
    match e with
    | .sent (.ok (.data r)) =>
      change start ≤ r.stop + 1
      have hstart : r.start = position start log := he.1
      have hle : r.start ≤ r.stop := hsize.1
      omega
    | .sent (.ok (.notification (.reorgDetected a))) => exact Nat.le_max_right _ _
    | .sent (.ok (.notification .switchingToLive)) | .sent (.ok (.notification .noPastLogsFound))
    | .sent (.error _) | .request _ | .received _ | .checked _ _ => exact ih

/-- No block before the start is ever held. -/
lemma start_le_of_held (hprotocol : Always (RollsBack start) log) (hfit : RangesFit m log)
    (h : Held log n) : start ≤ n := by
  induction log with
  | nil => exact absurd h id
  | cons e log ih =>
    obtain ⟨he, hprotocol⟩ := hprotocol
    obtain ⟨-, hfit⟩ := hfit
    have ih := ih hprotocol hfit
    match e with
    | .sent (.ok (.data r)) =>
      rcases h with hin | hpast
      · have hposition := start_le_position hprotocol hfit
        rw [← he.1] at hposition
        exact hposition.trans hin.1
      · exact ih hpast
    | .sent (.ok (.notification (.reorgDetected a))) => exact ih h.2
    | .sent (.ok (.notification .switchingToLive)) | .sent (.ok (.notification .noPastLogsFound))
    | .sent (.error _) | .request _ | .received _ | .checked _ _ => exact ih h

/-- Behind each range a consumer holds exactly the blocks from the start up to its end. -/
def HoldsRanges (start : ℕ) (log : Log Hash) : Prop :=
  ∀ r past, .sent (dataItem r) :: past <:+ log →
    ∀ n, Held (.sent (dataItem r) :: past) n ↔ start ≤ n ∧ n ≤ r.stop

lemma holdsRanges (hprotocol : Always (RollsBack start) log) (hfit : RangesFit m log) :
    HoldsRanges start log := by
  intro r past hpast n
  have hprotocol := hprotocol.of_suffix hpast
  have hfit : RangesFit m (.sent (dataItem r) :: past) := Always.of_suffix hfit hpast
  constructor
  · intro h
    have hlt : n < r.stop + 1 := lt_position_of_held hprotocol hfit h
    exact ⟨start_le_of_held hprotocol hfit h, Nat.le_of_lt_succ hlt⟩
  · rintro ⟨hstart, hstop⟩
    exact hprotocol.1.2 n (Nat.lt_succ_of_le hstop) hstart

/-- A consumer that holds everything up to `k` (exclusively) holds nothing else. -/
lemma held_iff_of_heldUpTo {e : ℕ} (hprotocol : Always (RollsBack start) log)
    (hfit : RangesFit m log) (hheld : HeldUpTo start log (e + 1)) :
    Held log n ↔ start ≤ n ∧ n ≤ e := by
  constructor
  · intro h
    have hlt := lt_position_of_held hprotocol hfit h
    rw [hheld.position_eq] at hlt
    exact ⟨start_le_of_held hprotocol hfit h, Nat.le_of_lt_succ hlt⟩
  · rintro ⟨hstart, hle⟩
    exact hheld.held n (Nat.lt_succ_of_le hle) hstart

end HoldsRanges

/-! ### The sync stream and the historical stream -/

namespace BlockRangeScanner

variable [DecidableEq Hash] (self : BlockRangeScanner Hash) {k : ℕ}

/-- **A subscriber of the sync stream keeps a replica of the matching logs**, whenever the live
phase restarts where it has to: at every moment its logs are in order, and they are those of a
chain if and only if the last query for each block held was answered with them. Behind each range
it holds the blocks from the start up to the end of the range. -/
theorem streamFrom_replicates (sender : Sender) (fuel : ℕ) (subscription : List SubscriptionItem)
    (startId : BlockId Hash) (blockConfirmations : ℕ)
    (hstart : ((getBlockNumberById self.provider startId).run []).1 = some (.ok start))
    (hC : Always (LiveRestartsMatch start)
      ((self.streamFrom sender fuel subscription startId blockConfirmations).run []).2)
    (setup : StreamHandler k D) (hharmless : setup.Harmless)
    (hstream : setup.messages =
      messages ((self.streamFrom sender fuel subscription startId blockConfirmations).run []).2)
    (hanswers : ∀ i, AnsweredInRange (setup.getLogs i)) :
    setup.Replicates
        ((self.streamFrom sender fuel subscription startId blockConfirmations).run []).2 ∧
      HoldsRanges start
        ((self.streamFrom sender fuel subscription startId blockConfirmations).run []).2 := by
  have hfit : RangesFit self.maxBlockRange
      ((self.streamFrom sender fuel subscription startId blockConfirmations).run []).2 :=
    self.rangesFit_streamFrom sender fuel subscription startId blockConfirmations
  have hprotocol : Always (RollsBack start)
      ((self.streamFrom sender fuel subscription startId blockConfirmations).run []).2 := by
    have hnil : HoldsUpTo start start ([.request (.blockNumberById startId)] : Log Hash) :=
      HoldsUpTo.cons ⟨heldUpTo_nil start, trivial⟩ (by simp)
    have hresolved (start' : ℕ) (h : ((getBlockNumberById self.provider startId).run []).1 =
        some (.ok start')) : start' = start := Except.ok.inj (Option.some.inj (h.symm.trans hstart))
    let handler := SyncHandler.new self.provider self.maxBlockRange startId blockConfirmations
      self.pastBlocksStorageCapacity sender
    have hkept : handler.PhasesKeep (HoldsUpTo start) (SyncHandler.Followed start) :=
      handler.phasesKeep_followed
    refine hkept.run fuel subscription ?_ (fun start' h => ?_) (fun start' h => ?_) hC
    · exact fun _ => ⟨trivial, trivial, trivial⟩
    · exact hresolved start' h ▸ hnil
    · obtain rfl := hresolved start' h
      exact (handler.liveConfig start').rollsBack_streamLiveBlocks fuel subscription
        handler.reorgHandler true ((hnil.cons (by simp)).cons (by simp)) rfl
  exact ⟨StreamHandler.replicates hharmless hstream hprotocol hfit hanswers,
    holdsRanges hprotocol hfit⟩

/-- **The historical stream follows the rollback protocol**, and if it comes to its end without an
error, a consumer holds the requested range.

**Proof sketch.** The handler says that the channel is closed only if the run was cut short. -/
lemma streamHistorical_rollsBack (sender : Sender) (fuel : ℕ) {startId endId : BlockId Hash}
    {a b : Block Hash} (ha : self.provider.answer 0 (self.provider.findId 0 startId) = .ok a)
    (hb : self.provider.answer 1 (self.provider.findId 1 endId) = .ok b)
    {result : Option (Except ScannerError Unit)} {log : Log Hash}
    (hrun : (self.streamHistorical sender fuel startId endId).run [] = (result, log)) :
    Always (RollsBack (min a.number b.number)) log ∧
      (result = some (.ok ()) → sender.isOpen log = true → (∀ e, .sent (.error e) ∉ log) →
        HeldUpTo (min a.number b.number) log (max a.number b.number + 1)) := by
  have hnil : HoldsUpTo (min a.number b.number) (min a.number b.number)
      (resolved startId endId) :=
    HoldsUpTo.cons (HoldsUpTo.cons ⟨heldUpTo_nil _, trivial⟩ (by simp)) (by simp)
  rw [self.run_streamHistorical sender fuel [] ha hb] at hrun
  have hle : min a.number b.number ≤ max a.number b.number := min_le_max
  have hends := (self.historicalHandler sender a b).triple_runSync hle fuel _ hnil
  have hshape := (self.historicalHandler sender a b).handle_shape fuel (resolved startId endId)
  unfold HistoricalRangeHandler.runSync at hends
  rcases hhandler : ((self.historicalHandler sender a b).handleStreamHistoricalRange fuel).run
    (resolved startId endId) with ⟨_ | channel, log'⟩
  all_goals rw [hhandler] at hends hshape
  · obtain ⟨rfl, rfl⟩ := Prod.mk.inj ((Proc.run_bind_none hhandler).symm.trans hrun)
    exact ⟨hends, nofun⟩
  · obtain ⟨rfl, rfl⟩ := Prod.mk.inj ((Proc.run_bind_some hhandler).symm.trans hrun)
    cases channel with
    | opened =>
      obtain ⟨hheld, hprotocol⟩ : HoldsUpTo _ _ _ := hends
      exact ⟨hprotocol, fun _ _ _ => hheld⟩
    | closed =>
      refine ⟨hends, fun _ hopen hok => ?_⟩
      have hcut (hcut : CutShort sender log') : False := by
        rcases hcut with ⟨e, he⟩ | hclosed
        · exact hok e he
        · exact absurd (hopen.symm.trans hclosed) (by simp)
      cases hshape with
      | cutShort h => exact (hcut h).elim
      | rest _ hloop =>
        cases hloop with
        | cutShort h => exact (hcut h).elim

/-- **A subscriber of the historical stream keeps a replica of the matching logs**, however often
the end of the range is replaced. If the stream comes to its end without an error, it then holds the
requested range. -/
theorem streamHistorical_replicates (sender : Sender) (fuel : ℕ) (startId endId : BlockId Hash)
    {a b : Block Hash} (ha : self.provider.answer 0 (self.provider.findId 0 startId) = .ok a)
    (hb : self.provider.answer 1 (self.provider.findId 1 endId) = .ok b)
    {result : Option (Except ScannerError Unit)} {log : Log Hash}
    (hrun : (self.streamHistorical sender fuel startId endId).run [] = (result, log))
    (setup : StreamHandler k D) (hharmless : setup.Harmless)
    (hstream : setup.messages = messages log) (hanswers : ∀ i, AnsweredInRange (setup.getLogs i)) :
    setup.Replicates log ∧
      (result = some (.ok ()) → sender.isOpen log = true → (∀ e, .sent (.error e) ∉ log) →
        ∀ n, Held log n ↔ min a.number b.number ≤ n ∧ n ≤ max a.number b.number) := by
  have hfit : RangesFit self.maxBlockRange log := by
    have hall := self.rangesFit_streamHistorical sender fuel startId endId
    rwa [hrun] at hall
  obtain ⟨hprotocol, hheld⟩ := self.streamHistorical_rollsBack sender fuel ha hb hrun
  exact ⟨StreamHandler.replicates hharmless hstream hprotocol hfit hanswers,
    fun hresult hopen hok n => held_iff_of_heldUpTo hprotocol hfit (hheld hresult hopen hok)⟩

/-! ### Logs of a block that is replaced -/

/-- Logs in the blocks `1` and `3`; the content of the second one is given. -/
def logsWith (content : ℕ) : MatchingLogs ℕ where
  logs := [⟨some 1, some 0, 1⟩, ⟨some 3, some 0, content⟩]
  mined := by simp [RpcLog.number]
  ascending := by
    simp only [List.pairwise_cons, List.mem_singleton, forall_eq]
    exact ⟨RpcLog.before_of_number_lt (show 1 < 3 by decide), nofun, List.Pairwise.nil⟩

/-- A listener of a stream. The queries for the first `k` messages are answered from a chain with
the log `3` in block `3`, the others from one with the log `13` there. -/
def replacedLogs (log : Log ℕ) (k : ℕ) : StreamHandler 1 ℕ where
  config := ⟨8, by decide, 1, Nat.one_pos⟩
  getLogs _ j range := (logsWith (if j < k then 3 else 13)).getLogs j range
  messages := messages log
  mayDrop _ := false

lemma replacedLogs_answeredInRange (log : Log ℕ) (k : ℕ) (i : Fin 1) :
    AnsweredInRange ((replacedLogs log k).getLogs i) := by
  rintro j range logs ⟨⟩
  exact MatchingLogs.fetchedFrom range

/-- A scanner over the chain on which block `4` is replaced after the ninth provider call. -/
def syncOverReplaced : BlockRangeScanner ℕ :=
  ⟨SyncHandler.belowLiveStart [1, 2, 3] 3, defaultMaxBlockRange, .infinite⟩

/-- The log of a sync stream from block `1` on. -/
def syncOverReplacedLog : Log ℕ :=
  ((syncOverReplaced.streamFrom ⟨none⟩ 5 [.ok 5, .ok 5] (.number (.number 1)) 1).run []).2

/-- The sync stream sends block `4` twice. -/
theorem streamFrom_replicates_replacedTip :
    .sent (reorgItem 3) ∈ syncOverReplacedLog ∧
      (replacedLogs syncOverReplacedLog 0).Replicates syncOverReplacedLog ∧
      HoldsRanges 1 syncOverReplacedLog :=
  ⟨by decide, syncOverReplaced.streamFrom_replicates ⟨none⟩ 5 [.ok 5, .ok 5] (.number (.number 1)) 1
    rfl (by decide) (replacedLogs syncOverReplacedLog 0) (Or.inl fun _ => rfl) rfl
    (replacedLogs_answeredInRange _ _)⟩

/-- The historical stream sends `2..=3` twice. The last query for each block is answered from the
new chain, and the subscriber holds its logs. -/
theorem streamHistorical_replicates_replacedOnce :
    (replacedLogs replacedOnceLog 3).Replicates replacedOnceLog ∧
      (∀ n, Held replacedOnceLog n ↔ 1 ≤ n ∧ n ≤ 3) ∧
      ∀ n, Held replacedOnceLog n →
        lastQueryAnswer ((replacedLogs replacedOnceLog 3).getLogs 0) replacedOnceLog n =
          some ((logsWith 13).within n n) := by
  have hmessages : messages replacedOnceLog =
      [dataItem ⟨1, 1⟩, dataItem ⟨2, 3⟩, reorgItem 1, dataItem ⟨2, 3⟩] := rfl
  obtain ⟨hreplicates, hheld⟩ := replacedOnce.streamHistorical_replicates ⟨none⟩ 5
    (.number (.number 3)) (.number (.number 1)) (a := ⟨3, 3⟩) (b := ⟨1, 1⟩) rfl rfl rfl
    (replacedLogs replacedOnceLog 3) (Or.inl fun _ => rfl) rfl (replacedLogs_answeredInRange _ _)
  have hall : ∀ n, Held replacedOnceLog n ↔ 1 ≤ n ∧ n ≤ 3 := by
    refine hheld rfl rfl fun e he => ?_
    have hmem : .error e ∈ messages replacedOnceLog := mem_messages.mpr he
    simp [hmessages] at hmem
  refine ⟨hreplicates, hall, fun n hn => ?_⟩
  obtain ⟨hlow, hhigh⟩ := (hall n).mp hn
  obtain rfl | rfl | rfl : n = 1 ∨ n = 2 ∨ n = 3 := by omega
  all_goals rfl

end BlockRangeScanner

end EventScanner
