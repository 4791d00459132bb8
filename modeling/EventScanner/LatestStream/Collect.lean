import EventScanner.BlockRangeHandler.LatestEvents
import EventScanner.BlockRangeScanner.RewindHandler
import EventScanner.LiveStream.History

set_option relaxedAutoImplicit false
set_option autoImplicit false

/-!
# The collecting task behind a block-range stream

The collecting task takes the messages of a block-range stream in the order in which they were
sent. This file ties the task to the log of the stream, orders logs by block number and index,
and says what a log query may answer.

## Main definitions

* `EventScanner.CollectingTask.after` — the task that has taken all messages of a stream.
* `EventScanner.RpcLog.Before` — the order of logs.
* `EventScanner.FetchedFrom` — what the provider answers to a query for the logs of a range.
* `EventScanner.CollectingTask.delivered` — what the task delivers.
-/

namespace EventScanner

open HashChain

variable {Hash D : Type}

/-! ### Logs in order -/

namespace RpcLog

/-- The block number of a log that is not pending. -/
def number (log : RpcLog D) : ℕ := log.blockNumber.getD 0

/-- The position in its block of a log that is not pending. -/
def index (log : RpcLog D) : ℕ := log.logIndex.getD 0

/-- The log is older: it is in a lower block, or further up in the same block. -/
def Before (l l' : RpcLog D) : Prop :=
  l.number < l'.number ∨ l.number = l'.number ∧ l.index < l'.index

instance (l l' : RpcLog D) : Decidable (l.Before l') :=
  inferInstanceAs (Decidable (l.number < l'.number ∨ l.number = l'.number ∧ l.index < l'.index))

variable {l l' l'' : RpcLog D}

lemma Before.trans (h : l.Before l') (h' : l'.Before l'') : l.Before l'' := by
  unfold Before at *
  omega

lemma not_before_self (l : RpcLog D) : ¬l.Before l := by
  unfold Before
  omega

lemma Before.number_le (h : l.Before l') : l.number ≤ l'.number := by
  unfold Before at h
  omega

lemma before_of_number_lt (h : l.number < l'.number) : l.Before l' := Or.inl h

end RpcLog

/-- The logs of a range as a query returns them: mined, in blocks of the range, and in order. -/
structure FetchedFrom (range : RangeInclusive) (logs : List (RpcLog D)) : Prop where
  /-- No log is pending, and each one is in the range. -/
  mined : ∀ l ∈ logs, l.blockNumber = some l.number ∧ range.Contains l.number
  /-- The logs are in order. -/
  ascending : logs.Pairwise RpcLog.Before

/-- A buffer newest first, without pending logs. -/
structure Newest (collected : List (RpcLog D)) : Prop where
  /-- No log is pending. -/
  mined : ∀ l ∈ collected, l.blockNumber = some l.number
  /-- Newer logs come first. -/
  descending : collected.Pairwise fun l l' => l'.Before l

section Buffer

variable {collected logs : List (RpcLog D)} {range : RangeInclusive}

lemma newest_nil : Newest ([] : List (RpcLog D)) := ⟨by simp, List.Pairwise.nil⟩

lemma Newest.sublist {collected' : List (RpcLog D)} (h : Newest collected)
    (hs : collected'.Sublist collected) : Newest collected' :=
  ⟨fun l hl => h.mined l (hs.subset hl), h.descending.sublist hs⟩

/-- Newer logs may stand before a buffer. -/
lemma Newest.append {newer : List (RpcLog D)} (hn : Newest newer) (h : Newest collected)
    (hlt : ∀ l ∈ newer, ∀ l' ∈ collected, l'.number < l.number) : Newest (newer ++ collected) where
  mined l hl := (List.mem_append.mp hl).elim (hn.mined l) (h.mined l)
  descending := List.pairwise_append.mpr ⟨hn.descending, h.descending,
    fun l hl l' hl' => RpcLog.before_of_number_lt (hlt l hl l' hl')⟩

/-- What a query returns, newest first. -/
lemma FetchedFrom.newest (h : FetchedFrom range logs) : Newest logs.reverse where
  mined l hl := (h.mined l (List.mem_reverse.mp hl)).1
  descending := List.pairwise_reverse.mpr h.ascending

/-- Discarding the logs from orphaned blocks keeps the logs up to the common ancestor.

**Proof sketch.** Induction on the buffer: behind the first log that is not above the ancestor
there are only older ones. -/
lemma discardLogsFromOrphanedBlocks_eq (h : Newest collected) (a : ℕ) :
    discardLogsFromOrphanedBlocks collected a = collected.filter fun l => l.number ≤ a := by
  unfold discardLogsFromOrphanedBlocks
  induction collected with
  | nil => rfl
  | cons l rest ih =>
    have hl := h.mined l List.mem_cons_self
    by_cases ha : l.number ≤ a
    · have hall : ∀ l' ∈ l :: rest, l'.number ≤ a := by
        intro l' hl'
        rcases List.mem_cons.mp hl' with rfl | hl'
        · exact ha
        · have := ((List.pairwise_cons.mp h.descending).1 l' hl').number_le
          omega
      rw [List.dropWhile_cons_of_neg (by simpa [hl] using ha),
        List.filter_eq_self.mpr (by simpa using hall)]
    · rw [List.dropWhile_cons_of_pos (by simpa [hl] using ha),
        List.filter_cons_of_neg (by simpa using ha)]
      exact ih (h.sublist (List.sublist_cons_self l rest))

/-- Collecting logs leaves at most `count` of them. -/
lemma length_collectLogs_le {T : Type} {collected : List T} {count : ℕ}
    (h : collected.length ≤ count) (logs : List T) (prepend : Bool) :
    (collectLogs collected logs count prepend).1.length ≤ count := by
  unfold collectLogs
  dsimp only
  split_ifs
  · simp only [List.length_append, List.length_take, List.length_reverse]
    omega
  · exact h
  · simp only [List.length_append, List.length_take, List.length_reverse]
    omega

/-- Collecting logs into a buffer with room: the newest `count` logs of both are kept, and the
buffer is complete if there are that many. -/
lemma collectLogs_eq {T : Type} {collected : List T} {count : ℕ} (h : collected.length < count)
    (logs : List T) (prepend : Bool) :
    collectLogs collected logs count prepend =
      let all := if prepend then logs.reverse ++ collected else collected ++ logs.reverse
      (all.take count, decide (count ≤ all.length)) := by
  unfold collectLogs
  cases prepend with
  | true =>
    have htake : (logs.reverse ++ collected).take count =
        logs.reverse.take count ++
          collected.take (count - (logs.reverse.take count).length) := by
      rw [List.take_append, List.length_take]
      congr 2
      omega
    simp only [if_true, Prod.mk.injEq, htake, true_and, ge_iff_le, decide_eq_decide,
      List.length_append, List.length_take, List.length_reverse]
    omega
  | false =>
    have htake : (collected ++ logs.reverse).take count =
        collected ++ logs.reverse.take (count - collected.length) := by
      rw [List.take_append, List.take_of_length_le (by omega)]
    rw [if_neg (by simp), if_neg (by omega)]
    simp only [Bool.false_eq_true, if_false, Prod.mk.injEq, htake, true_and, ge_iff_le,
      decide_eq_decide, List.length_append, List.length_take, List.length_reverse]
    omega

end Buffer

/-! ### The task behind a stream -/

namespace CollectingTask

variable (count : ℕ) (listening : List (EventScannerResult D) → Bool) (getLogs : GetLogs D)

/-- The collecting task that has taken all messages of a stream. -/
def after (log : Log Hash) : CollectingTask D :=
  ((messages log).mapIdx fun i => fetchResult (getLogs i)).foldl (process count listening)
    (new count)

/-- The task takes one more message. -/
lemma after_sent (item : BlockScannerResult) (log : Log Hash) :
    after count listening getLogs (.sent item :: log) =
      (after count listening getLogs log).process count listening
        (fetchResult (getLogs (messages log).length) item) := by
  unfold after
  rw [messages_sent, List.mapIdx_concat, List.foldl_concat]

/-- The items the listener has received when the task has ended behind a stream. -/
def delivered (log : Log Hash) : List (EventScannerResult D) :=
  ((after count listening getLogs log).finish listening).sent

/-- The task has sent no logs so far. -/
def Collects (t : CollectingTask D) : Prop := ∀ logs, .ok (.data logs) ∉ t.sent

variable {count listening getLogs} {t : CollectingTask D}

/-- Sending something else than logs. -/
lemma Collects.trySend {item : EventScannerResult D} (h : t.Collects)
    (hitem : ∀ logs, item ≠ .ok (.data logs)) : (t.trySend listening item).Collects := by
  unfold CollectingTask.trySend
  split_ifs
  · intro logs hmem
    rcases List.mem_cons.mp hmem with heq | hmem
    · exact hitem logs heq.symm
    · exact h logs hmem
  · exact h

/-- Inside its loop the task sends no logs. -/
lemma Collects.process (h : t.Collects) (result : EventScannerResult D) :
    (t.process count listening result).Collects := by
  unfold CollectingTask.process
  split
  · split
    · split
      · exact h
      · split
        · exact h
        · dsimp only
          split_ifs <;> exact h
    · exact h
    · exact h.trySend (by simp)
    · exact h.trySend (by simp)
  all_goals exact h

variable (count listening getLogs) in
/-- The task sends no logs before its end. -/
lemma collects_after (log : Log Hash) : (after count listening getLogs log).Collects := by
  unfold after
  generalize (messages log).mapIdx _ = results
  induction results using List.reverseRecOn with
  | nil => simp [Collects]
  | append_singleton results result ih =>
    rw [List.foldl_concat]
    exact ih.process result

/-- The logs that are delivered at the end are those in the buffer, oldest first. -/
lemma mem_delivered {log : Log Hash} {logs : List (RpcLog D)}
    (h : .ok (.data logs) ∈ delivered count listening getLogs log) :
    ∃ collected, logs = collected.reverse ∧ collected ≠ [] ∧
      ((∃ a, (after count listening getLogs log).phase = .collecting collected a) ∨
        (after count listening getLogs log).phase = .complete collected) := by
  have hcol := collects_after count listening getLogs log
  unfold delivered finish at h
  have hdeliver {collected : List (RpcLog D)}
      (h : .ok (.data logs) ∈
        ((after count listening getLogs log).deliver listening collected).sent) :
      logs = collected.reverse ∧ collected ≠ [] := by
    unfold deliver at h
    split_ifs at h with hempty
    · exact absurd h (hcol.trySend (by simp) logs)
    · unfold CollectingTask.trySend at h
      split_ifs at h
      · rcases List.mem_cons.mp h with heq | h
        · simp only [Except.ok.injEq, ScannerMessage.data.injEq] at heq
          exact ⟨heq, by simpa using hempty⟩
        · exact absurd h (hcol logs)
      · exact absurd h (hcol logs)
  split at h
  · next collected a hphase =>
    obtain ⟨heq, hne⟩ := hdeliver h
    exact ⟨collected, heq, hne, Or.inl ⟨a, hphase⟩⟩
  · next collected hphase =>
    obtain ⟨heq, hne⟩ := hdeliver h
    exact ⟨collected, heq, hne, Or.inr hphase⟩
  all_goals exact absurd h (hcol logs)

/-! ### What a range does to the buffer -/

/-- Where the task stands when its buffer has become `all`. -/
def settle (count : ℕ) (all : List (RpcLog D)) (reorgAncestor : Option ℕ) : CollectingPhase D :=
  if count ≤ all.length then .complete (all.take count) else .collecting all reorgAncestor

section Process

variable {collected logs : List (RpcLog D)} {range : RangeInclusive} {reorgAncestor : Option ℕ}

lemma phase_process_nil (h : t.phase = .collecting collected reorgAncestor) :
    t.process count listening (.ok (.data [])) = t := by
  unfold process
  rw [h]
  rfl

/-- The last log of a range decides whether the reorg recovery is over; then the logs are
collected. -/
lemma phase_process_data (h : t.phase = .collecting collected reorgAncestor)
    (hlen : collected.length < count) (hlogs : FetchedFrom range logs) (hne : logs ≠ []) :
    (t.process count listening (.ok (.data logs))).phase =
      let ancestor := reorgAncestor.filter fun a => (logs.getLast hne).number > a
      settle count (if ancestor.isSome then logs.reverse ++ collected
        else collected ++ logs.reverse) ancestor := by
  have hlast := (hlogs.mined _ (List.getLast_mem hne)).1
  unfold process settle
  simp only [h, List.getLast?_eq_some_getLast hne, hlast, collectLogs_eq hlen, decide_eq_true_eq]
  split_ifs with h₁ h₂ <;> first | rfl | (rw [List.take_of_length_le (by omega)])

/-- Logs from above the ancestor of a reorg being rescanned go to the front. -/
lemma phase_process_prepend {a : ℕ} (h : t.phase = .collecting collected (some a))
    (hlen : collected.length < count) (hlogs : FetchedFrom range logs) (ha : a < range.start) :
    (t.process count listening (.ok (.data logs))).phase =
      settle count (logs.reverse ++ collected) (some a) := by
  by_cases hne : logs = []
  · subst hne
    rw [phase_process_nil h, h]
    unfold settle
    rw [if_neg (by simpa using hlen)]
    rfl
  · have hlast := (hlogs.mined _ (List.getLast_mem hne)).2.1
    have hfilter : (some a).filter (fun a => (logs.getLast hne).number > a) = some a := by
      simp only [Option.filter_some, gt_iff_lt, decide_eq_true_eq, ite_eq_left_iff, not_lt]
      omega
    rw [phase_process_data h hlen hlogs hne]
    dsimp only
    rw [hfilter]
    rfl

variable (listening) in
/-- Logs that are not above such an ancestor go to the end. -/
lemma phase_process_append (h : t.phase = .collecting collected reorgAncestor)
    (hlen : collected.length < count) (hlogs : FetchedFrom range logs)
    (ha : ∀ a ∈ reorgAncestor, range.stop ≤ a) :
    ∃ ancestor, (ancestor = none ∨ ancestor = reorgAncestor) ∧
      (t.process count listening (.ok (.data logs))).phase =
        settle count (collected ++ logs.reverse) ancestor := by
  by_cases hne : logs = []
  · subst hne
    refine ⟨reorgAncestor, Or.inr rfl, ?_⟩
    rw [phase_process_nil h, h]
    unfold settle
    rw [List.reverse_nil, List.append_nil, if_neg (by omega)]
  · have hlast := (hlogs.mined _ (List.getLast_mem hne)).2.2
    have hfilter : reorgAncestor.filter (fun a => (logs.getLast hne).number > a) = none := by
      rw [Option.filter_eq_none_iff]
      intro a hmem
      have := ha a hmem
      simp only [gt_iff_lt, decide_eq_true_eq, not_lt]
      omega
    refine ⟨none, Or.inl rfl, ?_⟩
    rw [phase_process_data h hlen hlogs hne]
    dsimp only
    rw [hfilter]
    rfl

/-- A reorg: the logs above the ancestor are dropped. -/
lemma phase_process_reorg (h : t.phase = .collecting collected reorgAncestor)
    (hc : Newest collected) (a : ℕ) :
    (t.process count listening (.ok (.notification (.reorgDetected a)))).phase =
      .collecting (collected.filter fun l => l.number ≤ a) (some a) := by
  unfold process
  simp only [h, discardLogsFromOrphanedBlocks_eq hc]

/-- Behind its loop the task takes no message. -/
lemma process_eq_self (h : ∀ collected a, t.phase ≠ .collecting collected a)
    (result : EventScannerResult D) : t.process count listening result = t := by
  unfold process
  split
  · next hphase => exact absurd hphase (h _ _)
  all_goals rfl

end Process

end CollectingTask

end EventScanner
