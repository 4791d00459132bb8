import EventScanner.BlockRangeHandler.Service
import EventScanner.LatestStream.Collect
import Mathlib.Data.List.DropRight

set_option relaxedAutoImplicit false
set_option autoImplicit false

/-!
# The latest of the matching logs

On a chain that does not change, a query for the logs of a range answers with those of one fixed
list that lie in the range. The collecting task takes the ranges of a rewind, which go downwards;
what it has gathered is then the upper end of that list, newest first, and no log is gathered
twice or left out where two ranges meet.

## Main definitions

* `EventScanner.MatchingLogs` — the logs of a chain that match a filter.
* `EventScanner.MatchingLogs.latest` — what the latest-events mode should deliver.
* `EventScanner.gather` — the logs of a list of outcomes, newest first.

## Main results

* `EventScanner.MatchingLogs.gather_ranges` — the ranges of a rewind gather the logs of the whole
  range.
* `EventScanner.CollectingTask.Gathers.process` — what one more range does to the task.
* `EventScanner.CollectingTask.Gathers.sent_finish` — what the task delivers at its end.
-/

namespace EventScanner

variable {D : Type}

/-- The logs of a chain that match the filter of a listener. -/
structure MatchingLogs (D : Type) where
  /-- The logs. -/
  logs : List (RpcLog D)
  /-- No log is pending. -/
  mined : ∀ l ∈ logs, l.blockNumber = some l.number
  /-- The logs are in order. -/
  ascending : logs.Pairwise RpcLog.Before

namespace MatchingLogs

variable (matching : MatchingLogs D)

/-- The logs from the block `low` to the block `high`. -/
def within (low high : ℕ) : List (RpcLog D) :=
  matching.logs.filter fun l => low ≤ l.number ∧ l.number ≤ high

/-- The answers to the log queries. -/
def getLogs : GetLogs D := fun _ range => .ok (matching.within range.start range.stop)

/-- The last `count` logs of a range, or the news that there are none. -/
def latest (count low high : ℕ) : EventScannerResult D :=
  if matching.within low high = [] then .ok (.notification .noPastLogsFound)
  else .ok (.data ((matching.within low high).rtake count))

variable {matching}

/-- What a query returns. -/
lemma fetchedFrom (range : RangeInclusive) :
    FetchedFrom range (matching.within range.start range.stop) where
  mined l hl := by
    obtain ⟨hmem, hin⟩ := List.mem_filter.mp hl
    exact ⟨matching.mined l hmem, of_decide_eq_true hin⟩
  ascending := matching.ascending.filter _

/-- Logs in order are those below a number, followed by the others. -/
lemma filter_lt_append {logs : List (RpcLog D)} (h : logs.Pairwise RpcLog.Before) (k : ℕ) :
    (logs.filter fun l => l.number < k) ++ (logs.filter fun l => k ≤ l.number) = logs := by
  induction logs with
  | nil => rfl
  | cons l rest ih =>
    obtain ⟨hl, hrest⟩ := List.pairwise_cons.mp h
    by_cases hk : l.number < k
    · have := ih hrest
      simp [hk, this]
    · have hall : ∀ l' ∈ l :: rest, k ≤ l'.number := by
        intro l' hl'
        rcases List.mem_cons.mp hl' with rfl | hl'
        · omega
        · have := (hl l' hl').number_le
          omega
      have hnone : (l :: rest).filter (fun l => l.number < k) = [] := by
        rw [List.filter_eq_nil_iff]
        intro l' hl'
        have := hall l' hl'
        simpa using this
      rw [hnone, List.nil_append, List.filter_eq_self.mpr (by simpa using hall)]

/-- A range is cut in two. -/
lemma within_append {low high k : ℕ} (hlow : low < k) (hhigh : k ≤ high) :
    matching.within low (k - 1) ++ matching.within k high = matching.within low high := by
  have hcut := congrArg (List.filter fun l => decide (low ≤ l.number ∧ l.number ≤ high))
    (filter_lt_append matching.ascending k)
  rw [List.filter_append, List.filter_filter, List.filter_filter] at hcut
  unfold within
  rw [← hcut]
  congr 1 <;>
  · refine List.filter_congr fun l _ => ?_
    rw [Bool.eq_iff_iff]
    simp only [decide_eq_true_eq, Bool.and_eq_true]
    omega

end MatchingLogs

/-! ### What the ranges of a rewind gather -/

/-- The logs of an outcome, newest first. -/
def gathered : EventScannerResult D → List (RpcLog D)
  | .ok (.data logs) => logs.reverse
  | .ok (.notification _) | .error _ => []

/-- The logs of a list of outcomes, newest first if the outcomes go downwards. -/
def gather (outcomes : List (EventScannerResult D)) : List (RpcLog D) := outcomes.flatMap gathered

lemma gather_append (outcomes outcomes' : List (EventScannerResult D)) :
    gather (outcomes ++ outcomes') = gather outcomes ++ gather outcomes' :=
  List.flatMap_append

namespace MatchingLogs

variable {matching : MatchingLogs D}

variable (matching) in
/-- The outcomes of ranges. -/
lemma outcomesOf_ranges (ranges : List RangeInclusive) :
    outcomesOf matching.getLogs (ranges.map dataItem) =
      ranges.map fun range => .ok (.data (matching.within range.start range.stop)) := by
  induction ranges using List.reverseRecOn with
  | nil => rfl
  | append_singleton ranges range ih =>
    rw [List.map_append, List.map_singleton, outcomesOf_concat, ih, List.map_append]
    rfl

/-- The outcome of a range. -/
lemma exists_of_mem_outcomesOf {ranges : List RangeInclusive} {messages : List BlockScannerResult}
    {result : EventScannerResult D} (hmessages : messages <+: ranges.map dataItem)
    (h : result ∈ outcomesOf matching.getLogs messages) :
    ∃ range : RangeInclusive, result = .ok (.data (matching.within range.start range.stop)) := by
  have hmem := (outcomesOf_isPrefix matching.getLogs hmessages).subset h
  rw [outcomesOf_ranges] at hmem
  obtain ⟨range, -, rfl⟩ := List.mem_map.mp hmem
  exact ⟨range, rfl⟩

variable (matching) in
/-- **The ranges of a rewind gather the logs of the whole range.**

**Proof sketch.** Induction on the ranges: the first one is the upper end of the range, and its logs
are the last ones. -/
lemma gather_ranges {m low high : ℕ} {ranges : List RangeInclusive}
    (h : RangeInclusive.RevChunks m high low ranges) :
    gather (outcomesOf matching.getLogs (ranges.map dataItem)) =
      (matching.within low high).reverse := by
  rw [outcomesOf_ranges]
  induction ranges generalizing high with
  | nil =>
    have hlt : high < low := h
    have hnone : matching.within low high = [] := by
      unfold within
      rw [List.filter_eq_nil_iff]
      intro l _
      simp only [decide_eq_true_eq, not_and, not_le]
      omega
    rw [hnone]
    rfl
  | cons range ranges ih =>
    obtain ⟨hle, hrange, hrest⟩ := h
    have hstop : range.stop = high := by rw [hrange]
    have hstart : low ≤ range.start ∧ range.start ≤ high := by
      rw [hrange]
      dsimp only
      omega
    have hfirst : gather ((range :: ranges).map fun range =>
        .ok (.data (matching.within range.start range.stop))) =
          (matching.within range.start range.stop).reverse ++ gather (ranges.map fun range =>
            .ok (.data (matching.within range.start range.stop))) := List.flatMap_cons
    rw [hfirst, hstop]
    split_ifs at hrest with hend
    · subst hrest
      rw [hend]
      exact List.append_nil _
    · rw [ih hrest, ← List.reverse_append, within_append (by omega) hstart.2]

end MatchingLogs

lemma gather_isPrefix {outcomes outcomes' : List (EventScannerResult D)}
    (h : outcomes <+: outcomes') : gather outcomes <+: gather outcomes' := by
  obtain ⟨rest, rfl⟩ := h
  rw [gather_append]
  exact List.prefix_append _ _

/-! ### The task behind the ranges of a rewind -/

namespace CollectingTask

variable {count low high : ℕ} {listening : List (EventScannerResult D) → Bool}
  {t : CollectingTask D} {outcomes : List (EventScannerResult D)}

/-- The task has gathered the logs of the outcomes, up to `count`, and has sent nothing. -/
def Gathers (count : ℕ) (outcomes : List (EventScannerResult D)) (t : CollectingTask D) : Prop :=
  t.sent = [] ∧ t.phase = settle count (gather outcomes) none

/-- A task whose buffer can be allocated gets into its loop. -/
lemma status_new (hfits : AllocatesLogs count) :
    (latestTask count).status (new count : CollectingTask D) = .looping := by
  rw [new_of_allocatesLogs hfits]
  rfl

/-- Before the first result it has gathered nothing. -/
lemma gathers_new (hcount : 0 < count) (hfits : AllocatesLogs count) :
    (new count : CollectingTask D).Gathers count [] := by
  rw [new_of_allocatesLogs hfits]
  exact ⟨rfl, (if_neg (Nat.not_le.mpr hcount)).symm⟩

/-- A task in its loop has room for more logs. -/
lemma Gathers.of_looping (h : t.Gathers count outcomes)
    (hlooping : (latestTask count).status t = .looping) :
    (gather outcomes).length < count ∧ t.phase = .collecting (gather outcomes) none := by
  have hphase := h.2
  unfold settle at hphase
  split_ifs at hphase with hfull
  · unfold latestTask at hlooping
    simp [hphase] at hlooping
  · exact ⟨Nat.lt_of_not_le hfull, hphase⟩

/-- A task behind its loop has gathered enough. -/
lemma Gathers.of_behindLoop (h : t.Gathers count outcomes)
    (hbehind : (latestTask count).status t = .behindLoop) :
    count ≤ (gather outcomes).length ∧ t.phase = .complete ((gather outcomes).take count) := by
  have hphase := h.2
  unfold settle at hphase
  split_ifs at hphase with hfull
  · exact ⟨hfull, hphase⟩
  · unfold latestTask at hbehind
    simp [hphase] at hbehind

/-- A task that has gathered enough is behind its loop. -/
lemma Gathers.behindLoop (h : t.Gathers count outcomes) (hfull : count ≤ (gather outcomes).length) :
    (latestTask count).status t = .behindLoop := by
  have hphase := h.2
  unfold settle at hphase
  rw [if_pos hfull] at hphase
  unfold latestTask
  simp only [hphase]

/-- The task has not returned. -/
lemma Gathers.status_ne_over (h : t.Gathers count outcomes) :
    (latestTask count).status t ≠ .over := by
  have hphase := h.2
  unfold settle at hphase
  unfold latestTask
  split_ifs at hphase <;> simp [hphase]

variable (listening) in
/-- **What one more range does to the task.** -/
lemma Gathers.process {range : RangeInclusive} {logs : List (RpcLog D)}
    (h : t.Gathers count outcomes) (hlooping : (latestTask count).status t = .looping)
    (hlogs : FetchedFrom range logs) :
    (t.process count listening (.ok (.data logs))).Gathers count
      (outcomes ++ [.ok (.data logs)]) := by
  obtain ⟨hlen, hphase⟩ := h.of_looping hlooping
  obtain ⟨ancestor, hancestor, hafter⟩ := phase_process_append listening hphase hlen hlogs nofun
  refine ⟨(sent_process_data t logs).trans h.1, ?_⟩
  rw [hafter, gather_append, or_self_iff.mp hancestor]
  congr 1
  exact (congrArg _ (List.append_nil _)).symm

/-- **What the task delivers** when it has gathered enough, or everything. -/
lemma Gathers.sent_finish {matching : MatchingLogs D} (h : t.Gathers count outcomes)
    (hcount : 0 < count) (hfirst : gather outcomes <+: (matching.within low high).reverse)
    (hend : (latestTask count).status t = .behindLoop ∨ (latestTask count).status t = .looping ∧
      gather outcomes = (matching.within low high).reverse) :
    (t.finish fun _ => true).sent = [matching.latest count low high] := by
  have hdeliver (collected : List (RpcLog D))
      (hcollected : collected = (matching.within low high).reverse.take count) :
      (t.deliver (fun _ => true) collected).sent = [matching.latest count low high] := by
    have hempty : collected = [] ↔ matching.within low high = [] := by
      rw [hcollected, List.take_eq_nil_iff, List.reverse_eq_nil_iff]
      exact or_iff_right hcount.ne'
    unfold deliver trySend MatchingLogs.latest
    rw [List.rtake_eq_reverse_take_reverse, ← hcollected]
    simp only [List.isEmpty_iff, hempty, h.1, if_true]
    split_ifs <;> rfl
  unfold finish
  rcases hend with hbehind | ⟨hlooping, hall⟩
  · obtain ⟨hfull, hphase⟩ := h.of_behindLoop hbehind
    rw [hphase]
    obtain ⟨rest, hrest⟩ := hfirst
    exact hdeliver _ (by rw [← hrest, List.take_append_of_le_length hfull])
  · obtain ⟨hlen, hphase⟩ := h.of_looping hlooping
    rw [hphase]
    exact hdeliver _ (by rw [← hall, List.take_of_length_le hlen.le])

end CollectingTask

end EventScanner
