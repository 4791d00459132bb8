import EventScanner.BlockRangeScanner.RewindRun
import EventScanner.LatestStream.Collect

set_option relaxedAutoImplicit false
set_option autoImplicit false

/-!
# The latest logs are delivered in chronological order

The rewind sends ranges downwards, and behind a reorg upwards; the collecting task puts the logs
of a range behind or before those it has. The result is in order, as long as the blocks that are
sent again behind a reorg adjoin those the rewind has already reached: a reorg that goes back
further makes it send blocks that the rewind visits once more.

## Main definitions

* `EventScanner.RescansAdjoin` — the condition on the reorgs.
* `EventScanner.CollectingTask.InOrder`, `EventScanner.CollectingTask.Orderly` — the invariant.

## Main results

* `EventScanner.CollectingTask.delivered_chronological` — what is delivered is in order, in every
  run that meets the condition.
* `EventScanner.CollectingTask.not_chronological_deepReorg` — a run that delivers a log twice.
-/

namespace EventScanner

open HashChain EventLog

variable {Hash R D : Type}

/-- A reorg that is reported behind a range goes back to the block before the range at most,
unless the range is the last one of a rewind down to `toBlock`. -/
def RescansAdjoin (toBlock : ℕ) : Event Hash → Log Hash → Prop
  | .sent (.ok (.notification (.reorgDetected a))), past =>
    ∀ r ∈ (sentRanges past).head?, r.start ≤ a + 1 ∨ r.start = toBlock
  | _, _ => True

instance (toBlock : ℕ) (e : Event Hash) (past : Log Hash) :
    Decidable (RescansAdjoin toBlock e past) :=
  match e with
  | .sent (.ok (.notification (.reorgDetected a))) =>
    inferInstanceAs (Decidable (∀ r ∈ (sentRanges past).head?, r.start ≤ a + 1 ∨ r.start = toBlock))
  | .sent (.ok (.data _)) | .sent (.ok (.notification .switchingToLive))
  | .sent (.ok (.notification .noPastLogsFound)) | .sent (.error _) | .request _ | .received _
  | .checked _ _ => .isTrue trivial

/-- A reorg that meets the condition adjoins the blocks reached by the rewind, if it goes on. -/
lemma RangesLeft.reached_le {m toBlock reached a : ℕ} {r : RangeInclusive}
    {ranges : List RangeInclusive} {log : Log Hash} (h : RangesLeft m toBlock reached ranges)
    (hC : RescansAdjoin toBlock (.sent (reorgItem a)) log)
    (hhead : (sentRanges log).head? = some r) (hr : r.start = reached) (hne : ranges ≠ []) :
    reached ≤ a + 1 := by
  have hlast := h.lt hne
  have hcond := hC r hhead
  omega

namespace CollectingTask

variable {count low a next : ℕ} {listening : List (EventScannerResult D) → Bool}
  {t : CollectingTask D} {logs : List (RpcLog D)} {range : RangeInclusive}
  {P Q : List (RpcLog D) → Option ℕ → Prop}

/-! ### What a message does to the order -/

/-- The buffer is in order; as long as it is not complete, it and the ancestor of a reorg being
rescanned satisfy `P`. -/
def InOrder (count : ℕ) (P : List (RpcLog D) → Option ℕ → Prop) (t : CollectingTask D) : Prop :=
  match t.phase with
  | .collecting collected reorgAncestor =>
    collected.length < count ∧ Newest collected ∧ P collected reorgAncestor
  | .complete collected => Newest collected
  | .overflowing | .returned | .panicked => True

lemma InOrder.collecting {collected : List (RpcLog D)} {reorgAncestor : Option ℕ}
    (h : InOrder count P t) (hphase : t.phase = .collecting collected reorgAncestor) :
    collected.length < count ∧ Newest collected ∧ P collected reorgAncestor := by
  simpa only [InOrder, hphase] using h

/-- Before the first message the buffer is in order. -/
lemma inOrder_new (hcount : 1 ≤ count) (hP : P [] none) : InOrder count P (new count) := by
  by_cases hfits : AllocatesLogs count
  · rw [new_of_allocatesLogs hfits]
    exact ⟨hcount, newest_nil, hP⟩
  · rw [new_of_not_allocatesLogs hfits]
    trivial

lemma InOrder.mono (h : InOrder count P t) (hPQ : ∀ collected ancestor, P collected ancestor →
    Q collected ancestor) : InOrder count Q t := by
  unfold InOrder at *
  split at h
  · exact ⟨h.1, h.2.1, hPQ _ _ h.2.2⟩
  · exact h
  all_goals trivial

/-- A message keeps the order when it turns a buffer that satisfies `P` into one in order that
satisfies `Q`. -/
lemma InOrder.process {result : EventScannerResult D} (h : InOrder count P t)
    (hstep : ∀ collected ancestor, t.phase = .collecting collected ancestor →
      collected.length < count → Newest collected → P collected ancestor →
      ∃ all ancestor', (t.process count listening result).phase = settle count all ancestor' ∧
        Newest all ∧ Q all ancestor') : InOrder count Q (t.process count listening result) := by
  cases hphase : t.phase with
  | collecting collected ancestor =>
    obtain ⟨hlen, hnew, hP⟩ := h.collecting hphase
    obtain ⟨all, ancestor', hphase', hall, hQ⟩ := hstep collected ancestor hphase hlen hnew hP
    simp only [InOrder, hphase', settle]
    split_ifs with hfull
    · exact hall.sublist (List.take_sublist _ _)
    · exact ⟨Nat.lt_of_not_le hfull, hall, hQ⟩
  | overflowing | complete collected | returned | panicked =>
    rw [process_eq_self (by simp [hphase])]
    simp only [InOrder, hphase] at h ⊢
    try exact h

/-- Sending an item changes nothing in the buffer. -/
lemma InOrder.trySend (h : InOrder count P t) (item : EventScannerResult D) :
    InOrder count P (t.trySend listening item) := by
  unfold CollectingTask.trySend
  split_ifs
  · exact h
  · trivial

/-- A result that is just forwarded to the listener changes nothing in the buffer. -/
lemma InOrder.forward (h : InOrder count P t) {result : EventScannerResult D}
    (hsend : ∀ collected ancestor, t.phase = .collecting collected ancestor →
      t.process count listening result = t.trySend listening result) :
    InOrder count P (t.process count listening result) := by
  cases hphase : t.phase with
  | collecting collected ancestor =>
    rw [hsend collected ancestor hphase]
    exact h.trySend _
  | overflowing | complete collected | returned | panicked =>
    rw [process_eq_self (by simp [hphase])]
    exact h

/-- While the stream goes down, the buffer has nothing from below `low`, and a reorg being
rescanned goes back to the block before `low` at most. -/
def AtLeast (low : ℕ) (collected : List (RpcLog D)) (reorgAncestor : Option ℕ) : Prop :=
  (∀ l ∈ collected, low ≤ l.number) ∧ ∀ a ∈ reorgAncestor, low ≤ a + 1

/-- While the blocks behind the ancestor `a` are sent again, up to `next` (exclusively) so far, the
buffer has nothing from `next` on. If the stream goes on down behind that, the buffer has nothing
from below `low`, and the ancestor is the block before `low` or higher. -/
def Within (low a next : ℕ) (goesOn : Prop) (collected : List (RpcLog D))
    (reorgAncestor : Option ℕ) : Prop :=
  (∀ l ∈ collected, l.number < next) ∧ reorgAncestor = some a ∧
    (goesOn → low ≤ a + 1 ∧ ∀ l ∈ collected, low ≤ l.number)

/-- A range below everything collected is put at the end. -/
lemma InOrder.rewind (h : InOrder count (AtLeast low) t) (hlogs : FetchedFrom range logs)
    (hle : range.start ≤ range.stop) (hstop : range.stop < low) :
    InOrder count (AtLeast range.start) (t.process count listening (.ok (.data logs))) := by
  refine h.process fun collected ancestor hphase hlen hnew ⟨hlow, hanc⟩ => ?_
  obtain ⟨ancestor', hanc', hphase'⟩ := phase_process_append listening hphase hlen
    hlogs (fun a ha => Nat.le_of_lt_succ (Nat.lt_of_lt_of_le hstop (hanc a ha)))
  refine ⟨_, ancestor', hphase', ?_, ?_, ?_⟩
  · refine hnew.append hlogs.newest fun l hl l' hl' => ?_
    have := hlow l hl
    have := (hlogs.mined l' (List.mem_reverse.mp hl')).2.2
    omega
  · intro l hl
    rcases List.mem_append.mp hl with hl | hl
    · have := hlow l hl
      omega
    · exact (hlogs.mined l (List.mem_reverse.mp hl)).2.1
  · rcases hanc' with rfl | rfl
    · simp
    · intro a ha
      have := hanc a ha
      omega

/-- A reorg takes the buffer back to the ancestor. -/
lemma InOrder.reorg (h : InOrder count (AtLeast low) t) (a : ℕ) {goesOn : Prop}
    (ha : goesOn → low ≤ a + 1) :
    InOrder count (Within low a (a + 1) goesOn)
      (t.process count listening (.ok (.notification (.reorgDetected a)))) := by
  refine h.process fun collected ancestor hphase hlen hnew ⟨hlow, _⟩ => ?_
  have hkept := List.length_filter_le (fun l : RpcLog D => l.number ≤ a) collected
  refine ⟨collected.filter fun l => l.number ≤ a, some a, ?_,
    hnew.sublist List.filter_sublist, ?_, rfl, fun hgo => ⟨ha hgo, ?_⟩⟩
  · rw [phase_process_reorg hphase hnew, settle, if_neg (by omega)]
  · intro l hl
    have hla : l.number ≤ a := by simpa using (List.mem_filter.mp hl).2
    exact Nat.lt_succ_of_le hla
  · intro l hl
    exact hlow l (List.mem_filter.mp hl).1

/-- A range that is sent again is put in front. -/
lemma InOrder.rescan {goesOn : Prop} (h : InOrder count (Within low a next goesOn) t)
    (hlogs : FetchedFrom range logs) (ha : a < next) (hnext : next = range.start)
    (hle : range.start ≤ range.stop) :
    InOrder count (Within low a (range.stop + 1) goesOn)
      (t.process count listening (.ok (.data logs))) := by
  refine h.process fun collected ancestor hphase hlen hnew hP => ?_
  obtain ⟨hin, rfl, hgo⟩ := hP
  refine ⟨_, some a, phase_process_prepend hphase hlen hlogs (hnext ▸ ha), ?_, ?_, rfl,
    fun hgoesOn => ⟨(hgo hgoesOn).1, ?_⟩⟩
  · refine hlogs.newest.append hnew fun l hl l' hl' => ?_
    have := (hlogs.mined l (List.mem_reverse.mp hl)).2.1
    have := hin l' hl'
    omega
  · intro l hl
    rcases List.mem_append.mp hl with hl | hl
    · have := (hlogs.mined l (List.mem_reverse.mp hl)).2.2
      omega
    · have := hin l hl
      omega
  · intro l hl
    rcases List.mem_append.mp hl with hl | hl
    · have := (hlogs.mined l (List.mem_reverse.mp hl)).2.1
      have := (hgo hgoesOn).1
      omega
    · exact (hgo hgoesOn).2 l hl

/-- When everything behind the ancestor has been sent again, the stream may go on down. -/
lemma InOrder.rescanned {goesOn : Prop} (h : InOrder count (Within low a next goesOn) t) :
    InOrder count (fun collected ancestor => goesOn → AtLeast low collected ancestor) t := by
  refine h.mono fun collected ancestor ⟨_, hanc, hgo⟩ hgoesOn => ⟨(hgo hgoesOn).2, ?_⟩
  subst hanc
  rintro a' ⟨⟩
  exact (hgo hgoesOn).1

/-- No logs of a range leave the task as it is. -/
lemma process_nil (t : CollectingTask D) : t.process count listening (.ok (.data [])) = t := by
  cases hphase : t.phase with
  | collecting collected ancestor => exact phase_process_nil hphase
  | overflowing | complete | returned | panicked => exact process_eq_self (by simp [hphase]) _

/-! ### What a step of the rewind does to the order -/

section Rewind

variable [ReorgHandler Hash R] {getLogs : GetLogs D} {log : Log Hash}
  {maxBlockRange : MaxBlockRange} {checkReorg : Bool} {tipNumber toBlock : ℕ}
  {s u : RewindState Hash R}

variable (count listening getLogs) in
/-- The task that has taken all messages of the rewind is in order. -/
def Orderly (s : RewindState Hash R) : Prop :=
  match s.phase with
  | .rewinding reached ranges =>
    InOrder count (fun collected ancestor => ranges ≠ [] → AtLeast reached collected ancestor)
      (after count listening getLogs s.log)
  | .checking reached _ =>
    InOrder count (AtLeast reached) (after count listening getLogs s.log) ∧
      ∃ r, (sentRanges s.log).head? = some r ∧ r.start = reached
  | .refetching a reached ranges =>
    InOrder count (Within reached a (a + 1) (ranges ≠ [])) (after count listening getLogs s.log)
  | .rescanning a next _ reached ranges =>
    InOrder count (Within reached a next (ranges ≠ [])) (after count listening getLogs s.log)
  | .stopped => InOrder count (fun _ _ => True) (after count listening getLogs s.log)

omit [ReorgHandler Hash R] in
/-- In every phase the task is in order. -/
lemma Orderly.inOrder (h : Orderly count listening getLogs s) :
    InOrder count (fun _ _ => True) (after count listening getLogs s.log) := by
  unfold Orderly at h
  split at h
  · exact h.mono fun _ _ _ => trivial
  · exact h.1.mono fun _ _ _ => trivial
  · exact h.mono fun _ _ _ => trivial
  · exact h.mono fun _ _ _ => trivial
  · exact h

/-- A range that is sent, with the logs fetched for it, or with the error of the fetch. -/
lemma inOrder_after_sent
    (hgetLogs : ∀ i range logs, getLogs i range = .ok logs → FetchedFrom range logs)
    (hP : ∀ logs : List (RpcLog D), FetchedFrom range logs → InOrder count P
      ((after count listening getLogs log).process count listening (.ok (.data logs)))) :
    InOrder count P (after count listening getLogs (.sent (dataItem range) :: log)) := by
  rw [after_sent]
  cases hlogs : getLogs (messages log).length range with
  | ok logs =>
    rw [fetchResult_of_ok hlogs]
    exact hP logs (hgetLogs _ _ _ hlogs)
  | error e =>
    have hkept := hP [] ⟨by simp, List.Pairwise.nil⟩
    rw [process_nil] at hkept
    rw [fetchResult_of_error hlogs]
    exact hkept.forward fun collected ancestor hphase => by
      simp only [CollectingTask.process, hphase]

/-- Events from which the consumer learns nothing about blocks keep the order. -/
lemma InOrder.append {extra : Log Hash} (h : InOrder count P (after count listening getLogs log))
    (hextra : SilentLog extra) :
    InOrder count P (after count listening getLogs (extra ++ log)) := by
  induction extra with
  | nil => exact h
  | cons e extra ih =>
    obtain ⟨he, hextra⟩ := silentLog_cons.mp hextra
    have ih := ih hextra
    match e with
    | .sent (.ok (.data _)) | .sent (.ok (.notification (.reorgDetected _))) => exact absurd he id
    | .sent (.ok (.notification .switchingToLive)) | .sent (.ok (.notification .noPastLogsFound))
    | .sent (.error _) =>
      rw [List.cons_append, after_sent]
      refine ih.forward fun collected ancestor hphase => ?_
      simp only [CollectingTask.process, fetchResult, hphase]
    | .request _ | .received _ | .checked _ _ => exact ih

/-- **One step keeps the task in order.**

**Proof sketch.** By cases on the step. The ranges of the rewind lie below everything collected,
those of a rescan above. Behind a rescan the rewind goes on below the blocks it had reached, and
the condition puts the ancestor at the block before those or higher, so that the logs found there
go to the end of the buffer again. -/
lemma orderly_step (hst : RewindStep maxBlockRange checkReorg s u)
    (hgetLogs : ∀ i range logs, getLogs i range = .ok logs → FetchedFrom range logs)
    (hC : Always (RescansAdjoin toBlock) u.log) (hcut : s.Cutting maxBlockRange tipNumber toBlock)
    (hI : Orderly count listening getLogs s) : Orderly count listening getLogs u := by
  cases hst with
  | @send range reached ranges =>
    obtain ⟨hstop, hle, -⟩ := hcut.2.next
    have hI : InOrder count (AtLeast reached) (after count listening getLogs _) :=
      InOrder.mono hI fun _ _ h => h (by simp)
    refine ⟨inOrder_after_sent hgetLogs fun logs hlogs => ?_, range, rfl, rfl⟩
    exact hI.rewind hlogs hle (by omega)
  | skip => exact hI.1.mono fun _ _ h _ => h
  | @clean _ _ tip _ _ _ reqs _ hcheck hreqs =>
    have hsilent : SilentLog (.checked tip none :: reqs) := by
      simp [silentLog_of_isRequest hreqs]
    exact (hI.1.append hsilent).mono fun _ _ h _ => h
  | @reorg reached ranges tip a _ _ _ reqs _ hcheck hreqs =>
    obtain ⟨hI, r, hhead, hr⟩ := hI
    have hadjoin : ranges ≠ [] → reached ≤ a.number + 1 := by
      have hhead' : (sentRanges (.checked tip (some a) :: (reqs ++ _))).head? = some r :=
        (congrArg List.head? (sentRanges_of_silent (silentLog_of_isRequest hreqs) _)).trans hhead
      exact hcut.2.reached_le hC.1 hhead' hr
    have hsilent : SilentLog (.checked tip (some a) :: reqs) := by
      simp [silentLog_of_isRequest hreqs]
    have hI' := hI.append hsilent
    unfold Orderly
    dsimp only
    rw [after_sent]
    exact hI'.reorg a.number hadjoin
  | refetch hnum => exact hI
  | rescan =>
    obtain ⟨-, -, ha, hle, hr, -⟩ := hcut
    refine inOrder_after_sent hgetLogs fun logs hlogs => ?_
    refine InOrder.rescan hI hlogs ha (by rw [hr]) ?_
    rw [hr]
    dsimp only
    omega
  | rescanned => exact InOrder.rescanned hI
  | stop hextra => exact hI.inOrder.append hextra

end Rewind

/-! ### What is delivered -/

/-- The buffer has at most `count` logs. -/
def Short (count : ℕ) (t : CollectingTask D) : Prop :=
  match t.phase with
  | .collecting collected _ | .complete collected => collected.length ≤ count
  | .overflowing | .returned | .panicked => True

/-- A message leaves at most `count` logs in the buffer. -/
lemma Short.process (h : Short count t) (result : EventScannerResult D) :
    Short count (t.process count listening result) := by
  have hsend (item : EventScannerResult D) : Short count (t.trySend listening item) := by
    unfold CollectingTask.trySend
    split_ifs
    · exact h
    · trivial
  unfold CollectingTask.process
  split
  · next collected ancestor hphase =>
    simp only [Short, hphase] at h
    split
    · next logs =>
      split
      · simpa only [Short, hphase] using h
      · split
        · trivial
        · dsimp only
          have hlen := length_collectLogs_le h logs
          split_ifs <;> exact hlen _
    · exact (List.dropWhile_sublist _).length_le.trans h
    · exact hsend _
    · exact hsend _
  all_goals exact h

variable (count listening getLogs) in
/-- The task never has more than `count` logs in its buffer. -/
lemma short_after (log : Log Hash) : Short count (after count listening getLogs log) := by
  unfold after
  generalize (messages log).mapIdx _ = results
  induction results using List.reverseRecOn with
  | nil =>
    by_cases hfits : AllocatesLogs count
    · rw [List.foldl_nil, new_of_allocatesLogs hfits]
      exact Nat.zero_le _
    · rw [List.foldl_nil, new_of_not_allocatesLogs hfits]
      trivial
  | append_singleton results result ih =>
    rw [List.foldl_concat]
    exact ih.process result

/-- **The latest logs are delivered in order**, none of them twice, in every run of the rewind in
which every reorg goes back to the block before the range behind which it is found at most, or is
found behind the last range; and whenever just one log is asked for. -/
theorem delivered_chronological [ReorgHandler Hash R] (count : ℕ) (hcount : 1 ≤ count)
    (listening : List (EventScannerResult D) → Bool) (getLogs : GetLogs D)
    (hgetLogs : ∀ i range logs, getLogs i range = .ok logs → FetchedFrom range logs)
    (tip toBlock : Block Hash) (maxBlockRange : MaxBlockRange) (sender : Sender)
    (provider : RobustProvider Hash) (reorgHandler : R)
    (hC : count = 1 ∨ Always (RescansAdjoin toBlock.number)
      ((handleStreamRewind tip toBlock maxBlockRange sender provider reorgHandler).run []).2)
    (logs : List (RpcLog D))
    (hlogs : .ok (.data logs) ∈ delivered count listening getLogs
      ((handleStreamRewind tip toBlock maxBlockRange sender provider reorgHandler).run []).2) :
    logs.Pairwise RpcLog.Before := by
  obtain ⟨collected, rfl, -, hphase⟩ := mem_delivered hlogs
  rcases hC with rfl | hC
  · have hshort := short_after 1 listening getLogs
      ((handleStreamRewind tip toBlock maxBlockRange sender provider reorgHandler).run []).2
    have hlen : collected.reverse.length ≤ 1 := by
      rw [List.length_reverse]
      rcases hphase with ⟨a, hphase⟩ | hphase <;> simpa only [Short, hphase] using hshort
    rw [List.pairwise_iff_getElem]
    intro i j hi hj hij
    omega
  · obtain ⟨checkReorg, u, hu, hlog, -⟩ := handleStreamRewind_reach maxBlockRange sender tip toBlock
      provider reorgHandler []
    rw [← hlog] at hC hphase
    have hstart : InOrder count (fun collected ancestor =>
        (RangeIterator.reverse tip.number toBlock.number maxBlockRange).ranges ≠ [] →
          AtLeast (tip.number + 1) collected ancestor) (new count : CollectingTask D) :=
      inOrder_new hcount fun _ => ⟨by simp, by simp⟩
    have hI := LoggedSystem.invariant
      (I := fun s => s.Cutting maxBlockRange tip.number toBlock.number ∧
        Orderly count listening getLogs s)
      (fun s t (hst : RewindStep maxBlockRange checkReorg s t) hC hI =>
        ⟨hst.cutting hI.1, orderly_step hst hgetLogs hC hI.1 hI.2⟩) hu
      ⟨RewindState.cutting_start tip toBlock reorgHandler _, hstart⟩ hC
    have horder := hI.2.inOrder
    have hnew : Newest collected := by
      rcases hphase with ⟨a, hphase⟩ | hphase
      · simp only [InOrder, hphase] at horder
        exact horder.2.1
      · simpa only [InOrder, hphase] using horder
    exact List.pairwise_reverse.mpr hnew.descending

/-! ### A reorg that goes back too far -/

/-- Blocks `3` and `4` are replaced after the first provider call, by a chain with the given blocks
`1` and `2`, on which block `finalized` is final. -/
def replacedTip (low : List ℕ) (finalized : ℕ) : RobustProvider ℕ :=
  .healthy (switchAt 1 (.ofHashes 0 [1, 2, 3, 4] 0) (.ofHashes 0 (low ++ [13, 14]) finalized))

/-- The log of a rewind from block `4` to block `1` over a chain, two blocks at a time. -/
def rewindLog (provider : RobustProvider ℕ) : Log ℕ :=
  ((handleStreamRewind ⟨4, 4⟩ ⟨1, 1⟩ ⟨2, by decide⟩ ⟨none⟩ provider
    (DefaultReorgHandler.new provider .infinite)).run []).2

/-- On every chain the only log is in block `1`. -/
def onlyLog : GetLogs Unit := fun _ range =>
  .ok (if range.Contains 1 then [⟨some 1, some 0, ()⟩] else [])

lemma fetchedFrom_onlyLog (i : ℕ) (range : RangeInclusive) (logs : List (RpcLog Unit))
    (h : onlyLog i range = .ok logs) : FetchedFrom range logs := by
  unfold onlyLog at h
  simp only [Except.ok.injEq] at h
  subst h
  split_ifs with hin
  · exact ⟨by simpa using ⟨rfl, hin⟩, List.pairwise_singleton _ _⟩
  · exact ⟨by simp, List.Pairwise.nil⟩

/-- A reorg to block `2`, found behind `3..=4`: the log is delivered. -/
theorem delivered_chronological_replacedTip :
    [(⟨some 1, some 0, ()⟩ : RpcLog Unit)].Pairwise RpcLog.Before :=
  delivered_chronological 2 (by decide) (fun _ => true) onlyLog fetchedFrom_onlyLog ⟨4, 4⟩ ⟨1, 1⟩
    ⟨2, by decide⟩ ⟨none⟩ (replacedTip [1, 2] 2)
    (DefaultReorgHandler.new (replacedTip [1, 2] 2) .infinite) (Or.inr (by decide)) _
    (by decide)

/-- A reorg to block `0`, found behind `3..=4`: the rescan sends `1..=2` and `3..=4`, the rewind
sends `1..=2` once more, and the log is delivered twice. -/
theorem not_chronological_deepReorg :
    FinalityKept (replacedTip [11, 12] 0).view ∧
      ∃ logs, .ok (.data logs) ∈ delivered 2 (fun _ => true) onlyLog
          (rewindLog (replacedTip [11, 12] 0)) ∧
        ¬logs.Pairwise RpcLog.Before ∧ ¬logs.Nodup :=
  ⟨finalityKept_switchAt (by decide), [⟨some 1, some 0, ()⟩, ⟨some 1, some 0, ()⟩], by decide,
    by decide, by decide⟩

end CollectingTask

end EventScanner
