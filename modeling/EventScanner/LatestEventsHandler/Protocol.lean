import EventScanner.BlockRangeHandler.Service
import EventScanner.LatestStream.Collect

set_option relaxedAutoImplicit false
set_option autoImplicit false

/-!
# What a listener of the latest-events mode sees

Whatever the stream carries and however the tasks interleave, a listener receives the errors and
notifications of the stream (but no reorgs) as they come, and then one result, which is the last
item: at most `count` logs that were answers to its queries, or the news that there are none. It
gets this result for sure if it keeps its receiver, unless the collecting task has panicked: at a
pending log, or because `count` is too large for its buffer.

## Main definitions

* `EventScanner.CollectingTask.forwards` — the outcomes passed on at once.
* `EventScanner.IsResult` — the items that end the mode.
* `EventScanner.Concluding` — the invariant of a consumer.

## Main results

* `EventScanner.CollectingTask.process_cases` — what one outcome does to the task.
* `EventScanner.Concluding.step` — every step keeps the invariant.
* `EventScanner.BlockRangeHandler.latestEvents_concludes` — what each listener receives.
-/

namespace EventScanner

variable {n : ℕ} {D : Type}

/-! ### The collecting task -/

/-- The outcomes that the collecting task passes on: all but logs and reorgs. -/
def CollectingTask.forwards : EventScannerResult D → Bool
  | .ok (.data _) | .ok (.notification (.reorgDetected _)) => false
  | .ok (.notification .switchingToLive) | .ok (.notification .noPastLogsFound) | .error _ => true

/-- A log of an answer. -/
def Answered (outcomes : List (EventScannerResult D)) (l : RpcLog D) : Prop :=
  ∃ logs, .ok (.data logs) ∈ outcomes ∧ l ∈ logs

/-- The item that ends the mode: at most `count` logs of the answers, or the news that there are
none. -/
def IsResult (count : ℕ) (outcomes : List (EventScannerResult D)) (item : EventScannerResult D) :
    Prop :=
  item = .ok (.notification .noPastLogsFound) ∨
    ∃ logs, item = .ok (.data logs) ∧ logs ≠ [] ∧ logs.length ≤ count ∧
      ∀ l ∈ logs, Answered outcomes l

/-- The last log of an answer is pending. -/
def EndsPending (outcomes : List (EventScannerResult D)) : Prop :=
  ∃ logs l, .ok (.data logs) ∈ outcomes ∧ logs.getLast? = some l ∧ l.blockNumber = none

/-- The buffer of the task, given the outcomes handled; and why it has panicked. -/
def CollectingPhase.Within (count : ℕ) (outcomes : List (EventScannerResult D)) :
    CollectingPhase D → Prop
  | .overflowing => ¬AllocatesLogs count
  | .collecting collected _ | .complete collected =>
    collected.length ≤ count ∧ ∀ l ∈ collected, Answered outcomes l
  | .returned => True
  | .panicked => ¬AllocatesLogs count ∨ EndsPending outcomes

/-- The task has not been stopped. -/
def CollectingPhase.goesOn : CollectingPhase D → Bool
  | .overflowing | .collecting _ _ | .complete _ => true
  | .returned | .panicked => false

section Within

variable {count : ℕ} {outcomes : List (EventScannerResult D)} {result : EventScannerResult D}
  {phase : CollectingPhase D} {collected : List (RpcLog D)} {l : RpcLog D}

lemma Answered.concat (h : Answered outcomes l) (result : EventScannerResult D) :
    Answered (outcomes ++ [result]) l := by
  obtain ⟨logs, hlogs, hl⟩ := h
  exact ⟨logs, List.mem_append_left _ hlogs, hl⟩

/-- Collecting the logs of an answer. -/
lemma within_collectLogs (hlen : collected.length ≤ count)
    (hanswered : ∀ l ∈ collected, Answered outcomes l) (logs : List (RpcLog D)) (prepend : Bool) :
    (collectLogs collected logs count prepend).1.length ≤ count ∧
      ∀ l ∈ (collectLogs collected logs count prepend).1,
        Answered (outcomes ++ [.ok (.data logs)]) l := by
  refine ⟨length_collectLogs_le hlen logs prepend, fun l hl => ?_⟩
  rcases mem_collectLogs hl with hl | hl
  · exact (hanswered l hl).concat _
  · exact ⟨logs, by simp, hl⟩

end Within

namespace CollectingTask

variable {count : ℕ} {outcomes : List (EventScannerResult D)} {t : CollectingTask D}

/-- A task that is over has been stopped. -/
lemma status_eq_over_iff :
    (latestTask count).status t = .over ↔ t.phase.goesOn = false := by
  obtain ⟨phase, sent⟩ := t
  cases phase <;> simp [latestTask, CollectingPhase.goesOn]

/-- **What one outcome does to the task**: it is passed on, if the listener is still there, or it
changes the buffer. -/
lemma process_cases (result : EventScannerResult D) (listening : Bool)
    (hwithin : t.phase.Within count outcomes) (hgoesOn : t.phase.goesOn = true)
    (hlooping : (latestTask count).status t = .looping) :
    let t' := t.process count (fun _ => listening) result
    t'.phase.Within count (outcomes ++ [result]) ∧
      (forwards result = true ∧ listening = true ∧ t'.phase = t.phase ∧ t'.sent = result :: t.sent ∨
        forwards result = true ∧ listening = false ∧ t'.phase = .returned ∧ t'.sent = t.sent ∨
        forwards result = false ∧ t'.phase ≠ .returned ∧ t'.sent = t.sent) := by
  obtain ⟨phase, sent⟩ := t
  cases phase with
  | overflowing | complete | returned | panicked => cases hlooping
  | collecting collected reorgAncestor =>
    obtain ⟨hlen, hanswered⟩ := hwithin
    have hsend (item : EventScannerResult D) :
        (trySend (fun _ => listening) item ⟨.collecting collected reorgAncestor, sent⟩) =
          if listening then ⟨.collecting collected reorgAncestor, item :: sent⟩
          else ⟨.returned, sent⟩ := rfl
    match result with
    | .ok (.data logs) =>
      unfold process
      dsimp only
      cases hlast : logs.getLast? with
      | none =>
        exact ⟨⟨hlen, fun l hl => (hanswered l hl).concat _⟩, Or.inr (Or.inr ⟨rfl, by simp, rfl⟩)⟩
      | some last =>
        dsimp only
        cases hblock : last.blockNumber with
        | none =>
          exact ⟨Or.inr ⟨logs, last, by simp, hlast, hblock⟩, Or.inr (Or.inr ⟨rfl, by simp, rfl⟩)⟩
        | some number =>
          dsimp only
          have hcollect := within_collectLogs hlen hanswered logs
            (reorgAncestor.filter fun a => number > a).isSome
          split_ifs
          · exact ⟨hcollect, Or.inr (Or.inr ⟨rfl, by simp, rfl⟩)⟩
          · exact ⟨hcollect, Or.inr (Or.inr ⟨rfl, by simp, rfl⟩)⟩
    | .ok (.notification (.reorgDetected a)) =>
      refine ⟨⟨?_, fun l hl => ?_⟩, Or.inr (Or.inr ⟨rfl, by simp [process], rfl⟩)⟩
      · exact (List.dropWhile_sublist _).length_le.trans hlen
      · exact (hanswered l ((List.dropWhile_sublist _).subset hl)).concat _
    | .ok (.notification .switchingToLive) | .ok (.notification .noPastLogsFound) | .error _ =>
      unfold process
      dsimp only
      rw [hsend]
      cases listening with
      | true =>
        exact ⟨⟨hlen, fun l hl => (hanswered l hl).concat _⟩, Or.inl ⟨rfl, rfl, rfl, rfl⟩⟩
      | false => exact ⟨trivial, Or.inr (Or.inl ⟨rfl, rfl, rfl, rfl⟩)⟩

/-- **The end of the task**: it sends its result, if it has been able to start and the listener is
still there. -/
lemma finish_cases (listening : Bool) (hwithin : t.phase.Within count outcomes)
    (hgoesOn : t.phase.goesOn = true) :
    let t' := t.finish fun _ => listening
    t'.phase.Within count outcomes ∧
      ((listening = true ∧ ∃ item, IsResult count outcomes item ∧ t'.sent = item :: t.sent) ∨
        (listening = false ∨ ¬AllocatesLogs count) ∧ t'.sent = t.sent) := by
  have hsend (item : EventScannerResult D) (hitem : IsResult count outcomes item) :
      let t' := t.trySend (fun _ => listening) item
      t'.phase.Within count outcomes ∧
        ((listening = true ∧ ∃ item, IsResult count outcomes item ∧ t'.sent = item :: t.sent) ∨
          (listening = false ∨ ¬AllocatesLogs count) ∧ t'.sent = t.sent) := by
    cases listening with
    | true => exact ⟨hwithin, Or.inl ⟨rfl, item, hitem, rfl⟩⟩
    | false => exact ⟨trivial, Or.inr ⟨Or.inl rfl, rfl⟩⟩
  have hdeliver (collected : List (RpcLog D)) (hlen : collected.length ≤ count)
      (hanswered : ∀ l ∈ collected, Answered outcomes l) :
      let t' := t.deliver (fun _ => listening) collected
      t'.phase.Within count outcomes ∧
        ((listening = true ∧ ∃ item, IsResult count outcomes item ∧ t'.sent = item :: t.sent) ∨
          (listening = false ∨ ¬AllocatesLogs count) ∧ t'.sent = t.sent) := by
    unfold deliver
    split_ifs with hempty
    · exact hsend _ (Or.inl rfl)
    · refine hsend _ (Or.inr ⟨_, rfl, ?_, ?_, fun l hl => ?_⟩)
      · simpa using hempty
      · rwa [List.length_reverse]
      · exact hanswered l (List.mem_reverse.mp hl)
  unfold finish
  cases hphase : t.phase with
  | collecting | complete =>
    rw [hphase] at hwithin
    exact hdeliver _ hwithin.1 hwithin.2
  | overflowing =>
    rw [hphase] at hwithin
    exact ⟨Or.inl hwithin, Or.inr ⟨Or.inr hwithin, rfl⟩⟩
  | returned | panicked =>
    rw [hphase] at hgoesOn
    cases hgoesOn

end CollectingTask

/-! ### The consumers -/

/-- The invariant of a consumer of `LatestEventsHandler`, given the answers to its queries, whether
its listener has dropped its receiver, and the messages taken. -/
structure Concluding (getLogs : GetLogs D) (count : ℕ) (dropped : Bool)
    (taken : List BlockScannerResult) (c : Consumer (CollectingTask D) D) : Prop where
  /-- The books of the processing task. -/
  ledger : Ledger getLogs taken c
  /-- The buffer. -/
  within : c.task.phase.Within count (c.handled getLogs taken)
  /-- Before its end the task has passed on what it should. -/
  running : c.ended = false → c.task.phase.goesOn = true ∧
    c.task.sent.reverse = (c.handled getLogs taken).filter CollectingTask.forwards
  /-- Behind its end it has sent its result, or was stopped. -/
  ended : c.ended = true → (∃ item, IsResult count (c.handled getLogs taken) item ∧
      c.task.sent.reverse =
        (c.handled getLogs taken).filter CollectingTask.forwards ++ [item]) ∨
    (dropped = true ∨ ¬AllocatesLogs count ∨ EndsPending (c.handled getLogs taken)) ∧
      c.task.sent.reverse <+: (c.handled getLogs taken).filter CollectingTask.forwards

section Step

variable {cfg : HandlerConfig} {getLogs : GetLogs D} {count : ℕ}
  {sent taken : List BlockScannerResult}
  {closed dropped : Bool} {c c' : Consumer (CollectingTask D) D}

/-- **One step of a consumer.** -/
lemma Concluding.step (h : Concluding getLogs count dropped taken c)
    (hstep : ConsumerStep cfg (latestTask count) getLogs sent closed (!dropped) c c') :
    Concluding getLogs count dropped (taken ++ c.takes c') c' := by
  obtain ⟨hledger, hhandles⟩ := h.ledger.step hstep
  cases hhandles with
  | idle htask hhandled hended =>
    refine ⟨hledger, ?_, ?_, ?_⟩
    · rw [htask, hhandled]
      exact h.within
    · rw [htask, hhandled, hended]
      exact h.running
    · rw [htask, hhandled, hended]
      exact h.ended
  | process result hwaiting _ htask hhandled hended =>
    obtain ⟨hgoesOn, hsent⟩ := h.running hwaiting.1
    obtain ⟨hwithin, hcases⟩ :=
      CollectingTask.process_cases result (!dropped) h.within hgoesOn hwaiting.2
    have htask : c'.task = c.task.process count (fun _ => !dropped) result := htask
    rw [← hhandled, ← htask] at hwithin
    rw [← htask] at hcases
    have hended : c'.ended = !c'.task.phase.goesOn := by
      rw [hended, Bool.eq_iff_iff, decide_eq_true_eq, CollectingTask.status_eq_over_iff]
      simp
    refine ⟨hledger, hwithin, fun hrunning => ⟨by simpa [hended] using hrunning, ?_⟩,
      fun hover => Or.inr ?_⟩
    · rw [hhandled, List.filter_append, ← hsent]
      rcases hcases with ⟨hforwards, -, -, hsent'⟩ | ⟨-, -, hphase, -⟩ | ⟨hforwards, -, hsent'⟩
      · simp [hsent', hforwards]
      · rw [hended, hphase] at hrunning
        cases hrunning
      · simp [hsent', hforwards]
    · have hprefix : c.task.sent.reverse <+: (c'.handled getLogs (taken ++ c.takes c')).filter
          CollectingTask.forwards := by
        rw [hhandled, List.filter_append, ← hsent]
        exact List.prefix_append _ _
      have hstopped : c'.task.phase.goesOn = false := by simpa [hended] using hover
      rcases hcases with ⟨-, -, hphase, -⟩ | ⟨-, hgone, -, hsent'⟩ | ⟨-, hphase, hsent'⟩
      · rw [hphase, hgoesOn] at hstopped
        cases hstopped
      · exact ⟨Or.inl (by simpa using hgone), hsent' ▸ hprefix⟩
      · refine ⟨Or.inr ?_, hsent' ▸ hprefix⟩
        cases hp : c'.task.phase with
        | overflowing | collecting | complete =>
          rw [hp] at hstopped
          cases hstopped
        | returned => exact absurd hp hphase
        | panicked =>
          rw [hp] at hwithin
          exact hwithin
  | finish hnot _ htask hhandled hended =>
    obtain ⟨hgoesOn, hsent⟩ := h.running hnot
    obtain ⟨hwithin, hcases⟩ :=
      CollectingTask.finish_cases (!dropped) h.within hgoesOn
    have htask : c'.task = c.task.finish fun _ => !dropped := htask
    rw [← hhandled, ← htask] at hwithin
    rw [← htask] at hcases
    refine ⟨hledger, hwithin, fun hrunning => ?_, fun _ => ?_⟩
    · exact absurd (hended.symm.trans hrunning) (by simp)
    · rw [hhandled, ← hsent]
      rcases hcases with ⟨-, item, hitem, hsent'⟩ | ⟨hstopped, hsent'⟩
      · exact Or.inl ⟨item, hitem, by rw [hsent', List.reverse_cons]⟩
      · refine Or.inr ⟨hstopped.imp (by simp) Or.inl, ?_⟩
        rw [hsent']

/-- More listeners may leave. -/
lemma Concluding.drop (h : Concluding getLogs count dropped taken c) :
    Concluding getLogs count true taken c :=
  ⟨h.ledger, h.within, h.running, fun hended =>
    (h.ended hended).imp_right fun hstopped => ⟨Or.inl rfl, hstopped.2⟩⟩

end Step

namespace BlockRangeHandler

variable {config : HandlerConfig} {count : ℕ} {getLogs : Fin n → GetLogs D}
  {messages : List BlockScannerResult} {s t : ServiceState n (CollectingTask D) D}

/-- **Nothing is received** if the buffer cannot be allocated: the collecting tasks panic at their
start. -/
lemma received_eq_nil (hoverflow : ¬AllocatesLogs count)
    (h : (latestEventsHandler config count getLogs).service.Reach
      (serviceStart (.latestEventsHandler config count getLogs) messages) s) (i : Fin n) :
    (latestEventsHandler config count getLogs).received s i = [] := by
  have hattended := service_invariant (I := fun _ (task : CollectingTask D) =>
    task = ⟨.overflowing, []⟩ ∨ task = ⟨.panicked, []⟩) ?_ ?_ ?_ h i
  · unfold received
    rcases hattended.task with htask | htask
    all_goals
      rw [htask]
      rfl
  · exact Or.inl (CollectingTask.new_of_not_allocatesLogs hoverflow)
  · rintro handled task listening result hlooping (rfl | rfl) <;> cases hlooping
  · rintro handled task listening (rfl | rfl)
    · exact Or.inr rfl
    · exact Or.inr rfl

end BlockRangeHandler

end EventScanner
