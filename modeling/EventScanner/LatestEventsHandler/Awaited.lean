import EventScanner.BlockRangeHandler.Concurrency
import EventScanner.BlockRangeHandler.Stalled
import EventScanner.LatestEventsHandler.MatchingLogs

set_option relaxedAutoImplicit false
set_option autoImplicit false

/-!
# When the collecting tasks end in time

The `handle` of `LatestEventsHandler` waits for the forwarding tasks only, and such a task ends when
it finds its collecting task gone, or the broadcast channel closed. In the second case everything
has been passed on, so all but the last messages have been handled. If these are enough for the
collecting task to leave its loop, it has ended: otherwise the channel between the tasks would be
full, and the forwarding task still waiting.

## Main definitions

* `EventScanner.Network.Awaited` — the processing tasks end before the handler returns.
* `EventScanner.Lingering` — how far a collecting task that has not ended has come.
* `EventScanner.Attending` — the invariant of a consumer.

## Main results

* `EventScanner.BlockRangeHandler.StopsEarly.ended` — where the collecting tasks leave their loops
  early, a forwarding task that has received everything finds its collecting task ended.
* `EventScanner.BlockRangeHandler.awaited_of_stopsEarly` — so `handle` returns behind them.
* `EventScanner.BlockRangeHandler.stopsEarly_iff` — what the condition says on a stream of ranges
  that the broadcast channel can keep: all but the last ranges have enough logs.
-/

namespace EventScanner

variable {n : ℕ} {τ D : Type}

/-- The processing tasks end before the forwarding tasks, and these end before the handler. -/
structure Network.Awaited (s : Network n τ D) : Prop where
  /-- The processing tasks end before the forwarding tasks. -/
  ended : ∀ i, (s.consumers i).forwarder = .done → (s.consumers i).ended = true
  /-- The forwarding tasks end before the handler. -/
  joined : s.broadcaster = .returned → ∀ i, (s.consumers i).forwarder = .done

/-- When the handler has returned, the processing tasks have ended. -/
lemma Network.Awaited.returned {s : Network n τ D} (h : s.Awaited)
    (hreturned : s.broadcaster = .returned) (i : Fin n) : (s.consumers i).ended = true :=
  h.ended i (h.joined hreturned i)

/-- A handler returns when all forwarding tasks have ended by themselves. -/
lemma NetworkStep.done_of_returned {handler : BlockRangeHandler n τ D} {listening : Fin n → Bool}
    {s t : Network n τ D} (h : NetworkStep handler listening s t)
    (hjoined : s.broadcaster = .returned → ∀ i, (s.consumers i).forwarder = .done)
    (hreturned : t.broadcaster = .returned) (i : Fin n) : (t.consumers i).forwarder = .done := by
  cases h with
  | broadcast | close | joinPanic | abort => cases hreturned
  | joined hall => exact hall i
  | @task _ _ consumers j c hstep =>
    have hdone := hjoined hreturned i
    by_cases hij : i = j
    · subst hij
      have hstopped := hstep.forwarder_eq_of_stopped (by rw [hdone]; rfl)
      simpa using hstopped.trans hdone
    · simpa [hij] using hdone

/-! ### The loop of the collecting task -/

namespace CollectingTask

variable {count : ℕ} {t t' : CollectingTask D} {results results' : List (EventScannerResult D)}

/-- How far the task has come depends on its phase. -/
lemma status_eq_of_phase_eq (h : t.phase = t'.phase) :
    (latestTask count).status t = (latestTask count).status t' := by
  dsimp only [latestTask]
  rw [h]

/-- A task that is collecting is in its loop. -/
lemma looping_of_phase_eq {collected : List (RpcLog D)} {ancestor : Option ℕ}
    (h : t.phase = .collecting collected ancestor) : (latestTask count).status t = .looping := by
  dsimp only [latestTask]
  rw [h]

/-- A result takes two tasks from one phase to one phase, unless a listener is gone. -/
lemma phase_process_eq (h : t.phase = t'.phase) (listening : Bool) (result : EventScannerResult D) :
    (t.process count (fun _ => listening) result).phase =
        (t'.process count (fun _ => true) result).phase ∨
      (t.process count (fun _ => listening) result).phase = .returned := by
  obtain ⟨phase, sent⟩ := t
  obtain ⟨phase', sent'⟩ := t'
  obtain rfl : phase = phase' := h
  cases phase with
  | overflowing | complete | returned | panicked => exact Or.inl rfl
  | collecting collected reorgAncestor =>
    match result with
    | .ok (.data logs) =>
      refine Or.inl ?_
      unfold process
      dsimp only
      split
      · rfl
      · split
        · rfl
        · split_ifs <;> rfl
    | .ok (.notification (.reorgDetected _)) => exact Or.inl rfl
    | .ok (.notification .switchingToLive) | .ok (.notification .noPastLogsFound) | .error _ =>
      cases listening with
      | true => exact Or.inl rfl
      | false => exact Or.inr rfl

/-- Behind its loop the task handles nothing. -/
lemma foldl_process_eq_self (h : (latestTask count).status t ≠ .looping)
    (results : List (EventScannerResult D)) :
    results.foldl ((latestTask count).process true) t = t := by
  induction results with
  | nil => rfl
  | cons result results ih =>
    have hsame : (latestTask count).process true t result = t :=
      process_eq_self (fun _ _ hphase => h (looping_of_phase_eq hphase)) result
    rw [List.foldl_cons, hsame]
    exact ih

/-- A task in its loop has been there before. -/
lemma status_behind_of_isPrefix (h : results <+: results')
    (hlooping : (latestTask count).status ((latestTask count).behind results') = .looping) :
    (latestTask count).status ((latestTask count).behind results) = .looping := by
  obtain ⟨rest, rfl⟩ := h
  by_contra hnot
  unfold ProcessingTask.behind at hnot hlooping
  rw [List.foldl_append, foldl_process_eq_self hnot] at hlooping
  exact hnot hlooping

end CollectingTask

/-! ### Collecting tasks that have not ended -/

/-- How far a collecting task that has not ended has come, given the outcomes handled. -/
structure Lingering (config : HandlerConfig) (count : ℕ) (handled : List (EventScannerResult D))
    (c : Consumer (CollectingTask D) D) : Prop where
  /-- Its listener has been there. -/
  phase : c.task.phase = ((latestTask count).behind handled).phase
  /-- If it is not in its loop, it was never there, or has left it with the last outcome. -/
  left : (latestTask count).status c.task ≠ .looping → (handled = [] ∧ c.inFlight = []) ∨
    ∃ earlier result, handled = earlier ++ [result] ∧
      (latestTask count).status ((latestTask count).behind earlier) = .looping ∧
      c.inFlight.length < config.maxConcurrentFetches

/-- The invariant of a consumer, given what has been sent to the broadcast channel and the messages
taken. -/
structure Attending (config : HandlerConfig) (count : ℕ) (getLogs : GetLogs D)
    (sent taken : List BlockScannerResult) (c : Consumer (CollectingTask D) D) : Prop where
  /-- The books agree. -/
  ledger : Ledger getLogs taken c
  /-- The back pressure. -/
  bounded : c.Bounded config
  /-- What has come through accounts for what was sent. -/
  accounts : c.forwarder.isRunning = true →
    AccountsFor config.capacity sent (c.relayed taken) c.next
  /-- The collecting task. -/
  lingering : c.ended = false → Lingering config count (c.handled getLogs taken) c

section Consumer

variable {config : HandlerConfig} {count : ℕ} {getLogs : GetLogs D}
  {sent taken : List BlockScannerResult} {closed listening : Bool}
  {c c' : Consumer (CollectingTask D) D} {handled handled' : List (EventScannerResult D)}

/-- A collecting task that has not ended behind a step. -/
lemma Lingering.step (hbounded : c.Bounded config)
    (h : c.ended = false → Lingering config count handled c)
    (hhandles : Handles (latestTask count) listening c c' handled handled')
    (hended : c'.ended = false) : Lingering config count handled' c' := by
  cases hhandles with
  | idle htask hhandled hsame hidle =>
    obtain ⟨hphase, hleft⟩ := h (hsame ▸ hended)
    rw [hhandled]
    refine ⟨by rw [htask]; exact hphase, fun hnot => ?_⟩
    rw [htask] at hnot
    rw [hidle.resolve_left fun hwaiting => hnot hwaiting.2]
    exact hleft hnot
  | process result hwaiting hfirst htask hhandled hends =>
    obtain ⟨hphase, -⟩ := h hwaiting.1
    have hnot : (latestTask count).status c'.task ≠ .over :=
      of_decide_eq_false (hends.symm.trans hended)
    rw [hhandled]
    refine ⟨?_, fun _ => Or.inr ⟨handled, result, rfl, ?_, ?_⟩⟩
    · rw [ProcessingTask.behind_concat, htask]
      refine (CollectingTask.phase_process_eq hphase listening result).resolve_right
        fun hreturned => hnot ?_
      rw [htask]
      exact (CollectingTask.status_eq_of_phase_eq hreturned :
        _ = (latestTask count).status (⟨.returned, []⟩ : CollectingTask D))
    · rw [← CollectingTask.status_eq_of_phase_eq hphase]
      exact hwaiting.2
    · have hlength := congrArg List.length hfirst
      simp only [List.length_map, List.length_cons] at hlength
      have hroom := hbounded.inFlight
      omega
  | finish _ _ _ _ hends => exact absurd (hends.symm.trans hended) (by decide)

/-- **One step of a consumer keeps the invariant.** -/
lemma Attending.step (h : Attending config count getLogs sent taken c)
    (hstep : ConsumerStep config (latestTask count) getLogs sent closed listening c c') :
    Attending config count getLogs sent (taken ++ c.takes c') c' where
  ledger := (h.ledger.step hstep).1
  bounded := h.bounded.step hstep
  accounts := hstep.accounts (Or.inr rfl) h.accounts
  lingering := Lingering.step h.bounded h.lingering (h.ledger.step hstep).2

/-- More is sent to the broadcast channel. -/
lemma Attending.broadcast (h : Attending config count getLogs sent taken c)
    (message : BlockScannerResult) :
    Attending config count getLogs (sent ++ [message]) taken c where
  ledger := h.ledger
  bounded := h.bounded
  accounts hrunning := (h.accounts hrunning).of_isPrefix (List.prefix_append _ _)
  lingering := h.lingering

/-- The forwarding task is cancelled. -/
lemma Attending.abort (h : Attending config count getLogs sent taken c) :
    Attending config count getLogs sent taken { c with forwarder := .aborted } where
  ledger := ⟨h.ledger.length_taken, h.ledger.outcomes⟩
  bounded := ⟨h.bounded.buffer, h.bounded.inFlight⟩
  accounts := nofun
  lingering hended := ⟨(h.lingering hended).phase, (h.lingering hended).left⟩

variable (config count getLogs) in
/-- A consumer before its first step. -/
lemma Attending.new : Attending config count getLogs [] [] (Consumer.new (latestTask count)) where
  ledger := ⟨rfl, rfl⟩
  bounded := ⟨Nat.zero_le _, Nat.zero_le _⟩
  accounts _ := .start
  lingering _ := ⟨rfl, fun _ => Or.inl ⟨rfl, rfl⟩⟩

end Consumer

namespace BlockRangeHandler

variable {config : HandlerConfig} {count : ℕ} {getLogs : Fin n → GetLogs D}
  {messages taken : List BlockScannerResult} {c : Consumer (CollectingTask D) D}
  {s t : ServiceState n (CollectingTask D) D} {i : Fin n}

/-- **A forwarding task that has received everything finds its collecting task ended**, if the
collecting tasks leave their loops early.

**Proof sketch.** All but the messages in flight and in the channel have been handled, so the
collecting task is behind its loop. As long as it was there, it had room in flight; or it has
handled nothing, and the channel holds everything. -/
lemma StopsEarly.ended (hstops : (latestEventsHandler config count getLogs).StopsEarly messages)
    (h : Attending config count (getLogs i) messages taken c) (hf : c.forwarder = .receiving)
    (hend : c.next = messages.length) : c.ended = true := by
  by_contra hnot
  have hended : c.ended = false := by simpa using hnot
  have haccounts := h.accounts (by rw [hf]; rfl)
  rw [hend] at haccounts
  obtain ⟨hlong, hstatus⟩ := hstops i _ haccounts
  have hrelayed : c.relayed taken = taken ++ c.buffer := by
    rw [Consumer.relayed, hf, Forwarder.inHand, List.append_nil]
  rw [hrelayed] at hlong hstatus
  have houtcomes := h.ledger.outcomes
  have hlength := congrArg List.length houtcomes
  rw [length_outcomesOf, List.length_append, List.length_map] at hlength
  obtain ⟨hbuffer, hflight⟩ := h.bounded
  obtain ⟨hphase, hleft⟩ := h.lingering hended
  rw [List.length_append] at hlong
  -- what has been handled takes the task out of its loop
  have hearly (earlier : List (EventScannerResult D))
      (hinit : earlier <+: c.handled (getLogs i) taken)
      (hle : (taken ++ c.buffer).length - 2 * config.maxConcurrentFetches ≤ earlier.length) :
      (latestTask count).status ((latestTask count).behind earlier) ≠ .looping := by
    refine fun hlooping => hstatus (CollectingTask.status_behind_of_isPrefix ?_ hlooping)
    refine List.prefix_of_prefix_length_le (List.take_prefix _ _) ?_
      ((List.length_take_le _ _).trans hle)
    calc earlier <+: c.handled (getLogs i) taken := hinit
      _ <+: outcomesOf (getLogs i) taken := List.take_prefix _ _
      _ <+: outcomesOf (getLogs i) (taken ++ c.buffer) :=
          outcomesOf_isPrefix _ (List.prefix_append _ _)
  have hnotLooping : (latestTask count).status c.task ≠ .looping := by
    rw [CollectingTask.status_eq_of_phase_eq hphase]
    refine hearly _ (List.prefix_refl _) ?_
    rw [List.length_append]
    omega
  rcases hleft hnotLooping with ⟨hhandled, hnone⟩ | ⟨earlier, result, hhandled, hlooping, hroom⟩
  · rw [hhandled, hnone] at hlength
    simp only [List.length_nil] at hlength
    change config.maxConcurrentFetches < _ at hlong
    omega
  · refine hearly earlier (hhandled ▸ List.prefix_append _ _) ?_ hlooping
    rw [hhandled, List.length_append, List.length_singleton] at hlength
    rw [List.length_append]
    omega

/-- The invariant of a handler whose collecting tasks leave their loops early. -/
structure Awaiting (config : HandlerConfig) (count : ℕ) (getLogs : Fin n → GetLogs D)
    (messages : List BlockScannerResult) (s : ServiceState n (CollectingTask D) D) : Prop where
  /-- While the loop is running, everything is sent or still to come. -/
  streaming : ∀ rest, s.network.broadcaster = .streaming rest → s.network.sent ++ rest = messages
  /-- The channel is closed at the end of the stream, or when no forwarding task is left. -/
  closed : s.network.broadcaster.isClosed = true → s.network.sent = messages ∨
    ∀ i, (s.network.consumers i).forwarder.isRunning = false
  /-- The consumers. -/
  consumers : ∀ i, Attending config count (getLogs i) s.network.sent (s.taken i)
    (s.network.consumers i)
  /-- The tasks end in order. -/
  awaited : s.network.Awaited

/-- **One step of a consumer keeps the order of the ends**: a forwarding task ends when its
collecting task is gone, or when it has received everything. -/
lemma StopsEarly.ended_of_done
    (hstops : (latestEventsHandler config count getLogs).StopsEarly messages)
    {sent : List BlockScannerResult} {closed listening : Bool} {c' : Consumer (CollectingTask D) D}
    (hclosed : closed = true → sent = messages ∨ c.forwarder.isRunning = false)
    (h : Attending config count (getLogs i) sent taken c)
    (hordered : c.forwarder = .done → c.ended = true)
    (hstep : ConsumerStep config (latestTask count) (getLogs i) sent closed listening c c')
    (hdone : c'.forwarder = .done) : c'.ended = true := by
  by_cases hbefore : c.forwarder = .done
  · exact hstep.ended_of_ended (hordered hbefore)
  cases hstep with
  | recv | lag | send => cases hdone
  | gone _ hended => exact hended
  | close hf hend hover =>
    obtain rfl := (hclosed hover).resolve_right (by simp [hf, Forwarder.isRunning])
    have hnext := (h.accounts (by rw [hf]; rfl)).le_length
    exact hstops.ended (c := c) h hf (hnext.antisymm hend)
  | pull | fetched | process | finish => exact absurd hdone hbefore

/-- **One step keeps the invariant.** -/
lemma Awaiting.step (hstops : (latestEventsHandler config count getLogs).StopsEarly messages)
    (h : Awaiting config count getLogs messages s)
    (hst : ServiceStep (.latestEventsHandler config count getLogs) s t) :
    Awaiting config count getLogs messages t := by
  have hordered (i : Fin n) (hdone : (t.network.consumers i).forwarder = .done) :
      (t.network.consumers i).ended = true := by
    rcases hst.consumer_cases i with ⟨hc, -⟩ | ⟨hc, -⟩ | ⟨-, -, hc⟩
    · rw [hc] at hdone ⊢
      exact h.awaited.ended i hdone
    · exact hstops.ended_of_done (fun hclosed => (h.closed hclosed).imp_right fun hall => hall i)
        (h.consumers i) (h.awaited.ended i) hc hdone
    · rw [hc] at hdone
      cases hdone
  cases hst with
  | drop => exact ⟨h.streaming, h.closed, h.consumers, h.awaited⟩
  | network hnetwork =>
    have hjoined := hnetwork.done_of_returned h.awaited.joined
    obtain ⟨⟨broadcaster, sent, consumers⟩, dropped, taken⟩ := s
    cases hnetwork with
    | @broadcast message rest =>
      refine ⟨fun rest' hrest => ?_, fun hopen => absurd hopen Bool.false_ne_true, fun i => ?_,
        ⟨hordered, hjoined⟩⟩
      · obtain rfl := Broadcaster.streaming.inj hrest
        simpa [ServiceState.proceed] using h.streaming _ rfl
      · simpa [ServiceState.proceed] using (h.consumers i).broadcast message
    | close hclose =>
      refine ⟨fun rest hrest => ?_, fun _ => hclose.imp_left fun hnil => ?_, fun i => ?_,
        ⟨hordered, hjoined⟩⟩
      · cases hrest
      · simpa [ServiceState.proceed, hnil] using h.streaming _ rfl
      · simpa [ServiceState.proceed] using h.consumers i
    | joined | joinPanic =>
      refine ⟨fun rest hrest => ?_, fun _ => h.closed rfl, fun i => ?_, ⟨hordered, hjoined⟩⟩
      · cases hrest
      · simpa [ServiceState.proceed] using h.consumers i
    | @task _ _ _ j c hstep =>
      refine ⟨h.streaming, fun hclosed => (h.closed hclosed).imp_right fun hall i => ?_,
        fun i => ?_, ⟨hordered, hjoined⟩⟩
      · by_cases hij : i = j
        · subst hij
          have hstopped := hstep.forwarder_eq_of_stopped (hall i)
          simpa [ServiceState.proceed, hstopped] using hall i
        · simpa [ServiceState.proceed, hij] using hall i
      · by_cases hij : i = j
        · subst hij
          simpa [ServiceState.proceed] using (h.consumers i).step hstep
        · simpa [ServiceState.proceed, hij] using h.consumers i
    | @abort _ _ j hrunning =>
      refine ⟨fun rest hrest => ?_, fun hclosed => (h.closed rfl).imp_right fun hall i => ?_,
        fun i => ?_, ⟨hordered, hjoined⟩⟩
      · cases hrest
      · by_cases hij : i = j
        · subst hij
          simp [ServiceState.proceed, Forwarder.isRunning]
        · simpa [ServiceState.proceed, hij] using hall i
      · by_cases hij : i = j
        · subst hij
          simpa [ServiceState.proceed, Consumer.takes] using (h.consumers i).abort
        · simpa [ServiceState.proceed, hij] using h.consumers i

end BlockRangeHandler

/-! ### A stream of ranges -/

/-- The outcomes are the logs of ranges. -/
def AllFetched (outcomes : List (EventScannerResult D)) : Prop :=
  ∀ result ∈ outcomes, ∃ range logs, result = .ok (.data logs) ∧ FetchedFrom range logs

namespace CollectingTask

variable {count : ℕ} {outcomes : List (EventScannerResult D)}

/-- Behind the logs of ranges the task has gathered them, up to `count`. -/
lemma gathers_behind (hcount : 0 < count) (hfits : AllocatesLogs count)
    (houtcomes : AllFetched outcomes) :
    CollectingTask.Gathers count outcomes ((latestTask count).behind outcomes) := by
  induction outcomes using List.reverseRecOn with
  | nil => exact gathers_new hcount hfits
  | append_singleton outcomes result ih =>
    have hgathers := ih fun result hresult => houtcomes result (List.mem_append_left _ hresult)
    obtain ⟨range, logs, rfl, hlogs⟩ := houtcomes result (by simp)
    rw [ProcessingTask.behind_concat]
    by_cases hlooping :
        (latestTask count).status ((latestTask count).behind outcomes) = .looping
    · exact hgathers.process (fun _ => true) hlooping hlogs
    · -- more logs change nothing once there are enough
      have hsame := foldl_process_eq_self hlooping [.ok (.data logs)]
      obtain ⟨hsent, hphase⟩ := hgathers
      have hfull : count ≤ (gather outcomes).length := by
        by_contra hless
        refine hlooping ?_
        unfold settle at hphase
        rw [if_neg hless] at hphase
        exact looping_of_phase_eq hphase
      refine ⟨(congrArg CollectingTask.sent hsame).trans hsent,
        (congrArg CollectingTask.phase hsame).trans (hphase.trans ?_)⟩
      unfold settle
      rw [gather_append, if_pos hfull, if_pos (by rw [List.length_append]; omega),
        List.take_append_of_le_length hfull]

/-- Behind the logs of ranges the task is in its loop as long as there are not enough. -/
lemma looping_behind_iff (hcount : 0 < count) (hfits : AllocatesLogs count)
    (houtcomes : AllFetched outcomes) :
    (latestTask count).status ((latestTask count).behind outcomes) = .looping ↔
      (gather outcomes).length < count := by
  have hgathers := gathers_behind hcount hfits houtcomes
  refine ⟨fun hlooping => (hgathers.of_looping hlooping).1, fun hless => ?_⟩
  have hphase := hgathers.2
  unfold settle at hphase
  rw [if_neg (Nat.not_le.mpr hless)] at hphase
  exact looping_of_phase_eq hphase

end CollectingTask

namespace BlockRangeHandler

variable {config : HandlerConfig} {count : ℕ} {getLogs : Fin n → GetLogs D}
  {ranges : List RangeInclusive}

/-- **On a stream of ranges that the broadcast channel can keep**, the collecting tasks leave their
loops early if and only if the channel to a collecting task cannot hold all ranges, and for each
listener there are `count` logs in all but the last `2 * maxConcurrentFetches` of them. -/
theorem stopsEarly_iff (hcount : 0 < count) (hfits : AllocatesLogs count)
    (hkept : ranges.length ≤ config.capacity)
    (hanswers : ∀ i, AllFetched (outcomesOf (getLogs i) (ranges.map dataItem))) :
    (latestEventsHandler config count getLogs).StopsEarly (ranges.map dataItem) ↔
      ∀ i, config.maxConcurrentFetches < ranges.length ∧
        count ≤ (gather ((outcomesOf (getLogs i) (ranges.map dataItem)).take
          (ranges.length - 2 * config.maxConcurrentFetches))).length := by
  have hlength : (ranges.map dataItem).length = ranges.length := List.length_map _
  have hfetched (i : Fin n) : AllFetched ((outcomesOf (getLogs i) (ranges.map dataItem)).take
      (ranges.length - 2 * config.maxConcurrentFetches)) :=
    fun result hresult => hanswers i result (List.mem_of_mem_take hresult)
  have hlooping (i : Fin n) := CollectingTask.looping_behind_iff hcount hfits (hfetched i)
  constructor
  · intro hstops i
    have hwhole : AccountsFor config.capacity _ _ _ :=
      Broadcast.Accounts.take (le_refl (ranges.map dataItem).length)
    rw [List.take_length] at hwhole
    obtain ⟨hlong, hleft⟩ := hstops i _ hwhole
    rw [hlength] at hlong hleft
    exact ⟨hlong, Nat.le_of_not_lt fun hless => hleft ((hlooping i).mpr hless)⟩
  · intro hall i got haccounts
    obtain ⟨hlong, henough⟩ := hall i
    have hgot := haccounts.eq_take (by rw [hlength]; exact hkept)
    rw [List.take_length] at hgot
    subst hgot
    rw [hlength]
    exact ⟨hlong, fun hstays => absurd ((hlooping i).mp hstays) (Nat.not_lt.mpr henough)⟩

end BlockRangeHandler

end EventScanner
