import EventScanner.BlockRangeHandler.Termination

set_option relaxedAutoImplicit false
set_option autoImplicit false

/-!
# A handler and its listeners

A block-range handler on a finite stream, with listeners that may drop their receivers at any time.
A history variable keeps the messages that the processing task of each listener has taken from its
channel.

## Main definitions

* `EventScanner.ServiceState`, `EventScanner.BlockRangeHandler.service` — the handler and its
  listeners as a system of actions.
* `EventScanner.Consumer.handled` — the outcomes that a processing task has handled.
* `EventScanner.Consumer.relayed` — what has come through to a processing task.
* `EventScanner.Network.Calm` — no task has failed.

## Main results

* `EventScanner.BlockRangeHandler.service_invariant` — the rule for invariants that relate a
  processing task to the outcomes it has handled.
* `EventScanner.BlockRangeHandler.relayed_invariant` — the rule for what comes through to it.
* `EventScanner.BlockRangeHandler.ends` — every interleaving comes to its end.
* `EventScanner.Network.Calm.returned_of_quiet` — without a failure, `handle` has returned by then.
-/

namespace EventScanner

variable {n : ℕ} {τ D : Type}

/-- The messages that the processing task takes in a step. -/
def Consumer.takes (c c' : Consumer τ D) : List BlockScannerResult :=
  c.buffer.take (c'.pulled - c.pulled)

/-- Without a new message nothing is taken. -/
lemma Consumer.take_pulled (c : Consumer τ D) : c.buffer.take (c.pulled - c.pulled) = [] := by
  rw [Nat.sub_self, List.take_zero]

/-- The first message of the channel is taken. -/
lemma Consumer.take_pulled_succ {c : Consumer τ D} {message : BlockScannerResult}
    {buffer : List BlockScannerResult} (hbuffer : c.buffer = message :: buffer) :
    c.buffer.take (c.pulled + 1 - c.pulled) = [message] := by
  rw [Nat.add_sub_cancel_left, hbuffer]
  rfl

@[simp] lemma Consumer.takes_self (c : Consumer τ D) : c.takes c = [] := c.take_pulled

/-- A step of a handler or of a listener. -/
inductive ServiceAction (n : ℕ)
  /-- A step of the handler or of a consumer. -/
  | network (a : NetworkAction n)
  /-- A listener drops its receiver. -/
  | drop (i : Fin n)

/-- The tasks of a handler, and what has become of its listeners. -/
structure ServiceState (n : ℕ) (τ D : Type) where
  /-- The handler and the consumers. -/
  network : Network n τ D
  /-- The receivers that are gone. -/
  dropped : Fin n → Bool
  /-- The messages that the processing tasks have taken. -/
  taken : Fin n → List BlockScannerResult

namespace ServiceState

/-- The listeners that are still there. -/
def listening (s : ServiceState n τ D) (i : Fin n) : Bool := !s.dropped i

/-- The tasks after a step. -/
def proceed (s : ServiceState n τ D) (network : Network n τ D) : ServiceState n τ D where
  network := network
  dropped := s.dropped
  taken i := s.taken i ++ (s.network.consumers i).takes (network.consumers i)

/-- A listener drops its receiver. -/
def drop (s : ServiceState n τ D) (i : Fin n) : ServiceState n τ D :=
  { s with dropped := Function.update s.dropped i true }

/-- No forwarding task has fallen behind. -/
def NoLag (s : ServiceState n τ D) : Prop := ∀ i, (s.network.consumers i).hasLagged = false

/-- A listener that has kept its receiver and has not lagged. -/
def Keeps (s : ServiceState n τ D) (i : Fin n) : Prop :=
  s.dropped i = false ∧ (s.network.consumers i).hasLagged = false

end ServiceState

namespace BlockRangeHandler

variable (handler : BlockRangeHandler n τ D)

/-- Before the first step. -/
def serviceStart (messages : List BlockScannerResult) : ServiceState n τ D :=
  ⟨handler.start messages, fun _ => false, fun _ => []⟩

/-- A step of the handler or of a listener. -/
def serviceAct (a : ServiceAction n) (s : ServiceState n τ D) : Option (ServiceState n τ D) :=
  match a with
  | .network a => (handler.act s.listening s.network a).map s.proceed
  | .drop i => if s.dropped i = false then some (s.drop i) else none

/-- A handler and its listeners as a system of actions. -/
def service : ActionSystem (ServiceState n τ D) (ServiceAction n) := ⟨handler.serviceAct⟩

/-- What a listener has received, in order. -/
def received (s : ServiceState n τ D) (i : Fin n) : List (EventScannerResult D) :=
  (handler.inner.sent (s.network.consumers i).task).reverse

/-- The handler and its consumers can do nothing more. -/
def Quiet (s : ServiceState n τ D) : Prop := ∀ a, handler.act s.listening s.network a = none

end BlockRangeHandler

/-! ### The steps by cases -/

/-- A step of a handler or of a listener. -/
inductive ServiceStep (handler : BlockRangeHandler n τ D) :
    ServiceState n τ D → ServiceState n τ D → Prop
  /-- A step of the handler or of a consumer. -/
  | network {s : ServiceState n τ D} {network : Network n τ D} :
      NetworkStep handler s.listening s.network network →
      ServiceStep handler s (s.proceed network)
  /-- A listener drops its receiver. -/
  | drop {s : ServiceState n τ D} (i : Fin n) :
      s.dropped i = false → ServiceStep handler s (s.drop i)

section Steps

variable {handler : BlockRangeHandler n τ D} {s t : ServiceState n τ D}

/-- What the handler and its listeners do are these steps. -/
lemma serviceStep_of_step (h : handler.service.Step s t) : ServiceStep handler s t := by
  obtain ⟨a, ha⟩ := h
  change handler.serviceAct a s = some t at ha
  cases a with
  | network a =>
    obtain ⟨network, hnetwork, rfl⟩ := Option.map_eq_some_iff.mp ha
    exact .network (networkStep_of_act hnetwork)
  | drop i =>
    unfold BlockRangeHandler.serviceAct at ha
    dsimp only at ha
    split_ifs at ha with hdrop
    obtain rfl := Option.some.inj ha
    exact .drop i hdrop

/-- A step of the handler or of a consumer is a step of the system. -/
lemma reach_proceed {s₀ : ServiceState n τ D} {a : NetworkAction n} {network : Network n τ D}
    (h : handler.service.Reach s₀ s) (ha : handler.act s.listening s.network a = some network) :
    handler.service.Reach s₀ (s.proceed network) := by
  have hact : handler.serviceAct (.network a) s = some (s.proceed network) := by
    unfold BlockRangeHandler.serviceAct
    simp only [ha, Option.map_some]
  exact h.tail ⟨.network a, hact⟩

/-- A listener may drop its receiver. -/
lemma reach_drop {s₀ : ServiceState n τ D} {i : Fin n} (h : handler.service.Reach s₀ s)
    (hkeeps : s.dropped i = false) : handler.service.Reach s₀ (s.drop i) := by
  have hact : handler.serviceAct (.drop i) s = some (s.drop i) := if_pos hkeeps
  exact h.tail ⟨.drop i, hact⟩

/-- What a step does to a consumer. -/
lemma ServiceStep.consumer_cases (h : ServiceStep handler s t) (i : Fin n) :
    (t.network.consumers i = s.network.consumers i ∧ t.taken i = s.taken i) ∨
      (ConsumerStep handler.config handler.inner (handler.getLogs i) s.network.sent
          s.network.broadcaster.isClosed (s.listening i) (s.network.consumers i)
          (t.network.consumers i) ∧
        t.taken i =
          s.taken i ++ (s.network.consumers i).takes (t.network.consumers i)) ∨
      (s.network.broadcaster = .panicked ∧ t.taken i = s.taken i ∧
        t.network.consumers i = { s.network.consumers i with forwarder := .aborted }) := by
  cases h with
  | network hst =>
    rcases hst.consumer_cases i with hsame | hstep | ⟨hpanicked, -, habort⟩
    · exact Or.inl ⟨hsame, by simp [ServiceState.proceed, hsame]⟩
    · exact Or.inr (Or.inl ⟨hstep, rfl⟩)
    · refine Or.inr (Or.inr ⟨hpanicked, ?_, habort⟩)
      simp [ServiceState.proceed, habort, Consumer.takes]
  | drop => exact Or.inl ⟨rfl, rfl⟩

/-- A forwarding task that has not fallen behind has not done so before. -/
lemma ConsumerStep.hasLagged_eq_false {cfg : HandlerConfig} {inner : ProcessingTask τ D}
    {getLogs : GetLogs D} {sent : List BlockScannerResult} {closed listening : Bool}
    {c c' : Consumer τ D} (h : ConsumerStep cfg inner getLogs sent closed listening c c')
    (hlag : c'.hasLagged = false) : c.hasLagged = false := by
  cases h with
  | lag => cases hlag
  | recv | close | send | gone | pull | fetched | process | finish => exact hlag

end Steps

/-! ### What has been sent to the broadcast channel -/

/-- The messages still to come. -/
def Broadcaster.pending : Broadcaster → List BlockScannerResult
  | .streaming messages => messages
  | .joining | .returned | .panicked => []

/-- Only messages of the stream are sent, in order. -/
lemma NetworkStep.sent_isPrefix {handler : BlockRangeHandler n τ D} {listening : Fin n → Bool}
    {s t : Network n τ D} {messages : List BlockScannerResult}
    (h : NetworkStep handler listening s t)
    (hsent : s.sent ++ s.broadcaster.pending <+: messages) :
    t.sent ++ t.broadcaster.pending <+: messages := by
  cases h with
  | broadcast => exact (List.append_assoc _ _ _).symm ▸ hsent
  | close => exact (List.append_nil _).symm ▸ (List.prefix_append _ _).trans hsent
  | joined | joinPanic | task | abort => exact hsent

/-! ### What comes through to the processing tasks -/

/-- What has come through to a processing task, its channel and the hand of its forwarding task,
given the messages taken. -/
def Consumer.relayed (taken : List BlockScannerResult) (c : Consumer τ D) :
    List BlockScannerResult :=
  taken ++ c.buffer ++ c.forwarder.inHand

/-- What a step does to what has come through, and to the position in the broadcast channel. -/
inductive Relays (sent relayed relayed' : List BlockScannerResult) (next next' : ℕ) : Prop
  /-- Nothing is received; the message in hand may be lost. -/
  | keep : relayed' <+: relayed → next' = next → Relays sent relayed relayed' next next'
  /-- The next message is received. -/
  | receive (h : next < sent.length) : relayed' = relayed ++ [sent[next]] → next' = next + 1 →
      Relays sent relayed relayed' next next'
  /-- The forwarding task has fallen behind. -/
  | lag (skipped : ℕ) : next < sent.length → relayed' = relayed ++ [.error (.lagged skipped)] →
      Relays sent relayed relayed' next next'

/-- What comes through in a step of a consumer. -/
lemma ConsumerStep.relays {cfg : HandlerConfig} {inner : ProcessingTask τ D} {getLogs : GetLogs D}
    {sent : List BlockScannerResult} {closed listening : Bool} {c c' : Consumer τ D}
    (h : ConsumerStep cfg inner getLogs sent closed listening c c')
    (taken : List BlockScannerResult) :
    Relays sent (c.relayed taken) (c'.relayed (taken ++ c.takes c')) c.next c'.next := by
  unfold Consumer.relayed Consumer.takes
  cases h with
  | recv hlt hf =>
    rw [c.take_pulled, List.append_nil]
    exact .receive hlt (by simp [hf, Forwarder.inHand]) rfl
  | lag hf hlag =>
    rw [c.take_pulled, List.append_nil]
    exact .lag _ (by omega) (by simp [hf, Forwarder.inHand]; rfl)
  | close hf | send hf =>
    rw [c.take_pulled, List.append_nil]
    exact .keep (by simp [hf, Forwarder.inHand]) rfl
  | gone hf =>
    rw [c.take_pulled, List.append_nil]
    refine .keep ?_ rfl
    dsimp only
    split_ifs <;> simp [Forwarder.inHand]
  | @pull message buffer _ _ hbuffer =>
    rw [Consumer.take_pulled_succ hbuffer]
    exact .keep (by simp [hbuffer]) rfl
  | fetched | process | finish =>
    rw [c.take_pulled, List.append_nil]
    exact .keep (List.prefix_refl _) rfl

/-! ### What the processing tasks have handled -/

/-- The outcomes that a processing task has handled, given the messages it has taken: all but those
in flight. -/
def Consumer.handled (getLogs : GetLogs D) (taken : List BlockScannerResult) (c : Consumer τ D) :
    List (EventScannerResult D) :=
  (outcomesOf getLogs taken).take (taken.length - c.inFlight.length)

/-- The books of a consumer agree with the messages its processing task has taken. -/
structure Ledger (getLogs : GetLogs D) (taken : List BlockScannerResult) (c : Consumer τ D) :
    Prop where
  /-- The number of messages taken. -/
  length_taken : taken.length = c.pulled
  /-- The last outcomes are in flight, and the others have been handled. -/
  outcomes : outcomesOf getLogs taken = c.handled getLogs taken ++ c.inFlight.map Prod.fst

section Ledger

variable {cfg : HandlerConfig} {inner : ProcessingTask τ D} {getLogs : GetLogs D}
  {sent : List BlockScannerResult} {closed listening : Bool} {c c' : Consumer τ D}
  {taken : List BlockScannerResult} {handled : List (EventScannerResult D)}

@[simp] lemma length_outcomesOf (getLogs : GetLogs D) (messages : List BlockScannerResult) :
    (outcomesOf getLogs messages).length = messages.length := List.length_mapIdx

/-- What has been handled is determined by what is in flight. -/
lemma Consumer.handled_eq (h : outcomesOf getLogs taken = handled ++ c.inFlight.map Prod.fst) :
    c.handled getLogs taken = handled := by
  have hlen := congrArg List.length h
  rw [length_outcomesOf, List.length_append, List.length_map] at hlen
  unfold Consumer.handled
  rw [h, hlen, Nat.add_sub_cancel, List.take_left]

variable (getLogs c taken handled) in
/-- The books agree when the last outcomes are in flight. -/
lemma ledger_of_outcomes (hlen : taken.length = c.pulled)
    (h : outcomesOf getLogs taken = handled ++ c.inFlight.map Prod.fst) :
    Ledger getLogs taken c ∧ c.handled getLogs taken = handled :=
  ⟨⟨hlen, by rw [Consumer.handled_eq h, h]⟩, Consumer.handled_eq h⟩

/-- What a step does to the task and to the outcomes handled. -/
inductive Handles (inner : ProcessingTask τ D) (listening : Bool) (c c' : Consumer τ D)
    (handled handled' : List (EventScannerResult D)) : Prop
  /-- Nothing is handled; a task that is behind its loop takes nothing either. -/
  | idle : c'.task = c.task → handled' = handled → c'.ended = c.ended →
      (c.isWaiting inner ∨ c'.inFlight = c.inFlight) →
      Handles inner listening c c' handled handled'
  /-- A result is handled. -/
  | process (result : EventScannerResult D) : c.isWaiting inner →
      c.inFlight.map Prod.fst = result :: c'.inFlight.map Prod.fst →
      c'.task = inner.process listening c.task result →
      handled' = handled ++ [result] →
      c'.ended = decide (inner.status c'.task = .over) →
      Handles inner listening c c' handled handled'
  /-- The task ends. -/
  | finish : c.ended = false → c.isFinishing inner →
      c'.task = inner.finish listening c.task → handled' = handled → c'.ended = true →
      Handles inner listening c c' handled handled'

/-- **One step keeps the books.**

**Proof sketch.** Only a message that is taken, a fetch that gets ready, and a result that is
handled change what is in flight. -/
lemma Ledger.step (h : Ledger getLogs taken c)
    (hstep : ConsumerStep cfg inner getLogs sent closed listening c c') :
    Ledger getLogs (taken ++ c.takes c') c' ∧
      Handles inner listening c c' (c.handled getLogs taken)
        (c'.handled getLogs (taken ++ c.takes c')) := by
  unfold Consumer.takes
  cases hstep with
  | recv | lag | close | send | gone =>
    rw [c.take_pulled, List.append_nil]
    exact ⟨⟨h.length_taken, h.outcomes⟩, .idle rfl rfl rfl (Or.inr rfl)⟩
  | @pull message buffer hwaiting _ hbuffer =>
    dsimp only
    rw [Consumer.take_pulled_succ hbuffer]
    obtain ⟨hledger, hhandled⟩ := ledger_of_outcomes getLogs
      { c with
        buffer := buffer
        pulled := c.pulled + 1
        inFlight := c.inFlight ++ [(fetchResult (getLogs c.pulled) message, false)] }
      (taken ++ [message]) (c.handled getLogs taken) (by simp [h.length_taken])
      (by rw [outcomesOf_concat, h.length_taken, h.outcomes]; simp)
    exact ⟨hledger, .idle rfl hhandled rfl (Or.inl hwaiting)⟩
  | @fetched j result hwaiting hfetch =>
    have hresult : (c.inFlight.map Prod.fst)[j]? = some result := by
      rw [List.getElem?_map, hfetch]
      rfl
    obtain ⟨hj, hget⟩ := List.getElem?_eq_some_iff.mp hresult
    have hsame : (c.inFlight.set j (result, true)).map Prod.fst = c.inFlight.map Prod.fst := by
      calc (c.inFlight.set j (result, true)).map Prod.fst
          = (c.inFlight.map Prod.fst).set j result := List.map_set
        _ = c.inFlight.map Prod.fst := by rw [← hget, List.set_getElem_self]
    rw [c.take_pulled, List.append_nil]
    obtain ⟨hledger, hhandled⟩ := ledger_of_outcomes getLogs
      { c with inFlight := c.inFlight.set j (result, true) } taken _ h.length_taken
      (h.outcomes.trans (by rw [hsame]))
    exact ⟨hledger, .idle rfl hhandled rfl (Or.inl hwaiting)⟩
  | @process result inFlight hwaiting hfirst =>
    rw [c.take_pulled, List.append_nil]
    obtain ⟨hledger, hhandled⟩ := ledger_of_outcomes getLogs
      { c with
        inFlight := inFlight
        task := inner.process listening c.task result
        ended := decide (inner.status (inner.process listening c.task result) = .over) }
      taken (c.handled getLogs taken ++ [result]) h.length_taken
      (h.outcomes.trans (by rw [hfirst]; simp))
    exact ⟨hledger, .process result hwaiting (by simp [hfirst]) rfl hhandled rfl⟩
  | finish hnot hfinishing =>
    rw [c.take_pulled, List.append_nil]
    exact ⟨⟨h.length_taken, h.outcomes⟩, .finish hnot hfinishing rfl rfl rfl⟩

end Ledger

/-! ### Invariants of a service -/

namespace BlockRangeHandler

variable (handler : BlockRangeHandler n τ D)

/-- The outcomes that have been handled for a listener. -/
def handled (s : ServiceState n τ D) (i : Fin n) : List (EventScannerResult D) :=
  (s.network.consumers i).handled (handler.getLogs i) (s.taken i)

/-- The books of a consumer agree, and its processing task satisfies a property that depends on
the outcomes handled. -/
structure Attended (I : List (EventScannerResult D) → τ → Prop) (s : ServiceState n τ D)
    (i : Fin n) : Prop where
  /-- The books agree. -/
  ledger : Ledger (handler.getLogs i) (s.taken i) (s.network.consumers i)
  /-- A task that is over has ended. -/
  ended : handler.inner.status (s.network.consumers i).task = .over →
    (s.network.consumers i).ended = true
  /-- The property. -/
  task : I (handler.handled s i) (s.network.consumers i).task

variable {handler} {s t : ServiceState n τ D} {I : List (EventScannerResult D) → τ → Prop}

/-- **One step keeps a property of the processing tasks** that results and the ends of the tasks
keep. -/
lemma Attended.step
    (hprocess : ∀ handled task listening result, handler.inner.status task = .looping →
      I handled task → I (handled ++ [result]) (handler.inner.process listening task result))
    (hfinish : ∀ handled task listening, I handled task →
      I handled (handler.inner.finish listening task))
    {i : Fin n} (h : handler.Attended I s i) (hst : ServiceStep handler s t) :
    handler.Attended I t i := by
  rcases hst.consumer_cases i with ⟨hc, ht⟩ | ⟨hc, ht⟩ | ⟨-, ht, hc⟩
  · refine ⟨?_, ?_, ?_⟩
    · rw [hc, ht]
      exact h.ledger
    · rw [hc]
      exact h.ended
    · unfold handled
      rw [hc, ht]
      exact h.task
  · obtain ⟨hledger, hhandles⟩ := h.ledger.step hc
    refine ⟨by rw [ht]; exact hledger, ?_, ?_⟩
    · cases hhandles with
      | idle htask _ hended =>
        rw [htask, hended]
        exact h.ended
      | process result _ _ _ _ hended =>
        rw [hended]
        simp
      | finish _ _ _ _ hended => exact fun _ => hended
    · unfold handled
      rw [ht]
      cases hhandles with
      | idle htask hhandled =>
        rw [htask, hhandled]
        exact h.task
      | process result hwaiting _ htask hhandled =>
        rw [htask, hhandled]
        exact hprocess _ _ _ _ hwaiting.2 h.task
      | finish _ _ htask hhandled =>
        rw [htask, hhandled]
        exact hfinish _ _ _ h.task
  · refine ⟨?_, ?_, ?_⟩
    · rw [hc, ht]
      exact ⟨h.ledger.length_taken, h.ledger.outcomes⟩
    · rw [hc]
      exact h.ended
    · unfold handled
      rw [hc, ht]
      exact h.task

/-- **The rule for invariants of the processing tasks.** -/
theorem service_invariant {messages : List BlockScannerResult} (hnew : I [] handler.inner.new)
    (hprocess : ∀ handled task listening result, handler.inner.status task = .looping →
      I handled task → I (handled ++ [result]) (handler.inner.process listening task result))
    (hfinish : ∀ handled task listening, I handled task →
      I handled (handler.inner.finish listening task))
    (h : handler.service.Reach (handler.serviceStart messages) s) (i : Fin n) :
    handler.Attended I s i := by
  have hstart : handler.Attended I (handler.serviceStart messages) i := by
    exact ⟨⟨rfl, rfl⟩, fun hover => absurd hover handler.inner.status_new, hnew⟩
  exact ActionSystem.invariant (I := fun s => handler.Attended I s i)
    (fun s t hst hI => hI.step hprocess hfinish (serviceStep_of_step hst)) h hstart

/-- The books agree, and a task that is over has ended. -/
lemma attended_of_reach {messages : List BlockScannerResult}
    (h : handler.service.Reach (handler.serviceStart messages) s) (i : Fin n) :
    handler.Attended (fun _ _ => True) s i :=
  service_invariant trivial (fun _ _ _ _ _ _ => trivial) (fun _ _ _ _ => trivial) h i

/-- **The rule for what comes through**: an invariant of it and of the position in the broadcast
channel that every step keeps, given that only messages of the stream are sent. -/
theorem relayed_invariant {messages : List BlockScannerResult}
    {I : List BlockScannerResult → ℕ → Prop} (hstart : I [] 0)
    (hstep : ∀ sent relayed relayed' next next', sent <+: messages →
      Relays sent relayed relayed' next next' → I relayed next → I relayed' next')
    (h : handler.service.Reach (handler.serviceStart messages) s) (i : Fin n) :
    I ((s.network.consumers i).relayed (s.taken i)) (s.network.consumers i).next := by
  have hinvariant : s.network.sent ++ s.network.broadcaster.pending <+: messages ∧
      I ((s.network.consumers i).relayed (s.taken i)) (s.network.consumers i).next := by
    refine ActionSystem.invariant
      (I := fun s : ServiceState n τ D =>
        s.network.sent ++ s.network.broadcaster.pending <+: messages ∧
          I ((s.network.consumers i).relayed (s.taken i)) (s.network.consumers i).next)
      (fun s t hst hI => ?_) h ⟨List.prefix_refl _, hstart⟩
    have hservice := serviceStep_of_step hst
    have hsent := (List.prefix_append _ _).trans hI.1
    refine ⟨?_, ?_⟩
    · cases hservice with
      | network hnetwork => exact hnetwork.sent_isPrefix hI.1
      | drop => exact hI.1
    · rcases hservice.consumer_cases i with ⟨hc, ht⟩ | ⟨hc, ht⟩ | ⟨-, ht, hc⟩
      · rw [hc, ht]
        exact hI.2
      · rw [ht]
        exact hstep _ _ _ _ _ hsent (hc.relays _) hI.2
      · rw [hc, ht]
        refine hstep _ _ _ _ _ hsent (.keep ?_ rfl) hI.2
        simp [Consumer.relayed, Forwarder.inHand]
  exact hinvariant.2

/-- Whatever has happened, only so much can follow: every step lowers the work left, and a listener
drops its receiver once. -/
lemma exists_bound (handler : BlockRangeHandler n τ D) (s : ServiceState n τ D) :
    ∃ bound, ∀ as t, handler.service.run as s = some t → as.length ≤ bound := by
  let work (s : ServiceState n τ D) : ℕ := s.network.work + ∑ i, if s.dropped i then 0 else 1
  refine ⟨work s, fun as t hrun => ?_⟩
  refine ActionSystem.length_le_of_run (I := fun _ => True) (fun _ _ _ h => h)
    (fun s t hst _ => ?_) trivial hrun
  cases serviceStep_of_step hst with
  | network hnetwork => exact Nat.add_lt_add_right hnetwork.work_lt _
  | drop i hdrop =>
    refine Nat.add_lt_add_left (Finset.sum_lt_sum (fun j _ => ?_) ⟨i, Finset.mem_univ i, ?_⟩) _
    · by_cases hij : j = i
      · subst hij
        simp [ServiceState.drop]
      · simp [ServiceState.drop, hij]
    · simp [ServiceState.drop, hdrop]

/-- Every interleaving comes to its end. -/
lemma ends (handler : BlockRangeHandler n τ D) (messages : List BlockScannerResult) :
    ∃ bound, ∀ as s, handler.service.run as (handler.serviceStart messages) = some s →
      as.length ≤ bound :=
  handler.exists_bound _

end BlockRangeHandler

/-! ### Handlers without failures -/

/-- No task has failed: the handler has not panicked, and every forwarding task is running or has
ended by itself. -/
structure Network.Calm (s : Network n τ D) : Prop where
  /-- The handler has not panicked. -/
  broadcaster : s.broadcaster ≠ .panicked
  /-- The forwarding tasks. -/
  forwarder : ∀ i, (s.consumers i).forwarder.isRunning = true ∨ (s.consumers i).forwarder = .done

section Calm

variable {handler : BlockRangeHandler n τ D} {listening : Fin n → Bool} {s t : Network n τ D}

/-- A step of a consumer in which no forwarding task panics. -/
lemma ConsumerStep.calm {cfg : HandlerConfig} {inner : ProcessingTask τ D} {getLogs : GetLogs D}
    {sent : List BlockScannerResult} {closed listening : Bool} {c c' : Consumer τ D}
    (h : ConsumerStep cfg inner getLogs sent closed listening c c')
    (hgone : ∀ message lagged, c.forwarder = .sending message lagged → c.ended = true →
      inner.leavesLoop = true ∧ lagged = false)
    (hc : c.forwarder.isRunning = true ∨ c.forwarder = .done) :
    c'.forwarder.isRunning = true ∨ c'.forwarder = .done := by
  cases h with
  | recv | lag | send => exact Or.inl rfl
  | close => exact Or.inr rfl
  | gone hsending hended =>
    obtain ⟨hleaves, rfl⟩ := hgone _ _ hsending hended
    exact Or.inr (by simp [hleaves])
  | pull | fetched | process | finish => exact hc

/-- A processing task that has ended stays so. -/
lemma ConsumerStep.ended_of_ended {cfg : HandlerConfig} {inner : ProcessingTask τ D}
    {getLogs : GetLogs D} {sent : List BlockScannerResult} {closed listening : Bool}
    {c c' : Consumer τ D} (h : ConsumerStep cfg inner getLogs sent closed listening c c')
    (hended : c.ended = true) : c'.ended = true := by
  cases h with
  | recv | lag | close | gone => exact hended
  | send _ hnot => exact absurd (hnot.symm.trans hended) (by decide)
  | pull hwaiting | fetched hwaiting | process hwaiting =>
    exact absurd (hwaiting.1.symm.trans hended) (by decide)
  | finish => rfl

/-- A forwarding task that is not running stays as it is. -/
lemma ConsumerStep.forwarder_eq_of_stopped {cfg : HandlerConfig} {inner : ProcessingTask τ D}
    {getLogs : GetLogs D} {sent : List BlockScannerResult} {closed listening : Bool}
    {c c' : Consumer τ D} (h : ConsumerStep cfg inner getLogs sent closed listening c c')
    (hstopped : c.forwarder.isRunning = false) : c'.forwarder = c.forwarder := by
  cases h with
  | recv _ hf | lag hf | close hf | send hf | gone hf => simp [hf, Forwarder.isRunning] at hstopped
  | pull | fetched | process | finish => rfl

/-- **One step keeps the calm**, if a forwarding task that finds its processing task gone leaves its
loop. -/
lemma Network.Calm.step (h : s.Calm) (hst : NetworkStep handler listening s t)
    (hgone : ∀ i message lagged, (s.consumers i).forwarder = .sending message lagged →
      (s.consumers i).ended = true → handler.inner.leavesLoop = true ∧ lagged = false) :
    t.Calm := by
  refine ⟨?_, fun i => ?_⟩
  · cases hst with
    | @joinPanic _ _ i hpanicked =>
      rcases h.forwarder i with hrunning | hdone
      · simp [hpanicked, Forwarder.isRunning] at hrunning
      · simp [hpanicked] at hdone
    | broadcast | close | joined => simp
    | task => exact h.broadcaster
    | abort => exact absurd rfl h.broadcaster
  · rcases hst.consumer_cases i with hsame | hstep | ⟨hpanicked, -⟩
    · rw [hsame]
      exact h.forwarder i
    · exact hstep.calm (hgone i) (h.forwarder i)
    · exact absurd hpanicked h.broadcaster

end Calm

section Quiet

variable {handler : BlockRangeHandler n τ D} {s : ServiceState n τ D}

/-- A handler that can do nothing more has closed the broadcast channel. -/
lemma BlockRangeHandler.Quiet.isClosed (hquiet : handler.Quiet s) :
    s.network.broadcaster.isClosed = true := by
  have hnext := hquiet .next
  unfold BlockRangeHandler.act BlockRangeHandler.next at hnext
  match hb : s.network.broadcaster with
  | .streaming [] => simp [hb] at hnext
  | .streaming (message :: messages) =>
    simp only [hb] at hnext
    split_ifs at hnext
  | .joining | .returned | .panicked => rfl

/-- When nothing more happens, both tasks of every listener have ended. -/
lemma BlockRangeHandler.Quiet.ended (hquiet : handler.Quiet s) {i : Fin n}
    (hover : handler.inner.status (s.network.consumers i).task = .over →
      (s.network.consumers i).ended = true) :
    (s.network.consumers i).forwarder.isRunning = false ∧
      (s.network.consumers i).ended = true := by
  have htask : ∀ a, (s.network.consumers i).act handler.config handler.inner (handler.getLogs i)
      s.network.sent true (s.listening i) a = none := by
    intro a
    have hact := Option.map_eq_none_iff.mp (hquiet (.task i a))
    rwa [hquiet.isClosed] at hact
  exact Consumer.ended_of_quiet hover htask

/-- Only a handler that has panicked cancels a forwarding task. -/
lemma broadcaster_of_aborted {messages : List BlockScannerResult}
    (h : handler.service.Reach (handler.serviceStart messages) s) {i : Fin n}
    (haborted : (s.network.consumers i).forwarder = .aborted) :
    s.network.broadcaster = .panicked := by
  have hstep (s t : ServiceState n τ D) (hst : handler.service.Step s t)
      (hI : ∀ i, (s.network.consumers i).forwarder = .aborted →
        s.network.broadcaster = .panicked) (i : Fin n)
      (hi : (t.network.consumers i).forwarder = .aborted) : t.network.broadcaster = .panicked := by
    have hpast : s.network.broadcaster = .panicked := by
      rcases (serviceStep_of_step hst).consumer_cases i with ⟨hc, -⟩ | ⟨hc, -⟩ | ⟨hpanicked, -⟩
      · exact hI i (hc ▸ hi)
      · generalize t.network.consumers i = c' at hc hi
        cases hc with
        | recv | lag | close | send => cases hi
        | gone =>
          dsimp only at hi
          split_ifs at hi
        | pull | fetched | process | finish => exact hI i hi
      · exact hpanicked
    obtain ⟨network, dropped, taken⟩ := s
    cases serviceStep_of_step hst with
    | drop => exact hpast
    | network hnetwork =>
      cases hnetwork with
      | task | abort => exact hpast
      | broadcast | close | joined | joinPanic => cases hpast
  refine ActionSystem.invariant hstep h (fun i hi => ?_) i haborted
  simp [BlockRangeHandler.serviceStart, BlockRangeHandler.start, Consumer.new] at hi

/-- **When nothing more happens and the handler has not panicked**, it has returned, and all
forwarding tasks have ended by themselves. -/
theorem BlockRangeHandler.Quiet.returned {messages : List BlockScannerResult}
    (hquiet : handler.Quiet s) (h : handler.service.Reach (handler.serviceStart messages) s)
    (hover : ∀ i, handler.inner.status (s.network.consumers i).task = .over →
      (s.network.consumers i).ended = true) (hcalm : s.network.broadcaster ≠ .panicked) :
    s.network.broadcaster = .returned := by
  have hjoin := hquiet .join
  unfold BlockRangeHandler.act BlockRangeHandler.join at hjoin
  cases hb : s.network.broadcaster with
  | returned => rfl
  | panicked => exact absurd hb hcalm
  | streaming messages =>
    have hclosed := hquiet.isClosed
    simp [hb, Broadcaster.isClosed] at hclosed
  | joining =>
    simp only [hb] at hjoin
    split_ifs at hjoin with hall hpanicked
    refine absurd (fun i => ?_) hall
    cases hf : (s.network.consumers i).forwarder with
    | done => rfl
    | panicked => exact absurd ⟨i, hf⟩ hpanicked
    | aborted => exact absurd (broadcaster_of_aborted h hf) hcalm
    | receiving | sending =>
      have hnot := (hquiet.ended (hover i)).1
      simp [hf, Forwarder.isRunning] at hnot

end Quiet

end EventScanner
