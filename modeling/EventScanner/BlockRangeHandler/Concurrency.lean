import EventScanner.BlockRangeHandler.Service

set_option relaxedAutoImplicit false
set_option autoImplicit false

/-!
# How much a handler does at a time

The limit on concurrent fetches bounds, for each listener, the channel to its processing task and
the fetches in flight. So a handler for `n` listeners has at most `n` times as many log queries open
at a time, and the processing task of a listener is never far behind its forwarding task: what has
come through and has not been handled is at most twice the limit, and one message in hand.

## Main definitions

* `EventScanner.Consumer.openFetches`, `EventScanner.Network.openFetches` — the queries that are
  open.
* `EventScanner.Consumer.Bounded` — the invariant of a consumer.

## Main results

* `EventScanner.Network.openFetches_le_sum` — the queries of a handler.
* `EventScanner.BlockRangeHandler.backPressure` — what is bounded in every interleaving.
-/

namespace EventScanner

variable {n : ℕ} {τ D : Type}

/-- The log queries that a processing task is waiting for. When it has ended, they are cancelled. -/
def Consumer.openFetches (c : Consumer τ D) : ℕ :=
  if c.ended then 0 else c.inFlight.countP fun fetch => !fetch.2

/-- The log queries that are open for a handler. -/
def Network.openFetches (s : Network n τ D) : ℕ := ∑ i, (s.consumers i).openFetches

/-- A consumer keeps to the limit. -/
structure Consumer.Bounded (cfg : HandlerConfig) (c : Consumer τ D) : Prop where
  /-- The channel to the processing task. -/
  buffer : c.buffer.length ≤ cfg.maxConcurrentFetches
  /-- The fetches in flight. -/
  inFlight : c.inFlight.length ≤ cfg.maxConcurrentFetches

section Bounded

variable {cfg : HandlerConfig} {inner : ProcessingTask τ D} {getLogs : GetLogs D}
  {sent : List BlockScannerResult} {closed listening : Bool} {c c' : Consumer τ D}

/-- **One step keeps to the limit.** -/
lemma Consumer.Bounded.step (h : c.Bounded cfg)
    (hstep : ConsumerStep cfg inner getLogs sent closed listening c c') : c'.Bounded cfg := by
  cases hstep with
  | recv | lag | close | gone | finish => exact ⟨h.buffer, h.inFlight⟩
  | send _ _ hroom =>
    refine ⟨?_, h.inFlight⟩
    rw [List.length_append, List.length_singleton]
    omega
  | pull _ hroom hbuffer =>
    have hlen := h.buffer
    rw [hbuffer, List.length_cons] at hlen
    refine ⟨by dsimp only; omega, ?_⟩
    rw [List.length_append, List.length_singleton]
    omega
  | fetched =>
    refine ⟨h.buffer, ?_⟩
    rw [List.length_set]
    exact h.inFlight
  | process _ hfirst =>
    have hlen := h.inFlight
    rw [hfirst, List.length_cons] at hlen
    refine ⟨h.buffer, ?_⟩
    dsimp only
    omega

/-- The queries of a listener. -/
lemma Consumer.Bounded.openFetches_le_limit (h : c.Bounded cfg) :
    c.openFetches ≤ cfg.maxConcurrentFetches := by
  unfold Consumer.openFetches
  split_ifs
  · exact Nat.zero_le _
  · exact List.countP_le_length.trans h.inFlight

variable {handler : BlockRangeHandler n τ D} {listeners : Fin n → Bool} {s t : Network n τ D}

/-- One step of a handler keeps all its consumers to the limit. -/
lemma NetworkStep.bounded (hst : NetworkStep handler listeners s t)
    (h : ∀ i, (s.consumers i).Bounded handler.config) (i : Fin n) :
    (t.consumers i).Bounded handler.config := by
  rcases hst.consumer_cases i with heq | hstep | ⟨-, -, heq⟩
  · rw [heq]
    exact h i
  · exact (h i).step hstep
  · rw [heq]
    exact ⟨(h i).buffer, (h i).inFlight⟩

/-- Before the first step nothing is in flight. -/
lemma bounded_start (handler : BlockRangeHandler n τ D) (messages : List BlockScannerResult)
    (i : Fin n) : ((handler.start messages).consumers i).Bounded handler.config :=
  ⟨Nat.zero_le _, Nat.zero_le _⟩

/-- **The queries of a handler**: for each listener at most as many as the limit. -/
lemma Network.openFetches_le_sum (h : ∀ i, (s.consumers i).Bounded cfg) :
    s.openFetches ≤ n * cfg.maxConcurrentFetches := by
  calc s.openFetches ≤ ∑ _i : Fin n, cfg.maxConcurrentFetches :=
        Finset.sum_le_sum fun i _ => (h i).openFetches_le_limit
    _ = n * cfg.maxConcurrentFetches := by simp

end Bounded

namespace BlockRangeHandler

variable {handler : BlockRangeHandler n τ D} {messages : List BlockScannerResult}
  {s : ServiceState n τ D}

/-- **Back pressure**, in every interleaving: at most `n` times the limit queries are open, and of
the messages that have come through to a listener all but at most twice the limit and one have been
handled.

**Proof sketch.** What has come through is in the hand of the forwarding task, in the channel, in
flight, or handled. -/
theorem backPressure (h : handler.service.Reach (handler.serviceStart messages) s) :
    s.network.openFetches ≤ n * handler.config.maxConcurrentFetches ∧
      ∀ i, ((s.network.consumers i).relayed (s.taken i)).length ≤
        (handler.handled s i).length + (2 * handler.config.maxConcurrentFetches + 1) := by
  have hbounded : ∀ i, (s.network.consumers i).Bounded handler.config := by
    refine ActionSystem.invariant (I := fun s : ServiceState n τ D =>
      ∀ i, (s.network.consumers i).Bounded handler.config) (fun s t hst hI => ?_) h
      (bounded_start handler messages)
    cases serviceStep_of_step hst with
    | network hnetwork => exact hnetwork.bounded hI
    | drop => exact hI
  refine ⟨Network.openFetches_le_sum hbounded, fun i => ?_⟩
  have houtcomes := congrArg List.length (attended_of_reach h i).ledger.outcomes
  rw [length_outcomesOf, List.length_append, List.length_map] at houtcomes
  have hhand : (s.network.consumers i).forwarder.inHand.length ≤ 1 := by
    unfold Forwarder.inHand
    split <;> simp
  obtain ⟨hbuffer, hflight⟩ := hbounded i
  unfold Consumer.relayed handled
  rw [List.length_append, List.length_append]
  omega

/-! ### A query for each listener -/

/-- A handler for two listeners that has one query open at a time. -/
def oneAtATime : BlockRangeHandler 2 (StreamTask Unit) Unit :=
  .streamHandler ⟨1, Nat.one_pos, 1, Nat.one_pos⟩ fun _ _ _ => .ok []

/-- Two messages are on their way to each of two listeners. -/
def busyRun (i j : Fin n) : List (ServiceAction n) := List.map ServiceAction.network
  [.next, .task i .recv, .task i .send, .task i .pull, .task j .recv, .task j .send, .task j .pull,
    .next, .task i .recv, .task j .recv]

/-- Both listeners have a query open, and the next message in hand. -/
theorem backPressure_twoListeners :
    ∃ s, oneAtATime.service.Reach (oneAtATime.serviceStart [dataItem ⟨1, 1⟩, dataItem ⟨2, 2⟩]) s ∧
      s.network.openFetches = 2 ∧ s.network.openFetches ≤ 2 * 1 ∧
      ∀ i, ((s.network.consumers i).relayed (s.taken i)).length ≤
        (oneAtATime.handled s i).length + (2 * 1 + 1) := by
  have hrun : (oneAtATime.service.run (busyRun 0 1)
      (oneAtATime.serviceStart [dataItem ⟨1, 1⟩, dataItem ⟨2, 2⟩])).map
        (fun s => s.network.openFetches) = some 2 := rfl
  obtain ⟨s, hs, hopen⟩ := Option.map_eq_some_iff.mp hrun
  have hreach := ActionSystem.reach_of_run hs
  obtain ⟨hle, hpressure⟩ := backPressure hreach
  exact ⟨s, hreach, hopen, hle, hpressure⟩

end BlockRangeHandler

end EventScanner
