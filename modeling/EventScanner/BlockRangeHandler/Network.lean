import EventScanner.BlockRangeHandler.Consumer
import EventScanner.Lib.ActionSystem

set_option relaxedAutoImplicit false
set_option autoImplicit false

/-!
# A block-range handler and its consumers

`BlockRangeHandler::handle` and `broadcast_stream` in `block_range_handler.rs`: the handler passes
the messages of a block-range stream to the consumers of all listeners through a broadcast
channel, closes the channel at the end of the stream, and waits for the forwarding tasks. If one
of those has panicked, the join panics as well, and the others are cancelled.

## Main definitions

* `EventScanner.BlockRangeHandler` — a handler: its settings, the processing task, and the answers
  to the log queries.
* `EventScanner.Broadcaster`, `EventScanner.Network` — where the handler stands, and all tasks.
* `EventScanner.BlockRangeHandler.act` — the steps of all tasks.
* `EventScanner.NetworkStep` — the same steps by cases.
-/

namespace EventScanner

variable {n : ℕ} {τ D : Type}

/-- A handler for `n` listeners. -/
structure BlockRangeHandler (n : ℕ) (τ D : Type) where
  /-- The settings. -/
  config : HandlerConfig
  /-- What the processing tasks do. -/
  inner : ProcessingTask τ D
  /-- The answers to the log queries: the filters of the listeners may differ. -/
  getLogs : Fin n → GetLogs D

/-- `StreamHandler`, which sends on the logs of each range. -/
def BlockRangeHandler.streamHandler (config : HandlerConfig) (getLogs : Fin n → GetLogs D) :
    BlockRangeHandler n (StreamTask D) D :=
  ⟨config, streamTask, getLogs⟩

/-- `LatestEventsHandler`, which collects up to `count` logs for each listener. -/
def BlockRangeHandler.latestEventsHandler (config : HandlerConfig) (count : ℕ)
    (getLogs : Fin n → GetLogs D) : BlockRangeHandler n (CollectingTask D) D :=
  ⟨config, latestTask count, getLogs⟩

/-- Where `handle` stands. -/
inductive Broadcaster
  /-- In the loop over the stream, with the messages still to come. -/
  | streaming (messages : List BlockScannerResult)
  /-- The channel is closed, and the forwarding tasks are waited for. -/
  | joining
  /-- All forwarding tasks have ended. -/
  | returned
  /-- The join has panicked. -/
  | panicked
  deriving DecidableEq

/-- The broadcast channel is closed. -/
def Broadcaster.isClosed : Broadcaster → Bool
  | .streaming _ => false
  | .joining | .returned | .panicked => true

/-- The handler and the consumers of its listeners. -/
structure Network (n : ℕ) (τ D : Type) where
  /-- Where `handle` stands. -/
  broadcaster : Broadcaster
  /-- The messages sent to the broadcast channel. -/
  sent : List BlockScannerResult
  /-- The consumers. -/
  consumers : Fin n → Consumer τ D

/-- A step of the handler or of a consumer. -/
inductive NetworkAction (n : ℕ)
  /-- `stream.next()` in `broadcast_stream`, and what is done with the message. -/
  | next
  /-- `consumers.join_all()`. -/
  | join
  /-- A task of a consumer. -/
  | task (i : Fin n) (a : TaskAction)
  /-- A forwarding task is cancelled. -/
  | abort (i : Fin n)

namespace BlockRangeHandler

variable (self : BlockRangeHandler n τ D)

/-- `handle` before the first message of its stream. -/
def start (messages : List BlockScannerResult) : Network n τ D :=
  ⟨.streaming messages, [], fun _ => Consumer.new self.inner⟩

/-- `range_tx.send(message)` fails when no forwarding task is left. -/
def next (s : Network n τ D) : Option (Network n τ D) :=
  match s.broadcaster with
  | .streaming [] => some { s with broadcaster := .joining }
  | .streaming (message :: messages) =>
    if ∃ i, (s.consumers i).forwarder.isRunning = true then
      some { s with broadcaster := .streaming messages, sent := s.sent ++ [message] }
    else some { s with broadcaster := .joining }
  | .joining | .returned | .panicked => none

/-- `join_all` returns when all forwarding tasks have ended, and panics when one has panicked. -/
def join (s : Network n τ D) : Option (Network n τ D) :=
  match s.broadcaster with
  | .joining =>
    if ∀ i, (s.consumers i).forwarder = .done then some { s with broadcaster := .returned }
    else if ∃ i, (s.consumers i).forwarder = .panicked then
      some { s with broadcaster := .panicked }
    else none
  | .streaming _ | .returned | .panicked => none

/-- The consumer of a listener after a change. -/
def setConsumer (i : Fin n) (c : Consumer τ D) (s : Network n τ D) : Network n τ D :=
  { s with consumers := Function.update s.consumers i c }

/-- Dropping the join set cancels the forwarding tasks that are still running. -/
def abort (i : Fin n) (s : Network n τ D) : Option (Network n τ D) :=
  if s.broadcaster = .panicked ∧ (s.consumers i).forwarder.isRunning = true then
    some (setConsumer i { s.consumers i with forwarder := .aborted } s)
  else none

/-- A step, given which listeners are still there. -/
def act (listening : Fin n → Bool) (s : Network n τ D) : NetworkAction n → Option (Network n τ D)
  | .next => next s
  | .join => join s
  | .task i a =>
    ((s.consumers i).act self.config self.inner (self.getLogs i) s.sent s.broadcaster.isClosed
      (listening i) a).map fun c => setConsumer i c s
  | .abort i => abort i s

variable {self} {s : Network n τ D} {listening : Fin n → Bool}

/-- A message is sent as long as a forwarding task is running. -/
lemma act_next {message : BlockScannerResult} {messages : List BlockScannerResult}
    (hb : s.broadcaster = .streaming (message :: messages))
    (halive : ∃ i, (s.consumers i).forwarder.isRunning = true) :
    self.act listening s .next =
      some { s with broadcaster := .streaming messages, sent := s.sent ++ [message] } := by
  unfold act next
  simp only [hb]
  rw [if_pos halive]

/-- A step of a consumer is a step of the network. -/
lemma act_task {i : Fin n} {a : TaskAction} {c : Consumer τ D}
    (h : (s.consumers i).act self.config self.inner (self.getLogs i) s.sent s.broadcaster.isClosed
      (listening i) a = some c) :
    self.act listening s (.task i a) = some (setConsumer i c s) := by
  unfold act
  simp only [h, Option.map_some]

end BlockRangeHandler

/-! ### The steps by cases -/

/-- A step of the handler and its consumers. -/
inductive NetworkStep (handler : BlockRangeHandler n τ D) (listening : Fin n → Bool) :
    Network n τ D → Network n τ D → Prop
  /-- A message is sent to the broadcast channel. -/
  | broadcast {message : BlockScannerResult} {messages sent : List BlockScannerResult}
      {consumers : Fin n → Consumer τ D} :
      (∃ i, (consumers i).forwarder.isRunning = true) →
      NetworkStep handler listening ⟨.streaming (message :: messages), sent, consumers⟩
        ⟨.streaming messages, sent ++ [message], consumers⟩
  /-- The loop is left: at the end of the stream, or when no forwarding task is left. -/
  | close {messages sent : List BlockScannerResult} {consumers : Fin n → Consumer τ D} :
      (messages = [] ∨ ∀ i, (consumers i).forwarder.isRunning = false) →
      NetworkStep handler listening ⟨.streaming messages, sent, consumers⟩
        ⟨.joining, sent, consumers⟩
  /-- All forwarding tasks have ended. -/
  | joined {sent : List BlockScannerResult} {consumers : Fin n → Consumer τ D} :
      (∀ i, (consumers i).forwarder = .done) →
      NetworkStep handler listening ⟨.joining, sent, consumers⟩ ⟨.returned, sent, consumers⟩
  /-- A forwarding task has panicked. -/
  | joinPanic {sent : List BlockScannerResult} {consumers : Fin n → Consumer τ D} {i : Fin n} :
      (consumers i).forwarder = .panicked →
      NetworkStep handler listening ⟨.joining, sent, consumers⟩ ⟨.panicked, sent, consumers⟩
  /-- A task of a consumer. -/
  | task {broadcaster : Broadcaster} {sent : List BlockScannerResult}
      {consumers : Fin n → Consumer τ D} {i : Fin n} {c : Consumer τ D} :
      ConsumerStep handler.config handler.inner (handler.getLogs i) sent broadcaster.isClosed
        (listening i) (consumers i) c →
      NetworkStep handler listening ⟨broadcaster, sent, consumers⟩
        ⟨broadcaster, sent, Function.update consumers i c⟩
  /-- A forwarding task is cancelled. -/
  | abort {sent : List BlockScannerResult} {consumers : Fin n → Consumer τ D} {i : Fin n} :
      (consumers i).forwarder.isRunning = true →
      NetworkStep handler listening ⟨.panicked, sent, consumers⟩
        ⟨.panicked, sent, Function.update consumers i { consumers i with forwarder := .aborted }⟩

/-- What the tasks do are these steps. -/
lemma networkStep_of_act {handler : BlockRangeHandler n τ D} {listening : Fin n → Bool}
    {a : NetworkAction n} {s t : Network n τ D} (h : handler.act listening s a = some t) :
    NetworkStep handler listening s t := by
  obtain ⟨broadcaster, sent, consumers⟩ := s
  cases a with
  | next =>
    unfold BlockRangeHandler.act BlockRangeHandler.next at h
    cases broadcaster with
    | streaming messages =>
      cases messages with
      | nil =>
        obtain rfl := Option.some.inj h
        exact .close (Or.inl rfl)
      | cons message messages =>
        dsimp only at h
        split_ifs at h with halive
        · obtain rfl := Option.some.inj h
          exact .broadcast halive
        · obtain rfl := Option.some.inj h
          refine .close (Or.inr fun i => ?_)
          simpa using not_exists.mp halive i
    | joining | returned | panicked => cases h
  | join =>
    unfold BlockRangeHandler.act BlockRangeHandler.join at h
    cases broadcaster with
    | joining =>
      dsimp only at h
      split_ifs at h with hdone hpanicked
      · obtain rfl := Option.some.inj h
        exact .joined hdone
      · obtain rfl := Option.some.inj h
        obtain ⟨i, hi⟩ := hpanicked
        exact .joinPanic hi
    | streaming | returned | panicked => cases h
  | task i a =>
    obtain ⟨c, hc, rfl⟩ := Option.map_eq_some_iff.mp h
    exact .task (consumerStep_of_act hc)
  | abort i =>
    unfold BlockRangeHandler.act BlockRangeHandler.abort at h
    dsimp only at h
    split_ifs at h with habort
    obtain ⟨rfl, hrunning⟩ := habort
    obtain rfl := Option.some.inj h
    exact .abort hrunning

/-- What a step does to a consumer. -/
lemma NetworkStep.consumer_cases {handler : BlockRangeHandler n τ D} {listening : Fin n → Bool}
    {s t : Network n τ D} (h : NetworkStep handler listening s t) (i : Fin n) :
    t.consumers i = s.consumers i ∨
      ConsumerStep handler.config handler.inner (handler.getLogs i) s.sent s.broadcaster.isClosed
        (listening i) (s.consumers i) (t.consumers i) ∨
      s.broadcaster = .panicked ∧ (s.consumers i).forwarder.isRunning = true ∧
        t.consumers i = { s.consumers i with forwarder := .aborted } := by
  cases h with
  | broadcast | close | joined | joinPanic => exact Or.inl rfl
  | @task _ _ _ j _ hstep =>
    by_cases hij : i = j
    · subst hij
      simp [hstep]
    · simp [hij]
  | @abort _ _ j hrunning =>
    by_cases hij : i = j
    · subst hij
      simp [hrunning]
    · simp [hij]

end EventScanner
