import EventScanner.BlockRangeHandler.LatestEvents
import EventScanner.Lib.Channel

set_option relaxedAutoImplicit false
set_option autoImplicit false

/-!
# The two tasks of a listener

What `StreamHandler::spawn` and `LatestEventsHandler::spawn` in `block_range_handler.rs` start for
each listener. A *forwarding task*, which belongs to the join set, takes the messages from the
broadcast channel and passes them on through a bounded channel. A *processing task*, spawned on
its own, fetches the logs of the ranges, a limited number at a time, and handles the results in
the order of the messages.

## Main definitions

* `EventScanner.ProcessingTask` — what the loop of the processing task does with a result, and what
  follows the loop.
* `EventScanner.streamTask`, `EventScanner.latestTask` — the processing tasks of the two handlers.
* `EventScanner.Forwarder`, `EventScanner.Consumer` — where the two tasks of a listener stand.
* `EventScanner.Consumer.act` — their steps.

## Design

The tasks run concurrently, so a step is what a task does between two points where it waits. A
send to the listener belongs to the step that handles the result: until there is room the task
waits there, and does nothing else.
-/

namespace EventScanner

variable {τ D : Type}

/-- How far a processing task has come. -/
inductive TaskStatus
  /-- In its loop. -/
  | looping
  /-- Out of its loop, with its end to come. -/
  | behindLoop
  /-- Left by a return or a panic. -/
  | over
  deriving DecidableEq

/-- The part in which the processing tasks of the handlers differ. -/
structure ProcessingTask (τ D : Type) where
  /-- Before the first result. -/
  new : τ
  /-- How far the task has come. -/
  status : τ → TaskStatus
  /-- Something is left to do before the first result. -/
  status_new : status new ≠ .over
  /-- The body of the loop. The flag says whether the listener is still there. -/
  process : Bool → τ → EventScannerResult D → τ
  /-- What follows the loop, or what ends the task in front of it. -/
  finish : Bool → τ → τ
  /-- The items sent to the listener, newest first. -/
  sent : τ → List (EventScannerResult D)
  /-- What the forwarding task does when it finds the processing task gone with a message from the
  block-range stream: leave its loop, or panic. -/
  leavesLoop : Bool

/-- The task behind some results, when the listener stays. -/
def ProcessingTask.behind (self : ProcessingTask τ D) (results : List (EventScannerResult D)) : τ :=
  results.foldl (self.process true) self.new

/-- The items that a step of the task has sent. -/
def ProcessingTask.newItems (self : ProcessingTask τ D) (before after : τ) :
    List (EventScannerResult D) :=
  (self.sent after).take ((self.sent after).length - (self.sent before).length)

/-! ### The processing task of `StreamHandler` -/

/-- The state of the processing task of `StreamHandler`. -/
structure StreamTask (D : Type) where
  /-- The task has returned, since the listener is gone. -/
  returned : Bool
  /-- The items sent to the listener, newest first. -/
  sent : List (EventScannerResult D)
  deriving DecidableEq

namespace StreamTask

/-- A range without logs is skipped. -/
def skipped : EventScannerResult D → Bool
  | .ok (.data logs) => logs.isEmpty
  | .ok (.notification _) | .error _ => false

/-- The body of the `while let` loop. -/
def process (listening : Bool) (self : StreamTask D) (result : EventScannerResult D) :
    StreamTask D :=
  if skipped result then self
  else if listening then { self with sent := result :: self.sent }
  else { self with returned := true }

end StreamTask

/-- What is sent to a listener of the outcomes. -/
def kept (results : List (EventScannerResult D)) : List (EventScannerResult D) :=
  results.filter fun result => !StreamTask.skipped result

/-- The processing task that `StreamHandler::spawn` starts. -/
def streamTask : ProcessingTask (StreamTask D) D where
  new := ⟨false, []⟩
  status t := if t.returned then .over else .looping
  status_new := nofun
  process := StreamTask.process
  finish _ t := t
  sent := StreamTask.sent
  leavesLoop := false

/-- The processing task that `LatestEventsHandler::spawn` starts: the collecting task. -/
def latestTask (count : ℕ) : ProcessingTask (CollectingTask D) D where
  new := CollectingTask.new count
  status t :=
    match t.phase with
    | .collecting _ _ => .looping
    | .overflowing | .complete _ => .behindLoop
    | .returned | .panicked => .over
  status_new := by
    dsimp only [CollectingTask.new]
    split_ifs <;> nofun
  process listening t result := t.process count (fun _ => listening) result
  finish listening t := t.finish fun _ => listening
  sent := CollectingTask.sent
  leavesLoop := true

/-! ### The tasks of a listener -/

/-- Where the forwarding task stands. -/
inductive Forwarder
  /-- Waiting for a message. -/
  | receiving
  /-- Waiting for room in the channel to the processing task, with a message of the stream, or
  with the error that says it has fallen behind. -/
  | sending (message : BlockScannerResult) (lagged : Bool)
  /-- Ended. -/
  | done
  /-- Ended by a panic. -/
  | panicked
  /-- Cancelled, since the join set was dropped. -/
  | aborted
  deriving DecidableEq

/-- The forwarding task is running. -/
def Forwarder.isRunning : Forwarder → Bool
  | .receiving | .sending _ _ => true
  | .done | .panicked | .aborted => false

/-- The message that a forwarding task holds. -/
def Forwarder.inHand : Forwarder → List BlockScannerResult
  | .sending message _ => [message]
  | .receiving | .done | .panicked | .aborted => []

/-- The settings of a handler. -/
structure HandlerConfig where
  /-- How many messages the broadcast channel keeps. -/
  capacity : ℕ
  /-- The builder refuses a capacity of zero. -/
  capacity_pos : 0 < capacity
  /-- How many messages the channel to a processing task holds, and how many fetches are in flight
  at a time. -/
  maxConcurrentFetches : ℕ
  /-- The builder refuses zero fetches. -/
  fetches_pos : 0 < maxConcurrentFetches

/-- The settings of a handler, from those of a scanner: the broadcast channel is made for as many
messages as any channel. -/
def HandlerConfig.ofCapacity (bufferCapacity : ℕ) {maxConcurrentFetches : ℕ}
    (hfetches : 0 < maxConcurrentFetches) : HandlerConfig :=
  ⟨Broadcast.slots bufferCapacity, Broadcast.slots_pos bufferCapacity, maxConcurrentFetches,
    hfetches⟩

/-- The tasks of a listener, and the channel between them. -/
structure Consumer (τ D : Type) where
  /-- The position of the forwarding task in the broadcast channel. -/
  next : ℕ
  /-- The forwarding task has fallen behind the messages kept. -/
  hasLagged : Bool
  /-- The forwarding task. -/
  forwarder : Forwarder
  /-- The channel between the tasks. -/
  buffer : List BlockScannerResult
  /-- The number of messages the processing task has taken from the channel. -/
  pulled : ℕ
  /-- The fetches in flight, with the flag of those that are ready. -/
  inFlight : List (EventScannerResult D × Bool)
  /-- The processing task. -/
  task : τ
  /-- The processing task has ended, and its end of the channel is gone. -/
  ended : Bool
  deriving DecidableEq

/-- A step of one of the two tasks. -/
inductive TaskAction
  /-- The forwarding task receives from the broadcast channel. -/
  | recv
  /-- The forwarding task passes a message on, or finds the processing task gone. -/
  | send
  /-- The processing task takes a message and starts its fetch. -/
  | pull
  /-- A fetch gets ready. -/
  | fetched (j : ℕ)
  /-- The processing task handles the first fetch in flight. -/
  | process
  /-- The processing task does what follows its loop. -/
  | finish
  deriving DecidableEq

namespace Consumer

/-- The tasks at their start. -/
def new (inner : ProcessingTask τ D) : Consumer τ D :=
  ⟨0, false, .receiving, [], 0, [], inner.new, false⟩

/-- `range_rx.recv()` and the `match` on what it returns. -/
def recv (cfg : HandlerConfig) (sent : List BlockScannerResult) (closed : Bool)
    (self : Consumer τ D) : Option (Consumer τ D) :=
  match self.forwarder with
  | .receiving =>
    match Broadcast.recv cfg.capacity sent closed self.next with
    | (.value message, next) =>
      some { self with next := next, forwarder := .sending message false }
    | (.lagged skipped, next) =>
      some { self with
        next := next, hasLagged := true, forwarder := .sending (.error (.lagged skipped)) true }
    | (.closed, _) => some { self with forwarder := .done }
    | (.pending, _) => none
  | .sending _ _ | .done | .panicked | .aborted => none

/-- `tx.send(message)` in the forwarding task. -/
def send (cfg : HandlerConfig) (inner : ProcessingTask τ D) (self : Consumer τ D) :
    Option (Consumer τ D) :=
  match self.forwarder with
  | .sending message lagged =>
    if self.ended then
      -- only a message of the stream lets the task leave its loop; the error makes it panic
      some { self with
        forwarder := if inner.leavesLoop && !lagged then .done else .panicked }
    else if self.buffer.length < cfg.maxConcurrentFetches then
      some { self with buffer := self.buffer ++ [message], forwarder := .receiving }
    else none
  | .receiving | .done | .panicked | .aborted => none

/-- The processing task is waiting for the next result. -/
def isWaiting (inner : ProcessingTask τ D) (self : Consumer τ D) : Prop :=
  self.ended = false ∧ inner.status self.task = .looping

instance (inner : ProcessingTask τ D) (self : Consumer τ D) : Decidable (self.isWaiting inner) :=
  inferInstanceAs (Decidable (self.ended = false ∧ inner.status self.task = .looping))

/-- `buffered`: a message is taken when there is room for its fetch. -/
def pull (cfg : HandlerConfig) (inner : ProcessingTask τ D) (getLogs : GetLogs D)
    (self : Consumer τ D) : Option (Consumer τ D) :=
  if self.isWaiting inner ∧ self.inFlight.length < cfg.maxConcurrentFetches then
    match self.buffer with
    | [] => none
    | message :: buffer =>
      some { self with
        buffer := buffer
        pulled := self.pulled + 1
        inFlight := self.inFlight ++ [(fetchResult (getLogs self.pulled) message, false)] }
  else none

/-- `get_logs` returns, or the message needs no fetch. -/
def fetched (inner : ProcessingTask τ D) (j : ℕ) (self : Consumer τ D) : Option (Consumer τ D) :=
  if self.isWaiting inner then
    match self.inFlight[j]? with
    | some (result, false) => some { self with inFlight := self.inFlight.set j (result, true) }
    | some (_, true) | none => none
  else none

/-- The next result is handled. -/
def process (inner : ProcessingTask τ D) (listening : Bool) (self : Consumer τ D) :
    Option (Consumer τ D) :=
  if self.isWaiting inner then
    match self.inFlight with
    | (result, true) :: inFlight =>
      let task := inner.process listening self.task result
      some { self with
        inFlight := inFlight
        task := task
        ended := decide (inner.status task = .over) }
    | (_, false) :: _ | [] => none
  else none

/-- The processing task is behind its loop: it has left it, or there are no more results, since
the forwarding task has ended. -/
def isFinishing (inner : ProcessingTask τ D) (self : Consumer τ D) : Prop :=
  inner.status self.task = .behindLoop ∨
    inner.status self.task = .looping ∧ self.forwarder.isRunning = false ∧
      self.buffer.isEmpty = true ∧ self.inFlight.isEmpty = true

instance (inner : ProcessingTask τ D) (self : Consumer τ D) :
    Decidable (self.isFinishing inner) :=
  inferInstanceAs (Decidable (inner.status self.task = .behindLoop ∨
    inner.status self.task = .looping ∧ self.forwarder.isRunning = false ∧
      self.buffer.isEmpty = true ∧ self.inFlight.isEmpty = true))

/-- The end of the processing task. -/
def finish (inner : ProcessingTask τ D) (listening : Bool) (self : Consumer τ D) :
    Option (Consumer τ D) :=
  if self.ended = false ∧ self.isFinishing inner then
    some { self with task := inner.finish listening self.task, ended := true }
  else none

/-- A step of the tasks, given what has been sent to the broadcast channel, whether the channel has
been closed, and whether the listener is still there. -/
def act (cfg : HandlerConfig) (inner : ProcessingTask τ D) (getLogs : GetLogs D)
    (sent : List BlockScannerResult) (closed listening : Bool) (self : Consumer τ D) :
    TaskAction → Option (Consumer τ D)
  | .recv => self.recv cfg sent closed
  | .send => self.send cfg inner
  | .pull => self.pull cfg inner getLogs
  | .fetched j => self.fetched inner j
  | .process => self.process inner listening
  | .finish => self.finish inner listening

end Consumer

/-! ### The steps by cases -/

/-- A step of the tasks of a listener. -/
inductive ConsumerStep (cfg : HandlerConfig) (inner : ProcessingTask τ D) (getLogs : GetLogs D)
    (sent : List BlockScannerResult) (closed listening : Bool) :
    Consumer τ D → Consumer τ D → Prop
  /-- The forwarding task receives the next message. -/
  | recv {c : Consumer τ D} (h : c.next < sent.length) :
      c.forwarder = .receiving → sent.length - cfg.capacity ≤ c.next →
      ConsumerStep cfg inner getLogs sent closed listening c
        { c with next := c.next + 1, forwarder := .sending sent[c.next] false }
  /-- The forwarding task has fallen behind. -/
  | lag {c : Consumer τ D} :
      c.forwarder = .receiving → c.next < sent.length - cfg.capacity →
      ConsumerStep cfg inner getLogs sent closed listening c
        { c with
          next := sent.length - cfg.capacity
          hasLagged := true
          forwarder := .sending (.error (.lagged (sent.length - cfg.capacity - c.next))) true }
  /-- The forwarding task finds the broadcast channel closed. -/
  | close {c : Consumer τ D} :
      c.forwarder = .receiving → sent.length ≤ c.next → closed = true →
      ConsumerStep cfg inner getLogs sent closed listening c { c with forwarder := .done }
  /-- A message is passed on. -/
  | send {c : Consumer τ D} {message : BlockScannerResult} {lagged : Bool} :
      c.forwarder = .sending message lagged → c.ended = false →
      c.buffer.length < cfg.maxConcurrentFetches →
      ConsumerStep cfg inner getLogs sent closed listening c
        { c with buffer := c.buffer ++ [message], forwarder := .receiving }
  /-- The forwarding task finds the processing task gone. -/
  | gone {c : Consumer τ D} {message : BlockScannerResult} {lagged : Bool} :
      c.forwarder = .sending message lagged → c.ended = true →
      ConsumerStep cfg inner getLogs sent closed listening c
        { c with forwarder := if inner.leavesLoop && !lagged then .done else .panicked }
  /-- A fetch is started. -/
  | pull {c : Consumer τ D} {message : BlockScannerResult} {buffer : List BlockScannerResult} :
      c.isWaiting inner → c.inFlight.length < cfg.maxConcurrentFetches →
      c.buffer = message :: buffer →
      ConsumerStep cfg inner getLogs sent closed listening c
        { c with
          buffer := buffer
          pulled := c.pulled + 1
          inFlight := c.inFlight ++ [(fetchResult (getLogs c.pulled) message, false)] }
  /-- A fetch gets ready. -/
  | fetched {c : Consumer τ D} {j : ℕ} {result : EventScannerResult D} :
      c.isWaiting inner → c.inFlight[j]? = some (result, false) →
      ConsumerStep cfg inner getLogs sent closed listening c
        { c with inFlight := c.inFlight.set j (result, true) }
  /-- A result is handled. -/
  | process {c : Consumer τ D} {result : EventScannerResult D}
      {inFlight : List (EventScannerResult D × Bool)} :
      c.isWaiting inner → c.inFlight = (result, true) :: inFlight →
      ConsumerStep cfg inner getLogs sent closed listening c
        { c with
          inFlight := inFlight
          task := inner.process listening c.task result
          ended := decide (inner.status (inner.process listening c.task result) = .over) }
  /-- The processing task ends. -/
  | finish {c : Consumer τ D} :
      c.ended = false → c.isFinishing inner →
      ConsumerStep cfg inner getLogs sent closed listening c
        { c with task := inner.finish listening c.task, ended := true }

/-- What the tasks do are these steps. -/
lemma consumerStep_of_act {cfg : HandlerConfig} {inner : ProcessingTask τ D} {getLogs : GetLogs D}
    {sent : List BlockScannerResult} {closed listening : Bool} {a : TaskAction}
    {c c' : Consumer τ D} (h : c.act cfg inner getLogs sent closed listening a = some c') :
    ConsumerStep cfg inner getLogs sent closed listening c c' := by
  cases a with
  | recv =>
    unfold Consumer.act Consumer.recv at h
    dsimp only at h
    split at h
    · next hreceiving =>
      rcases Nat.lt_or_ge c.next (sent.length - cfg.capacity) with hlag | hkept
      · rw [Broadcast.recv_of_lagging hlag] at h
        obtain rfl := Option.some.inj h
        exact .lag hreceiving hlag
      · rcases Nat.lt_or_ge c.next sent.length with hlt | hend
        · rw [Broadcast.recv_of_lt hkept hlt] at h
          obtain rfl := Option.some.inj h
          exact .recv hlt hreceiving hkept
        · rw [Broadcast.recv_end hend] at h
          cases closed with
          | true =>
            obtain rfl := Option.some.inj h
            exact .close hreceiving hend rfl
          | false => cases h
    all_goals cases h
  | send =>
    unfold Consumer.act Consumer.send at h
    dsimp only at h
    split at h
    · next message lagged hsending =>
      by_cases hended : c.ended = true
      · rw [if_pos hended] at h
        obtain rfl := Option.some.inj h
        exact .gone hsending hended
      · rw [if_neg hended] at h
        split_ifs at h with hroom
        obtain rfl := Option.some.inj h
        exact .send hsending (by simpa using hended) hroom
    all_goals cases h
  | pull =>
    unfold Consumer.act Consumer.pull at h
    dsimp only at h
    split_ifs at h with hready
    split at h
    · cases h
    · next hbuffer =>
      obtain rfl := Option.some.inj h
      exact .pull hready.1 hready.2 hbuffer
  | fetched j =>
    unfold Consumer.act Consumer.fetched at h
    dsimp only at h
    split_ifs at h with hwaiting
    split at h
    · next hfetch =>
      obtain rfl := Option.some.inj h
      exact .fetched hwaiting hfetch
    all_goals cases h
  | process =>
    unfold Consumer.act Consumer.process at h
    dsimp only at h
    split_ifs at h with hwaiting
    split at h
    · next hfirst =>
      obtain rfl := Option.some.inj h
      exact .process hwaiting hfirst
    all_goals cases h
  | finish =>
    unfold Consumer.act Consumer.finish at h
    dsimp only at h
    split_ifs at h with hfinishing
    obtain rfl := Option.some.inj h
    exact .finish hfinishing.1 hfinishing.2

/-! ### A consumer that can do nothing more -/

section Quiet

variable {cfg : HandlerConfig} {inner : ProcessingTask τ D} {getLogs : GetLogs D}
  {sent : List BlockScannerResult} {c : Consumer τ D}

/-- On a closed channel the forwarding task always receives something. -/
lemma Consumer.forwarder_ne_receiving (h : c.recv cfg sent true = none) :
    c.forwarder ≠ .receiving := by
  intro hf
  unfold Consumer.recv at h
  rw [hf] at h
  dsimp only at h
  rcases Nat.lt_or_ge c.next (sent.length - cfg.capacity) with hlag | hkept
  · rw [Broadcast.recv_of_lagging hlag] at h
    cases h
  · rcases Nat.lt_or_ge c.next sent.length with hlt | hend
    · rw [Broadcast.recv_of_lt hkept hlt] at h
      cases h
    · rw [Broadcast.recv_end hend] at h
      cases h

/-- A processing task that is waiting goes on as long as there are messages. -/
lemma Consumer.empty_of_isWaiting {listening : Bool} (hwaiting : c.isWaiting inner)
    (hpull : c.pull cfg inner getLogs = none) (hfetched : c.fetched inner 0 = none)
    (hprocess : c.process inner listening = none) :
    c.buffer = [] ∧ c.inFlight = [] := by
  have hflight : c.inFlight = [] := by
    unfold Consumer.process at hprocess
    unfold Consumer.fetched at hfetched
    rw [if_pos hwaiting] at hprocess hfetched
    match hfirst : c.inFlight with
    | [] => rfl
    | (result, true) :: inFlight => simp [hfirst] at hprocess
    | (result, false) :: inFlight => simp [hfirst] at hfetched
  refine ⟨?_, hflight⟩
  unfold Consumer.pull at hpull
  rw [if_pos ⟨hwaiting, by simpa [hflight] using cfg.fetches_pos⟩] at hpull
  match hbuffer : c.buffer with
  | [] => rfl
  | message :: buffer => simp [hbuffer] at hpull

/-- A processing task that can end can do something. -/
lemma Consumer.not_isFinishing {closed listening : Bool} (hended : c.ended = false)
    (hquiet : ∀ a, c.act cfg inner getLogs sent closed listening a = none) :
    ¬c.isFinishing inner := by
  intro hfinishing
  have hfinish := hquiet .finish
  unfold Consumer.act Consumer.finish at hfinish
  simp [hended, hfinishing] at hfinish

/-- A processing task that can do nothing more, and has not ended, waits in its loop. -/
lemma Consumer.empty_of_quiet {closed listening : Bool}
    (hover : inner.status c.task = .over → c.ended = true)
    (hquiet : ∀ a, c.act cfg inner getLogs sent closed listening a = none)
    (hended : c.ended = false) :
    inner.status c.task = .looping ∧ c.buffer = [] ∧ c.inFlight = [] := by
  have hlooping : inner.status c.task = .looping := by
    match hstatus : inner.status c.task with
    | .looping => rfl
    | .behindLoop =>
      exact absurd (Or.inl hstatus) (Consumer.not_isFinishing hended hquiet)
    | .over => exact absurd (hended.symm.trans (hover hstatus)) Bool.false_ne_true
  exact ⟨hlooping, Consumer.empty_of_isWaiting ⟨hended, hlooping⟩ (hquiet .pull)
    (hquiet (.fetched 0)) (hquiet .process)⟩

/-- A consumer that can do nothing more holds no message: its processing task has ended, or has
room. -/
lemma Consumer.not_sending {closed listening : Bool}
    (hover : inner.status c.task = .over → c.ended = true)
    (hquiet : ∀ a, c.act cfg inner getLogs sent closed listening a = none)
    (message : BlockScannerResult) (lagged : Bool) : c.forwarder ≠ .sending message lagged := by
  intro hf
  have hsend := hquiet .send
  unfold Consumer.act Consumer.send at hsend
  simp only [hf] at hsend
  split_ifs at hsend with hended hroom
  obtain ⟨-, hbuffer, -⟩ := Consumer.empty_of_quiet hover hquiet (by simpa using hended)
  exact absurd (by simpa [hbuffer] using cfg.fetches_pos) hroom

/-- On a closed channel a consumer can go on until both tasks have ended.

**Proof sketch.** A task behind its loop can end. In its loop it has taken and handled everything,
so there is room for what the forwarding task holds. Hence that task has ended, and so can this
one. -/
lemma Consumer.ended_of_quiet {listening : Bool}
    (hover : inner.status c.task = .over → c.ended = true)
    (hquiet : ∀ a, c.act cfg inner getLogs sent true listening a = none) :
    c.forwarder.isRunning = false ∧ c.ended = true := by
  have hstopped : c.forwarder.isRunning = false := by
    match hf : c.forwarder with
    | .receiving => exact absurd hf (Consumer.forwarder_ne_receiving (hquiet .recv))
    | .sending message lagged =>
      exact absurd hf (Consumer.not_sending hover hquiet message lagged)
    | .done | .panicked | .aborted => rfl
  refine ⟨hstopped, ?_⟩
  by_contra hnot
  have hended : c.ended = false := by simpa using hnot
  obtain ⟨hlooping, hbuffer, hflight⟩ := Consumer.empty_of_quiet hover hquiet hended
  exact Consumer.not_isFinishing hended hquiet
    (Or.inr ⟨hlooping, hstopped, by simp [hbuffer], by simp [hflight]⟩)

end Quiet

end EventScanner
