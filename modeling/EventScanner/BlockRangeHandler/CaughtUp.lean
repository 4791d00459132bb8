import EventScanner.BlockRangeHandler.Service

set_option relaxedAutoImplicit false
set_option autoImplicit false

/-!
# Consumers that keep up

Some interleavings come to their end without lag: before each message of the stream, the tasks of
the listeners go on until they can do nothing more. A forwarding task that can do nothing more has
received everything sent so far, so the broadcast channel keeps the next message for it.

## Main definitions

* `EventScanner.Consumer.InTime` — a consumer whose forwarding task has not fallen behind.
* `EventScanner.BlockRangeHandler.Resting` — the tasks of a listener can do nothing more.
* `EventScanner.ServiceState.SameBut` — only the tasks of some listeners have gone on.
* `EventScanner.CanStand` — one consumer can get to a state while the others keep up.

## Main results

* `EventScanner.BlockRangeHandler.exists_resting` — some listeners may go on alone.
* `EventScanner.BlockRangeHandler.exists_returned` — behind the stream they do so until `handle`
  returns.
* `EventScanner.BlockRangeHandler.exists_quiet` — an interleaving without lag, in which nobody
  leaves.
-/

namespace EventScanner

variable {n : ℕ} {τ D : Type}

/-- A consumer whose forwarding task has not fallen behind, when `sent` messages have been sent. -/
structure Consumer.InTime (capacity sent : ℕ) (c : Consumer τ D) : Prop where
  /-- It has not fallen behind so far. -/
  hasLagged : c.hasLagged = false
  /-- The channel keeps the next message for it. -/
  kept : c.forwarder.isRunning = true → sent - capacity ≤ c.next
  /-- It is running, or has ended by itself. -/
  forwarder : c.forwarder.isRunning = true ∨ c.forwarder = .done
  /-- It holds a message of the stream. -/
  inHand : ∀ message lagged, c.forwarder = .sending message lagged → lagged = false

section InTime

variable {cfg : HandlerConfig} {inner : ProcessingTask τ D} {getLogs : GetLogs D}
  {sent : List BlockScannerResult} {closed listening : Bool} {c c' : Consumer τ D}

/-- The tasks at their start. -/
lemma inTime_new (capacity : ℕ) (inner : ProcessingTask τ D) :
    (Consumer.new inner).InTime capacity 0 :=
  ⟨rfl, fun _ => by simp, Or.inl rfl, nofun⟩

/-- **A step of a consumer in time**, if a forwarding task that finds its processing task gone
leaves its loop. -/
lemma Consumer.InTime.step (h : c.InTime cfg.capacity sent.length)
    (hleaves : inner.leavesLoop = true)
    (hstep : ConsumerStep cfg inner getLogs sent closed listening c c') :
    c'.InTime cfg.capacity sent.length := by
  cases hstep with
  | recv hlt hf hkept =>
    refine ⟨h.hasLagged, fun _ => by dsimp only; omega, Or.inl rfl, fun _ _ hsending => ?_⟩
    exact (Forwarder.sending.inj hsending).2.symm
  | lag hf hlag =>
    have := h.kept (by rw [hf]; rfl)
    omega
  | close => exact ⟨h.hasLagged, nofun, Or.inr rfl, nofun⟩
  | send hf => exact ⟨h.hasLagged, fun _ => h.kept (by rw [hf]; rfl), Or.inl rfl, nofun⟩
  | @gone message lagged hf =>
    obtain rfl := h.inHand _ _ hf
    have hdone : (if (inner.leavesLoop && !false) = true then Forwarder.done else .panicked) =
        .done := by simp [hleaves]
    rw [hdone]
    exact ⟨h.hasLagged, nofun, Or.inr rfl, nofun⟩
  | pull | fetched | process | finish => exact ⟨h.hasLagged, h.kept, h.forwarder, h.inHand⟩

/-- One more message, when everything has been received so far. -/
lemma Consumer.InTime.broadcast {capacity sent : ℕ} (h : c.InTime capacity sent)
    (hcapacity : 0 < capacity) (hnext : c.forwarder.isRunning = true → sent ≤ c.next) :
    c.InTime capacity (sent + 1) where
  hasLagged := h.hasLagged
  kept hrunning := by
    have := hnext hrunning
    omega
  forwarder := h.forwarder
  inHand := h.inHand

/-- A forwarding task that is running, and can do nothing more, has received everything. -/
lemma Consumer.received_of_quiet (hover : inner.status c.task = .over → c.ended = true)
    (hquiet : ∀ a, c.act cfg inner getLogs sent closed listening a = none)
    (hrunning : c.forwarder.isRunning = true) : closed = false ∧ sent.length ≤ c.next := by
  match hf : c.forwarder with
  | .sending message lagged => exact absurd hf (Consumer.not_sending hover hquiet message lagged)
  | .done | .panicked | .aborted => simp [hf, Forwarder.isRunning] at hrunning
  | .receiving =>
    constructor
    · by_contra hclosed
      obtain rfl : closed = true := by simpa using hclosed
      exact Consumer.forwarder_ne_receiving (hquiet .recv) hf
    · by_contra hlt
      have hlt := Nat.lt_of_not_le hlt
      have hrecv := hquiet .recv
      unfold Consumer.act Consumer.recv at hrecv
      simp only [hf] at hrecv
      rcases Nat.lt_or_ge c.next (sent.length - cfg.capacity) with hlag | hkept
      · rw [Broadcast.recv_of_lagging hlag] at hrecv
        cases hrecv
      · rw [Broadcast.recv_of_lt hkept hlt] at hrecv
        cases hrecv

end InTime

/-- Only the tasks of the listeners with a property have gone on. -/
structure ServiceState.SameBut (P : Fin n → Prop) (s t : ServiceState n τ D) : Prop where
  /-- The handler has not. -/
  broadcaster : t.network.broadcaster = s.network.broadcaster
  /-- No message has been sent. -/
  sent : t.network.sent = s.network.sent
  /-- Nobody has left. -/
  dropped : t.dropped = s.dropped
  /-- The other listeners. -/
  consumers : ∀ i, ¬P i → t.network.consumers i = s.network.consumers i

namespace BlockRangeHandler

variable (handler : BlockRangeHandler n τ D)

/-- The tasks of a listener can do nothing more. -/
def Resting (s : ServiceState n τ D) (i : Fin n) : Prop :=
  ∀ a, (s.network.consumers i).act handler.config handler.inner (handler.getLogs i) s.network.sent
    s.network.broadcaster.isClosed (s.listening i) a = none

/-- The tasks of a listener have not fallen behind. -/
def InTime (s : ServiceState n τ D) (i : Fin n) : Prop :=
  (s.network.consumers i).InTime handler.config.capacity s.network.sent.length

variable {handler} {s : ServiceState n τ D} {messages : List BlockScannerResult}

/-- **The listeners with a property go on alone**, until they can do nothing more.

**Proof sketch.** Runs are bounded, so some run of their tasks cannot be made longer. -/
lemma exists_resting (hleaves : handler.inner.leavesLoop = true) (P : Fin n → Prop)
    (htime : ∀ i, P i → handler.InTime s i) :
    ∃ t, handler.service.Reach s t ∧ s.SameBut P t ∧
      ∀ i, P i → handler.InTime t i ∧ handler.Resting t i := by
  obtain ⟨bound, hbound⟩ := handler.exists_bound s
  let ofListener (a : ServiceAction n) : Prop := ∃ i b, P i ∧ a = .network (.task i b)
  obtain ⟨as, t, has, hrun, hstuck⟩ := ActionSystem.exists_stuck (P := ofListener) hbound
  have hkeep (a : ServiceAction n) (u v : ServiceState n τ D) (ha : ofListener a)
      (huv : handler.service.act a u = some v)
      (hI : s.SameBut P u ∧ ∀ i, P i → handler.InTime u i) :
      s.SameBut P v ∧ ∀ i, P i → handler.InTime v i := by
    obtain ⟨i, b, hi, rfl⟩ := ha
    obtain ⟨network, hnetwork, rfl⟩ := Option.map_eq_some_iff.mp huv
    obtain ⟨c, hc, rfl⟩ := Option.map_eq_some_iff.mp hnetwork
    obtain ⟨hsame, htime⟩ := hI
    refine ⟨⟨hsame.broadcaster, hsame.sent, hsame.dropped, fun j hj => ?_⟩, fun j hj => ?_⟩
    · have hij : j ≠ i := fun h => hj (h ▸ hi)
      simpa [ServiceState.proceed, setConsumer, hij] using hsame.consumers j hj
    · by_cases hij : j = i
      · subst hij
        simpa [InTime, ServiceState.proceed, setConsumer] using
          (htime j hj).step hleaves (consumerStep_of_act hc)
      · simpa [InTime, ServiceState.proceed, setConsumer, hij] using htime j hj
  obtain ⟨hsame, htime⟩ := ActionSystem.invariant_run hkeep has hrun
    ⟨⟨rfl, rfl, rfl, fun _ _ => rfl⟩, htime⟩
  refine ⟨t, ActionSystem.reach_of_run hrun, hsame, fun i hi => ⟨htime i hi, fun a => ?_⟩⟩
  have hact := hstuck (.network (.task i a)) ⟨i, a, hi, rfl⟩
  exact Option.map_eq_none_iff.mp (Option.map_eq_none_iff.mp hact)

/-- A task that is over has ended. -/
lemma ended_of_over (hs : handler.service.Reach (handler.serviceStart messages) s) {i : Fin n} :
    handler.inner.status (s.network.consumers i).task = .over →
      (s.network.consumers i).ended = true :=
  (attended_of_reach hs i).ended

/-- **Behind the stream `handle` returns**, if every forwarding task has ended by itself or is in
time. -/
lemma exists_returned (hleaves : handler.inner.leavesLoop = true) (P : Fin n → Prop)
    (hs : handler.service.Reach (handler.serviceStart messages) s)
    (hjoining : s.network.broadcaster = .joining) (htime : ∀ i, P i → handler.InTime s i)
    (hdone : ∀ i, ¬P i → (s.network.consumers i).forwarder = .done) :
    ∃ t, handler.service.Reach s t ∧ t.network.broadcaster = .returned ∧ t.dropped = s.dropped ∧
      (∀ i, ¬P i → t.network.consumers i = s.network.consumers i) ∧
      ∀ i, P i → handler.InTime t i ∧ handler.Resting t i := by
  obtain ⟨t, hreach, hsame, hresting⟩ := exists_resting hleaves P htime
  have hb : t.network.broadcaster = .joining := hsame.broadcaster.trans hjoining
  have hdone (i : Fin n) : (t.network.consumers i).forwarder = .done := by
    by_cases hi : P i
    · refine (hresting i hi).1.forwarder.resolve_left fun hrunning => ?_
      have hopen := (Consumer.received_of_quiet (ended_of_over (hs.trans hreach)) (hresting i hi).2
        hrunning).1
      rw [hb] at hopen
      cases hopen
    · rw [hsame.consumers i hi]
      exact hdone i hi
  have hjoin : handler.act t.listening t.network .join =
      some { t.network with broadcaster := .returned } := by
    unfold act join
    simp only [hb]
    rw [if_pos hdone]
  refine ⟨_, reach_proceed hreach hjoin, rfl, hsame.dropped, hsame.consumers, fun i hi => ?_⟩
  obtain ⟨hintime, hrests⟩ := hresting i hi
  refine ⟨hintime, fun a => ?_⟩
  have hrest := hrests a
  rw [hb] at hrest
  exact hrest

end BlockRangeHandler

/-! ### One consumer apart -/

/-- The consumer with a message in the hand of its forwarding task. -/
def Consumer.holding (c : Consumer τ D) (message : BlockScannerResult) (lagged : Bool) :
    Consumer τ D :=
  { c with forwarder := .sending message lagged }

/-- In some interleaving the consumer of a listener, which may have left, stands at `c`, `sent` has
been sent, and `rest` is still to come; the other listeners are there, and if a forwarding task may
find its processing task gone, their consumers are in time. -/
def CanStand (handler : BlockRangeHandler n τ D) (messages : List BlockScannerResult) (d : Fin n)
    (gone : Bool) (rest sent : List BlockScannerResult) (c : Consumer τ D) : Prop :=
  ∃ s, handler.service.Reach (handler.serviceStart messages) s ∧
    s.network.broadcaster = .streaming rest ∧ s.network.sent = sent ∧
    s.network.consumers d = c ∧ s.dropped = Function.update (fun _ => false) d gone ∧
    (handler.inner.leavesLoop = true → ∀ i, i ≠ d → handler.InTime s i)

section CanStand

variable {handler : BlockRangeHandler n τ D} {messages rest sent : List BlockScannerResult}
  {message : BlockScannerResult} {d : Fin n} {gone : Bool} {c c' : Consumer τ D}

variable (handler messages d) in
/-- Before the first step. -/
lemma canStand_start :
    CanStand handler messages d false messages [] (Consumer.new handler.inner) :=
  ⟨_, .refl, rfl, rfl, rfl, (Function.update_eq_self d _).symm, fun _ _ _ => inTime_new _ _⟩

/-- A message is sent to the broadcast channel. Before that, the other consumers go on until they
can do nothing more. -/
lemma CanStand.next (h : CanStand handler messages d gone (message :: rest) sent c)
    (hrunning : c.forwarder.isRunning = true) :
    CanStand handler messages d gone rest (sent ++ [message]) c := by
  obtain ⟨s, hs, hb, rfl, rfl, hdropped, htime⟩ := h
  by_cases hleaves : handler.inner.leavesLoop = true
  · obtain ⟨t, hreach, hsame, hresting⟩ :=
      BlockRangeHandler.exists_resting hleaves (fun i => i ≠ d) (htime hleaves)
    have hd := hsame.consumers d fun hne => hne rfl
    have hnext := @BlockRangeHandler.act_next _ _ _ handler _ t.listening _ _
      (hsame.broadcaster.trans hb) ⟨d, by rwa [hd]⟩
    refine ⟨_, reach_proceed (hs.trans hreach) hnext, rfl,
      congrArg (· ++ [message]) hsame.sent, hd,
      hsame.dropped.trans hdropped, fun _ i hi => ?_⟩
    obtain ⟨htime, hrests⟩ := hresting i hi
    have hover := BlockRangeHandler.ended_of_over (hs.trans hreach) (i := i)
    have hbroadcast := htime.broadcast handler.config.capacity_pos fun hrunning =>
      (Consumer.received_of_quiet hover hrests hrunning).2
    simpa [BlockRangeHandler.InTime, ServiceState.proceed] using hbroadcast
  · exact ⟨_, reach_proceed hs (BlockRangeHandler.act_next hb ⟨d, hrunning⟩), rfl, rfl, rfl,
      hdropped, fun h => absurd h hleaves⟩

/-- More messages are sent while the consumer does nothing. -/
lemma CanStand.broadcast {more : List BlockScannerResult}
    (h : CanStand handler messages d gone (more ++ rest) sent c)
    (hrunning : c.forwarder.isRunning = true) :
    CanStand handler messages d gone rest (sent ++ more) c := by
  induction more generalizing sent with
  | nil => simpa using h
  | cons message more ih => simpa using ih (h.next hrunning)

/-- The consumer makes a step. -/
lemma CanStand.task {a : TaskAction} (h : CanStand handler messages d gone rest sent c)
    (ha : c.act handler.config handler.inner (handler.getLogs d) sent false (!gone) a = some c') :
    CanStand handler messages d gone rest sent c' := by
  obtain ⟨s, hs, hb, rfl, rfl, hdropped, htime⟩ := h
  have hact : (s.network.consumers d).act handler.config handler.inner (handler.getLogs d)
      s.network.sent s.network.broadcaster.isClosed (s.listening d) a = some c' := by
    rw [hb, ServiceState.listening, hdropped, Function.update_self]
    exact ha
  refine ⟨_, reach_proceed hs (BlockRangeHandler.act_task hact), hb, rfl, ?_, hdropped,
    fun hleaves i hi => ?_⟩
  · simp [ServiceState.proceed, BlockRangeHandler.setConsumer]
  · simpa [BlockRangeHandler.InTime, ServiceState.proceed, BlockRangeHandler.setConsumer, hi] using
      htime hleaves i hi

/-- The forwarding task finds that it has lagged. -/
lemma CanStand.lag (h : CanStand handler messages d gone rest sent c)
    (hf : c.forwarder = .receiving) (hlag : c.next < sent.length - handler.config.capacity) :
    CanStand handler messages d gone rest sent
      { c with
        next := sent.length - handler.config.capacity
        hasLagged := true
        forwarder :=
          .sending (.error (.lagged (sent.length - handler.config.capacity - c.next))) true } := by
  refine h.task (a := .recv) ?_
  unfold Consumer.act Consumer.recv
  simp only [hf, Broadcast.recv_of_lagging hlag]

/-- The forwarding task receives the next message. -/
lemma CanStand.recv (h : CanStand handler messages d gone rest sent c)
    (hf : c.forwarder = .receiving) (hkept : sent.length - handler.config.capacity ≤ c.next)
    (hlt : c.next < sent.length) :
    CanStand handler messages d gone rest sent
      { c with next := c.next + 1, forwarder := .sending sent[c.next] false } := by
  refine h.task (a := .recv) ?_
  unfold Consumer.act Consumer.recv
  simp only [hf, Broadcast.recv_of_lt hkept hlt]

/-- The forwarding task passes its message on. -/
lemma CanStand.send {lagged : Bool}
    (h : CanStand handler messages d gone rest sent (c.holding message lagged))
    (hended : c.ended = false) (hroom : c.buffer.length < handler.config.maxConcurrentFetches) :
    CanStand handler messages d gone rest sent
      { c with buffer := c.buffer ++ [message], forwarder := .receiving } := by
  refine h.task (a := .send) ?_
  unfold Consumer.act Consumer.send Consumer.holding
  simp only [hended, Bool.false_eq_true, if_false, if_pos hroom]

/-- The processing task takes a message. -/
lemma CanStand.pull {buffer : List BlockScannerResult}
    (h : CanStand handler messages d gone rest sent c) (hwaiting : c.isWaiting handler.inner)
    (hroom : c.inFlight.length < handler.config.maxConcurrentFetches)
    (hbuffer : c.buffer = message :: buffer) :
    CanStand handler messages d gone rest sent
      { c with
        buffer := buffer
        pulled := c.pulled + 1
        inFlight :=
          c.inFlight ++ [(fetchResult (handler.getLogs d c.pulled) message, false)] } := by
  refine h.task (a := .pull) ?_
  unfold Consumer.act Consumer.pull
  simp only [if_pos (And.intro hwaiting hroom), hbuffer]

/-- **A message comes through to an idle processing task**, which handles its outcome. -/
lemma CanStand.carry {next pulled : ℕ} {hasLagged lagged : Bool} {task : τ}
    (h : CanStand handler messages d gone rest sent
      ⟨next, hasLagged, .sending message lagged, [], pulled, [], task, false⟩)
    (hlooping : handler.inner.status task = .looping) :
    let task' := handler.inner.process (!gone) task (fetchResult (handler.getLogs d pulled) message)
    CanStand handler messages d gone rest sent
      ⟨next, hasLagged, .receiving, [], pulled + 1, [], task',
        decide (handler.inner.status task' = .over)⟩ := by
  have hfetches := handler.config.fetches_pos
  have hpassed : CanStand handler messages d gone rest sent
      ⟨next, hasLagged, .receiving, [message], pulled, [], task, false⟩ :=
    CanStand.send (c := ⟨next, hasLagged, .receiving, [], pulled, [], task, false⟩) h rfl hfetches
  have htaken : CanStand handler messages d gone rest sent ⟨next, hasLagged, .receiving, [],
      pulled + 1, [(fetchResult (handler.getLogs d pulled) message, false)], task, false⟩ :=
    hpassed.pull ⟨rfl, hlooping⟩ hfetches rfl
  have hready : CanStand handler messages d gone rest sent ⟨next, hasLagged, .receiving, [],
      pulled + 1, [(fetchResult (handler.getLogs d pulled) message, true)], task, false⟩ := by
    refine htaken.task (a := .fetched 0) ?_
    simp [Consumer.act, Consumer.fetched, Consumer.isWaiting, hlooping]
  refine hready.task (a := .process) ?_
  simp [Consumer.act, Consumer.process, Consumer.isWaiting, hlooping]

/-- **Behind the stream `handle` returns** when the forwarding task has received everything,
whatever its processing task is doing. -/
lemma CanStand.returned (h : CanStand handler messages d gone [] sent c)
    (hleaves : handler.inner.leavesLoop = true) (hf : c.forwarder = .receiving)
    (hend : sent.length ≤ c.next) :
    ∃ s, handler.service.Reach (handler.serviceStart messages) s ∧
      s.network.broadcaster = .returned ∧
      s.network.consumers d = { c with forwarder := .done } := by
  obtain ⟨s, hs, hb, rfl, rfl, -, htime⟩ := h
  have hclose : handler.act s.listening s.network .next =
      some { s.network with broadcaster := .joining } := by
    unfold BlockRangeHandler.act BlockRangeHandler.next
    simp only [hb]
  have hjoining := reach_proceed hs hclose
  have hrecv : (s.network.consumers d).act handler.config handler.inner (handler.getLogs d)
      s.network.sent true (s.listening d) .recv =
        some { s.network.consumers d with forwarder := .done } := by
    unfold Consumer.act Consumer.recv
    simp only [hf, Broadcast.recv_end hend, if_true]
  have hdone := reach_proceed hjoining (BlockRangeHandler.act_task (a := .recv) hrecv)
  have hreturns := BlockRangeHandler.exists_returned hleaves (fun i => i ≠ d) hdone rfl
    (fun i hi => by
      simpa [BlockRangeHandler.InTime, ServiceState.proceed, BlockRangeHandler.setConsumer, hi]
        using htime hleaves i hi)
    (fun i hi => by
      obtain rfl := not_not.mp hi
      simp [ServiceState.proceed, BlockRangeHandler.setConsumer])
  obtain ⟨t, hreach, hreturned, -, hothers, -⟩ := hreturns
  refine ⟨t, hdone.trans hreach, hreturned, (hothers d fun hne => hne rfl).trans ?_⟩
  simp [ServiceState.proceed, BlockRangeHandler.setConsumer]

end CanStand

end EventScanner
