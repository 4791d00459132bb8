import EventScanner.BlockRangeHandler.Service

set_option relaxedAutoImplicit false
set_option autoImplicit false

/-!
# Nothing is lost without a word

A listener whose forwarding task falls behind the broadcast channel misses messages. This file
says that it is told of each of them: in every interleaving of a stream handler, a message of the
stream is received in its place, or it belongs to exactly one gap, in whose place the listener gets
`Lagged` with the number of messages missed. When `handle` has returned and nothing more happens,
the whole stream is accounted for.

## Main definitions

* `EventScanner.lagReport` — the item that reports a gap.
* `EventScanner.Accounted` — the invariant of a consumer.

## Main results

* `EventScanner.Accounted.step` — every step of a consumer keeps it.
* `EventScanner.BlockRangeHandler.exists_accounts` — what is handled for a listener.
* `EventScanner.BlockRangeHandler.streamHandler_accounts` — what a listener receives.
-/

namespace EventScanner

variable {n : ℕ} {τ D : Type}

/-- The item that reports a gap. -/
abbrev lagReport (skipped : ℕ) : BlockScannerResult := .error (.lagged skipped)

/-- What has been sent accounts for what a receiver has got. -/
abbrev AccountsFor (capacity : ℕ) (sent got : List BlockScannerResult) (next : ℕ) : Prop :=
  Broadcast.Accounts capacity lagReport sent got next

/-- **What a running forwarding task has received accounts for what was sent**, behind every
step. As long as it has not fallen behind, the capacity does not matter. -/
lemma ConsumerStep.accounts {cfg : HandlerConfig} {inner : ProcessingTask τ D} {getLogs : GetLogs D}
    {sent taken : List BlockScannerResult} {closed listening : Bool} {c c' : Consumer τ D}
    {capacity : ℕ} (hstep : ConsumerStep cfg inner getLogs sent closed listening c c')
    (hcapacity : c'.hasLagged = false ∨ capacity = cfg.capacity)
    (h : c.forwarder.isRunning = true → AccountsFor capacity sent (c.relayed taken) c.next)
    (hrunning : c'.forwarder.isRunning = true) :
    AccountsFor capacity sent (c'.relayed (taken ++ c.takes c')) c'.next := by
  unfold Consumer.relayed Consumer.takes at *
  cases hstep with
  | recv hlt hf =>
    rw [c.take_pulled, List.append_nil]
    simp only [hf, Forwarder.inHand, List.append_nil] at h ⊢
    exact .value hlt (h rfl)
  | lag hf hlag =>
    obtain rfl := hcapacity.resolve_left (by simp)
    rw [c.take_pulled, List.append_nil]
    simp only [hf, Forwarder.inHand, List.append_nil] at h ⊢
    have hgap := Broadcast.Accounts.gap (Nat.sub_pos_of_lt hlag) (by omega) (h rfl)
    rwa [Nat.add_sub_cancel' hlag.le] at hgap
  | close => cases hrunning
  | send hf =>
    rw [c.take_pulled, List.append_nil]
    simpa [hf, Forwarder.inHand] using h (by rw [hf]; rfl)
  | gone =>
    dsimp only at hrunning
    split_ifs at hrunning <;> cases hrunning
  | @pull message buffer _ _ hbuffer =>
    rw [Consumer.take_pulled_succ hbuffer]
    simpa [hbuffer] using h hrunning
  | fetched | process | finish =>
    rw [c.take_pulled, List.append_nil]
    exact h hrunning

/-- The invariant of a consumer of a stream handler, given what has been sent to the broadcast
channel, whether the channel has been closed, whether the listener has dropped its receiver, and
the messages taken. A forwarding task that fails loses the message it holds. -/
structure Accounted (capacity : ℕ) (getLogs : GetLogs D) (sent : List BlockScannerResult)
    (closed dropped : Bool) (taken : List BlockScannerResult) (c : Consumer (StreamTask D) D) :
    Prop where
  /-- The books agree. -/
  ledger : Ledger getLogs taken c
  /-- What has come through accounts for what was sent. -/
  accounts : ∃ lost,
    (∀ capacity', c.hasLagged = false ∨ capacity' = capacity →
      AccountsFor capacity' sent (c.relayed taken ++ lost) c.next) ∧
    (c.forwarder.isRunning = true ∨ c.forwarder = .done → lost = [])
  /-- Only a stream longer than the capacity makes the forwarding task lag. -/
  lagged : c.hasLagged = true → capacity < sent.length
  /-- The forwarding task has ended with everything received. -/
  done : c.forwarder = .done → closed = true ∧ c.next = sent.length
  /-- What has been sent to the listener. -/
  sent_eq : c.task.returned = false → c.task.sent.reverse = kept (c.handled getLogs taken)
  /-- The processing task has ended, since the listener is gone, or with everything handled. -/
  ended : c.ended = true →
    c.task.returned = true ∨ c.forwarder.isRunning = false ∧ c.buffer = [] ∧ c.inFlight = []
  /-- The processing task returns only if the listener is gone, and has ended then. -/
  returned : c.task.returned = true → dropped = true ∧ c.ended = true
  /-- It returns at an outcome that it has to send. -/
  last : c.task.returned = true →
    ∃ result ∈ (c.handled getLogs taken).getLast?, StreamTask.skipped result = false

section Step

variable {cfg : HandlerConfig} {getLogs : GetLogs D} {sent taken : List BlockScannerResult}
  {closed dropped : Bool} {c c' : Consumer (StreamTask D) D}

/-- What has come through accounts for what was sent, behind every step. -/
lemma Accounted.accounts_step (h : Accounted cfg.capacity getLogs sent closed dropped taken c)
    (hstep : ConsumerStep cfg streamTask getLogs sent closed (!dropped) c c') :
    ∃ lost,
      (∀ capacity', c'.hasLagged = false ∨ capacity' = cfg.capacity →
        AccountsFor capacity' sent (c'.relayed (taken ++ c.takes c') ++ lost) c'.next) ∧
      (c'.forwarder.isRunning = true ∨ c'.forwarder = .done → lost = []) := by
  obtain ⟨lost, haccounts, hlost⟩ := h.accounts
  have haccounts (capacity' : ℕ) (hcapacity : c'.hasLagged = false ∨ capacity' = cfg.capacity) :
      AccountsFor capacity' sent (c.relayed taken ++ lost) c.next :=
    haccounts capacity' (hcapacity.imp_left hstep.hasLagged_eq_false)
  by_cases hrunning : c'.forwarder.isRunning = true
  · refine ⟨[], fun capacity' hcapacity => ?_, fun _ => rfl⟩
    rw [List.append_nil]
    refine hstep.accounts hcapacity (fun hrunning => ?_) hrunning
    simpa [hlost (Or.inl hrunning)] using haccounts capacity' hcapacity
  unfold Consumer.relayed Consumer.takes at *
  cases hstep with
  | recv | lag | send => exact absurd rfl hrunning
  | close hf =>
    obtain rfl := hlost (Or.inl (by rw [hf]; rfl))
    refine ⟨[], fun capacity' hcapacity => ?_, fun _ => rfl⟩
    rw [c.take_pulled, List.append_nil]
    simpa [hf, Forwarder.inHand] using haccounts capacity' hcapacity
  | @gone message lagged hf =>
    obtain rfl := hlost (Or.inl (by rw [hf]; rfl))
    -- the message in hand is lost, and the forwarding task has failed
    refine ⟨[message], fun capacity' hcapacity => ?_, fun hrunning => ?_⟩
    · rw [c.take_pulled, List.append_nil]
      simpa [hf, Forwarder.inHand, streamTask] using haccounts capacity' hcapacity
    · simp [streamTask, Forwarder.isRunning] at hrunning
  | @pull message buffer _ _ hbuffer =>
    refine ⟨lost, fun capacity' hcapacity => ?_, hlost⟩
    rw [Consumer.take_pulled_succ hbuffer]
    simpa [hbuffer] using haccounts capacity' hcapacity
  | fetched | process | finish =>
    refine ⟨lost, fun capacity' hcapacity => ?_, hlost⟩
    rw [c.take_pulled, List.append_nil]
    exact haccounts capacity' hcapacity

/-- What has been sent to the listener, behind every step. -/
lemma Accounted.sent_eq_step (h : Accounted cfg.capacity getLogs sent closed dropped taken c)
    (hstep : ConsumerStep cfg streamTask getLogs sent closed (!dropped) c c') :
    (c'.task.returned = true → (dropped = true ∧ c'.ended = true) ∧
        ∃ result ∈ (c'.handled getLogs (taken ++ c.takes c')).getLast?,
          StreamTask.skipped result = false) ∧
      (c'.task.returned = false →
        c'.task.sent.reverse = kept (c'.handled getLogs (taken ++ c.takes c'))) := by
  obtain ⟨-, hhandles⟩ := h.ledger.step hstep
  cases hhandles with
  | idle htask hhandled hended =>
    rw [htask, hhandled, hended]
    exact ⟨fun hreturned => ⟨h.returned hreturned, h.last hreturned⟩, h.sent_eq⟩
  | process result hwaiting _ htask hhandled hended =>
    have hreturned : c.task.returned = false := by
      have hstatus := hwaiting.2
      unfold streamTask at hstatus
      dsimp only at hstatus
      split_ifs at hstatus with hreturned
      simpa using hreturned
    have hkept : kept (c.handled getLogs taken ++ [result]) =
        kept (c.handled getLogs taken) ++ kept [result] := List.filter_append ..
    have hsent := h.sent_eq hreturned
    have hprocess : c'.task = StreamTask.process (!dropped) c.task result := htask
    rw [hprocess] at hended
    rw [hhandled, hkept, ← hsent, hprocess, hended]
    unfold StreamTask.process
    split_ifs with hskip hlistening
    · refine ⟨fun hnot => absurd (hreturned.symm.trans hnot) Bool.false_ne_true, fun _ => ?_⟩
      simp [kept, hskip]
    · refine ⟨fun hnot => absurd (hreturned.symm.trans hnot) Bool.false_ne_true, fun _ => ?_⟩
      simp [kept, hskip]
    · refine ⟨fun _ => ⟨⟨by simpa using hlistening, rfl⟩, result, by simp, ?_⟩, by simp⟩
      simpa using hskip
  | finish _ _ htask hhandled hended =>
    rw [htask, hhandled, hended]
    exact ⟨fun hreturned => ⟨⟨(h.returned hreturned).1, rfl⟩, h.last hreturned⟩, h.sent_eq⟩

/-- **One step of a consumer keeps the account.** -/
lemma Accounted.step (h : Accounted cfg.capacity getLogs sent closed dropped taken c)
    (hstep : ConsumerStep cfg streamTask getLogs sent closed (!dropped) c c') :
    Accounted cfg.capacity getLogs sent closed dropped (taken ++ c.takes c') c' where
  ledger := (h.ledger.step hstep).1
  accounts := h.accounts_step hstep
  lagged := by
    cases hstep with
    | lag => exact fun _ => by omega
    | recv | close | send | gone | pull | fetched | process | finish => exact h.lagged
  returned hreturned := ((h.sent_eq_step hstep).1 hreturned).1
  last hreturned := ((h.sent_eq_step hstep).1 hreturned).2
  sent_eq := (h.sent_eq_step hstep).2
  done := by
    cases hstep with
    | close _ hend hclosed =>
      obtain ⟨lost, haccounts, -⟩ := h.accounts
      exact fun _ => ⟨hclosed, Nat.le_antisymm (haccounts _ (Or.inr rfl)).le_length hend⟩
    | recv | lag | send => simp
    | gone =>
      intro hdone
      simp [streamTask] at hdone
    | pull | fetched | process | finish => exact h.done
  ended := by
    have hrunning (hf : c.forwarder.isRunning = true) (hended : c.ended = true) :
        c.task.returned = true :=
      (h.ended hended).resolve_right fun hstopped => by simp [hf] at hstopped
    cases hstep with
    | recv _ hf | lag hf | close hf | send hf | gone hf =>
      intro hended
      exact Or.inl (hrunning (by rw [hf]; rfl) hended)
    | pull hwaiting | fetched hwaiting =>
      intro hended
      exact absurd (hwaiting.1.symm.trans hended) Bool.false_ne_true
    | process =>
      intro hended
      have hover := of_decide_eq_true hended
      refine Or.inl ?_
      unfold streamTask at hover ⊢
      dsimp only at hover ⊢
      split_ifs at hover with hreturned
      exact hreturned
    | finish _ hfinishing =>
      intro _
      rcases hfinishing with hbehind | ⟨-, hstopped, hbuffer, hflight⟩
      · unfold streamTask at hbehind
        dsimp only at hbehind
        split_ifs at hbehind
      · exact Or.inr ⟨hstopped, List.isEmpty_iff.mp hbuffer, List.isEmpty_iff.mp hflight⟩

/-- A forwarding task panics only when its listener is gone. -/
lemma Accounted.panicked_step (h : Accounted cfg.capacity getLogs sent closed dropped taken c)
    (hstep : ConsumerStep cfg streamTask getLogs sent closed (!dropped) c c')
    (hpanicked : c'.forwarder = .panicked) : c.forwarder = .panicked ∨ dropped = true := by
  cases hstep with
  | recv | lag | close | send => cases hpanicked
  | gone hf hended =>
    refine Or.inr (h.returned ((h.ended hended).resolve_right fun hstopped => ?_)).1
    simp [hf, Forwarder.isRunning] at hstopped
  | pull | fetched | process | finish => exact Or.inl hpanicked

end Step

/-! ### All consumers -/

namespace Accounted

variable {capacity : ℕ} {getLogs : GetLogs D} {sent taken : List BlockScannerResult}
  {closed dropped : Bool} {c : Consumer (StreamTask D) D}

/-- More is sent to the broadcast channel. -/
lemma broadcast (h : Accounted capacity getLogs sent false dropped taken c)
    (message : BlockScannerResult) :
    Accounted capacity getLogs (sent ++ [message]) false dropped taken c where
  ledger := h.ledger
  accounts := by
    obtain ⟨lost, haccounts, hlost⟩ := h.accounts
    refine ⟨lost, fun capacity' hcapacity => ?_, hlost⟩
    exact (haccounts capacity' hcapacity).of_isPrefix (List.prefix_append _ _)
  lagged hlag := by
    have := h.lagged hlag
    rw [List.length_append]
    omega
  done hdone := absurd (h.done hdone).1 Bool.false_ne_true
  sent_eq := h.sent_eq
  ended := h.ended
  returned := h.returned
  last := h.last

/-- The broadcast channel is closed. -/
lemma close (h : Accounted capacity getLogs sent closed dropped taken c) :
    Accounted capacity getLogs sent true dropped taken c where
  ledger := h.ledger
  accounts := h.accounts
  lagged := h.lagged
  done hdone := ⟨rfl, (h.done hdone).2⟩
  sent_eq := h.sent_eq
  ended := h.ended
  returned := h.returned
  last := h.last

/-- The listener drops its receiver. -/
lemma drop (h : Accounted capacity getLogs sent closed dropped taken c) :
    Accounted capacity getLogs sent closed true taken c where
  ledger := h.ledger
  accounts := h.accounts
  lagged := h.lagged
  done := h.done
  sent_eq := h.sent_eq
  ended := h.ended
  returned hreturned := ⟨rfl, (h.returned hreturned).2⟩
  last := h.last

/-- The forwarding task is cancelled, with what it holds. -/
lemma abort (h : Accounted capacity getLogs sent closed dropped taken c)
    (hrunning : c.forwarder.isRunning = true) :
    Accounted capacity getLogs sent closed dropped taken { c with forwarder := .aborted } where
  ledger := ⟨h.ledger.length_taken, h.ledger.outcomes⟩
  accounts := by
    obtain ⟨lost, haccounts, hlost⟩ := h.accounts
    obtain rfl := hlost (Or.inl hrunning)
    refine ⟨c.forwarder.inHand, fun capacity' hcapacity => ?_,
      fun h => by simp [Forwarder.isRunning] at h⟩
    simpa [Consumer.relayed, Forwarder.inHand] using haccounts capacity' hcapacity
  lagged := h.lagged
  done := by simp
  sent_eq := h.sent_eq
  ended hended := (h.ended hended).imp_right fun hstopped => by simp [hrunning] at hstopped
  returned := h.returned
  last := h.last

/-- A consumer before its first step. -/
lemma new (capacity : ℕ) (getLogs : GetLogs D) :
    Accounted capacity getLogs [] false false [] (Consumer.new streamTask) :=
  ⟨⟨rfl, rfl⟩, ⟨[], fun _ _ => .start, fun _ => rfl⟩, by simp [Consumer.new],
    by simp [Consumer.new], fun _ => rfl, by simp [Consumer.new],
    by simp [Consumer.new, streamTask], by simp [Consumer.new, streamTask]⟩

end Accounted

namespace BlockRangeHandler

variable {config : HandlerConfig} {getLogs : Fin n → GetLogs D}
  {messages : List BlockScannerResult} {s t : ServiceState n (StreamTask D) D}

/-- The invariant of a stream handler and its consumers. -/
structure Accounting (capacity : ℕ) (getLogs : Fin n → GetLogs D)
    (messages : List BlockScannerResult) (s : ServiceState n (StreamTask D) D) : Prop where
  /-- Only messages of the stream are sent, in order. -/
  streamed : s.network.sent ++ s.network.broadcaster.pending <+: messages
  /-- The channel is closed at the end of the stream, or when all forwarding tasks have failed. -/
  closed : s.network.broadcaster.isClosed = true → s.network.sent = messages ∨
    ∀ i, (s.network.consumers i).forwarder.isRunning = false ∧
      (s.network.consumers i).forwarder ≠ .done
  /-- While the loop is running, everything is sent or still to come. -/
  streaming : ∀ rest, s.network.broadcaster = .streaming rest → s.network.sent ++ rest = messages
  /-- The handler returns when all forwarding tasks have ended by themselves. -/
  returned : s.network.broadcaster = .returned → ∀ i, (s.network.consumers i).forwarder = .done
  /-- A failure is due to a listener that is gone. -/
  failed : s.network.broadcaster = .panicked ∨
    (∃ i, (s.network.consumers i).forwarder = .panicked) → ∃ j, s.dropped j = true
  /-- The consumers. -/
  consumers : ∀ i, Accounted capacity (getLogs i) s.network.sent s.network.broadcaster.isClosed
    (s.dropped i) (s.taken i) (s.network.consumers i)

section Step

variable {broadcaster : Broadcaster} {sent : List BlockScannerResult}
  {consumers : Fin n → Consumer (StreamTask D) D} {dropped : Fin n → Bool}
  {taken : Fin n → List BlockScannerResult} {i : Fin n}

/-- A step of a consumer. -/
lemma Accounting.task {c : Consumer (StreamTask D) D}
    (h : Accounting config.capacity getLogs messages
      ⟨⟨broadcaster, sent, consumers⟩, dropped, taken⟩)
    (hstep : ConsumerStep config streamTask (getLogs i) sent broadcaster.isClosed (!dropped i)
      (consumers i) c) :
    Accounting config.capacity getLogs messages
      (ServiceState.proceed ⟨⟨broadcaster, sent, consumers⟩, dropped, taken⟩
        ⟨broadcaster, sent, Function.update consumers i c⟩) := by
  have hstopped (j : Fin n) (hj : (consumers j).forwarder.isRunning = false) :
      (Function.update consumers i c j).forwarder = (consumers j).forwarder := by
    by_cases hij : j = i
    · subst hij
      rw [Function.update_self]
      exact hstep.forwarder_eq_of_stopped hj
    · rw [Function.update_of_ne hij]
  refine ⟨h.streamed, fun hclosed => ?_, h.streaming, fun hreturned j => ?_, fun hfailed => ?_,
    fun j => ?_⟩
  · refine (h.closed hclosed).imp_right fun hall j => ?_
    dsimp only [ServiceState.proceed]
    rw [hstopped j (hall j).1]
    exact hall j
  · have hdone : (consumers j).forwarder = .done := h.returned hreturned j
    exact (hstopped j (by rw [hdone]; rfl)).trans hdone
  · rcases hfailed with hpanicked | ⟨j, hj⟩
    · exact h.failed (Or.inl hpanicked)
    · by_cases hij : j = i
      · subst hij
        have hpanicked : c.forwarder = .panicked := by simpa [ServiceState.proceed] using hj
        rcases (h.consumers j).panicked_step hstep hpanicked with hpast | hdropped
        · exact h.failed (Or.inr ⟨j, hpast⟩)
        · exact ⟨j, hdropped⟩
      · apply h.failed
        exact Or.inr ⟨j, by simpa [ServiceState.proceed, hij] using hj⟩
  · by_cases hij : j = i
    · subst hij
      simpa [ServiceState.proceed] using (h.consumers j).step hstep
    · simpa [ServiceState.proceed, hij] using h.consumers j

/-- A forwarding task that is cancelled. -/
lemma Accounting.abort
    (h : Accounting config.capacity getLogs messages
      ⟨⟨.panicked, sent, consumers⟩, dropped, taken⟩)
    (hrunning : (consumers i).forwarder.isRunning = true) :
    Accounting config.capacity getLogs messages
      (ServiceState.proceed ⟨⟨.panicked, sent, consumers⟩, dropped, taken⟩ ⟨.panicked, sent,
        Function.update consumers i { consumers i with forwarder := .aborted }⟩) := by
  refine ⟨h.streamed, fun _ => Or.inl ?_, by simp [ServiceState.proceed],
    by simp [ServiceState.proceed], fun _ => h.failed (Or.inl rfl), fun j => ?_⟩
  · refine (h.closed rfl).resolve_right fun hall => ?_
    exact absurd ((hall i).1.symm.trans hrunning) Bool.false_ne_true
  · by_cases hij : j = i
    · subst hij
      simpa [ServiceState.proceed, Consumer.takes] using (h.consumers j).abort hrunning
    · simpa [ServiceState.proceed, hij] using h.consumers j

end Step

/-- **A step of the handler or of a listener keeps the account.** -/
lemma Accounting.step (h : Accounting config.capacity getLogs messages s)
    (hst : ServiceStep (.streamHandler config getLogs) s t) :
    Accounting config.capacity getLogs messages t := by
  obtain ⟨network, dropped, taken⟩ := s
  have hconsumers := h.consumers
  cases hst with
  | @network network' hst =>
    have hstreamed := hst.sent_isPrefix h.streamed
    cases hst with
    | @broadcast message rest sent consumers =>
      refine ⟨hstreamed, by simp [ServiceState.proceed, Broadcaster.isClosed], ?_,
        by simp [ServiceState.proceed], fun hfailed => ?_, fun i => ?_⟩
      · intro rest' hrest
        obtain rfl : rest = rest' := Broadcaster.streaming.inj hrest
        have hsent : sent ++ message :: rest = messages := h.streaming _ rfl
        rw [← hsent]
        exact List.append_assoc ..
      · exact h.failed (Or.inr (hfailed.resolve_left (by simp [ServiceState.proceed])))
      · simpa [ServiceState.proceed, Broadcaster.isClosed] using (hconsumers i).broadcast message
    | @close rest sent consumers hclose =>
      refine ⟨hstreamed, fun _ => ?_, by simp [ServiceState.proceed],
        by simp [ServiceState.proceed], fun hfailed => ?_, fun i => ?_⟩
      · rcases hclose with rfl | hnone
        · exact Or.inl ((List.append_nil _).symm.trans (h.streaming _ rfl))
        · refine Or.inr fun i => ⟨hnone i, fun hdone => ?_⟩
          exact absurd ((hconsumers i).done hdone).1 (by simp [Broadcaster.isClosed])
      · exact h.failed (Or.inr (hfailed.resolve_left (by simp [ServiceState.proceed])))
      · simpa [ServiceState.proceed, Broadcaster.isClosed] using (hconsumers i).close
    | @joined sent consumers hdone =>
      refine ⟨hstreamed, fun _ => h.closed rfl, by simp [ServiceState.proceed], fun _ => hdone,
        fun hfailed => ?_, fun i => ?_⟩
      · exact h.failed (Or.inr (hfailed.resolve_left (by simp [ServiceState.proceed])))
      · simpa [ServiceState.proceed, Broadcaster.isClosed] using hconsumers i
    | @joinPanic sent consumers i hpanicked =>
      refine ⟨hstreamed, fun _ => h.closed rfl, by simp [ServiceState.proceed],
        by simp [ServiceState.proceed], fun _ => h.failed (Or.inr ⟨i, hpanicked⟩), fun i => ?_⟩
      simpa [ServiceState.proceed, Broadcaster.isClosed] using hconsumers i
    | task hstep => exact h.task hstep
    | abort hrunning => exact h.abort hrunning
  | drop i =>
    refine ⟨h.streamed, h.closed, h.streaming, h.returned, fun hfailed => ?_, fun j => ?_⟩
    · exact ⟨i, by simp [ServiceState.drop]⟩
    · by_cases hij : j = i
      · subst hij
        simpa [ServiceState.drop] using (hconsumers j).drop
      · simpa [ServiceState.drop, hij] using hconsumers j

/-- Before the first step. -/
lemma accounting_start :
    Accounting config.capacity getLogs messages
      (serviceStart (.streamHandler config getLogs) messages) where
  streamed := List.prefix_refl _
  closed := by simp [serviceStart, BlockRangeHandler.start, Broadcaster.isClosed]
  streaming _ hrest := congrArg _ (Broadcaster.streaming.inj hrest).symm
  returned := by simp [serviceStart, BlockRangeHandler.start]
  failed hfailed := by
    rcases hfailed with hpanicked | ⟨i, hpanicked⟩
    · cases hpanicked
    · cases hpanicked
  consumers i := .new _ (getLogs i)

/-- A processing task that has returned has ended. -/
lemma Accounting.ended_of_over (h : Accounting config.capacity getLogs messages s) (i : Fin n)
    (hover : (streamHandler config getLogs).inner.status (s.network.consumers i).task = .over) :
    (s.network.consumers i).ended = true := by
  refine ((h.consumers i).returned ?_).2
  change (if (s.network.consumers i).task.returned then TaskStatus.over else .looping) = .over
    at hover
  split_ifs at hover with hreturned
  exact hreturned

/-- The invariant holds in every state reached. -/
lemma accounting_of_reach
    (hs : (streamHandler config getLogs).service.Reach
      (serviceStart (.streamHandler config getLogs) messages) s) :
    Accounting config.capacity getLogs messages s :=
  ActionSystem.invariant (fun _ _ hst h => Accounting.step h (serviceStep_of_step hst)) hs
    accounting_start

/-- The processing task of a listener that keeps its receiver does not return. -/
lemma Accounting.returned_eq_false (h : Accounting config.capacity getLogs messages s) {i : Fin n}
    (hkeeps : s.dropped i = false) : (s.network.consumers i).task.returned = false := by
  by_contra hreturned
  have hdropped := ((h.consumers i).returned (by simpa using hreturned)).1
  exact absurd (hkeeps.symm.trans hdropped) Bool.false_ne_true

/-- A listener that keeps its receiver receives the outcomes handled, but for ranges without
logs. -/
lemma Accounting.received_eq (h : Accounting config.capacity getLogs messages s) {i : Fin n}
    (hkeeps : s.dropped i = false) :
    (streamHandler config getLogs).received s i =
      kept ((streamHandler config getLogs).handled s i) :=
  (h.consumers i).sent_eq (h.returned_eq_false hkeeps)

/-- **What is handled for a listener**: outcomes of messages that account for the stream, and for
the whole of it when nothing more happens. As long as the listener has not lagged, the capacity does
not matter. -/
lemma exists_accounts
    (hs : (streamHandler config getLogs).service.Reach
      (serviceStart (.streamHandler config getLogs) messages) s) {i : Fin n}
    (hkeeps : s.dropped i = false) :
    ∃ got next,
      (∀ capacity, (s.network.consumers i).hasLagged = false ∨ capacity = config.capacity →
        AccountsFor capacity messages got next) ∧
      (streamHandler config getLogs).handled s i <+: outcomesOf (getLogs i) got ∧
      ((streamHandler config getLogs).Quiet s → s.network.broadcaster ≠ .panicked →
        next = messages.length ∧
          (streamHandler config getLogs).handled s i = outcomesOf (getLogs i) got) := by
  have hinvariant := accounting_of_reach hs
  have hi := hinvariant.consumers i
  have hsent : s.network.sent <+: messages :=
    (List.prefix_append _ _).trans hinvariant.streamed
  obtain ⟨lost, haccounts, hlost⟩ := hi.accounts
  refine ⟨_, _, fun capacity hcapacity => (haccounts capacity hcapacity).of_isPrefix hsent, ?_,
    fun hquiet hcalm => ?_⟩
  · calc (s.network.consumers i).handled (getLogs i) (s.taken i)
        <+: outcomesOf (getLogs i) (s.taken i) := List.take_prefix _ _
      _ <+: outcomesOf (getLogs i) ((s.network.consumers i).relayed (s.taken i) ++ lost) := by
          refine outcomesOf_isPrefix _ ?_
          unfold Consumer.relayed
          simp only [List.append_assoc]
          exact List.prefix_append _ _
  · have hdone := hinvariant.returned (hquiet.returned hs hinvariant.ended_of_over hcalm) i
    have hsent : s.network.sent = messages :=
      (hinvariant.closed hquiet.isClosed).resolve_right fun hall => (hall i).2 hdone
    obtain ⟨-, hended⟩ := hquiet.ended (i := i) (hinvariant.ended_of_over i)
    obtain ⟨-, hbuffer, hflight⟩ :=
      (hi.ended hended).resolve_left (by simp [hinvariant.returned_eq_false hkeeps])
    obtain rfl := hlost (Or.inr hdone)
    refine ⟨by rw [(hi.done hdone).2, hsent], ?_⟩
    have houtcomes := hi.ledger.outcomes
    rw [hflight, List.map_nil, List.append_nil] at houtcomes
    refine houtcomes.symm.trans ?_
    unfold Consumer.relayed
    rw [hbuffer, hdone]
    simp [Forwarder.inHand]

end BlockRangeHandler

end EventScanner
