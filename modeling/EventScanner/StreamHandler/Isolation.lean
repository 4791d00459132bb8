import EventScanner.BlockRangeHandler.Lag
import EventScanner.StreamHandler.System

set_option relaxedAutoImplicit false
set_option autoImplicit false

/-!
# Listeners that do not disturb each other

A forwarding task panics when it has a message for its processing task, but this has returned,
since the listener is gone. The join then panics as well, and the forwarding tasks of all other
listeners are cancelled, with the messages they have not received yet. If the listeners that leave
can do no harm, no forwarding task panics, and every listener receives what it should.

## Main results

* `EventScanner.StreamHandler.ended_eq_false` — if the handler is harmless, a forwarding task with a
  message finds its processing task there.
* `EventScanner.StreamHandler.calm_of_harmless` — so no task fails.
* `EventScanner.StreamHandler.exists_received` — what a listener has received then.
* `EventScanner.StreamHandler.isolates_of_harmless` — a harmless handler serves each listener what
  it should.
-/

namespace EventScanner

/-- The outcomes of the first messages are the first outcomes. -/
lemma outcomesOf_take {D : Type} (getLogs : GetLogs D) (messages : List BlockScannerResult)
    (k : ℕ) : outcomesOf getLogs (messages.take k) = (outcomesOf getLogs messages).take k := by
  refine List.IsPrefix.eq_of_length ?_ (by simp)
  refine List.prefix_of_prefix_length_le (outcomesOf_isPrefix _ (List.take_prefix _ _))
    (List.take_prefix _ _) (by simp)

namespace StreamHandler

variable {n : ℕ} {D : Type} {setup : StreamHandler n D} {s t : StreamState n D} {i : Fin n}

/-- The invariant of the handler and its consumers holds in every state reached. -/
lemma accounting_of_reach (hs : setup.system.Reach setup.start s) :
    BlockRangeHandler.Accounting setup.config.capacity setup.getLogs setup.messages s :=
  BlockRangeHandler.accounting_of_reach (reach_iff.mp hs).1

/-- Every interleaving comes to its end. -/
lemma ends (setup : StreamHandler n D) :
    ∃ bound, ∀ as s, setup.system.run as setup.start = some s → as.length ≤ bound := by
  obtain ⟨bound, hbound⟩ := setup.handler.ends setup.messages
  exact ⟨bound, fun as s hrun => hbound as s (ActionSystem.run_of_restrict hrun)⟩

/-! ### No forwarding task panics -/

/-- A processing task that has returned had an outcome to send, so if the handler is harmless, it
has handled the whole stream.

**Proof sketch.** Only the last outcome of the stream has to be sent to a listener that may
leave. -/
lemma length_le_of_returned (hharmless : setup.Harmless) (hs : setup.system.Reach setup.start s)
    (hreturned : (s.network.consumers i).task.returned = true)
    (hinit : setup.handler.handled s i <+: outcomesOf (setup.getLogs i) setup.messages) :
    setup.messages.length ≤ (setup.handler.handled s i).length := by
  have hi := (accounting_of_reach hs).consumers i
  have hdrop := (reach_iff.mp hs).2 i (hi.returned hreturned).1
  obtain ⟨result, hlast, hresult⟩ := hi.last hreturned
  change result ∈ (setup.handler.handled s i).getLast? at hlast
  rcases hharmless with hnone | ⟨-, hskipped⟩
  · exact absurd ((hnone i).symm.trans hdrop) Bool.false_ne_true
  by_contra hless
  have hpos : 0 < (setup.handler.handled s i).length :=
    List.length_pos_iff.mpr (List.getLast?_isSome.mp (Option.isSome_of_mem hlast))
  obtain ⟨rest, hrest⟩ := hinit
  have hget : (outcomesOf (setup.getLogs i) setup.messages)[
      (setup.handler.handled s i).length - 1]? = some result := by
    rw [← hrest, List.getElem?_append_left (by omega), ← List.getLast?_eq_getElem?]
    exact hlast
  unfold outcomesOf at hget
  rw [List.getElem?_mapIdx, List.getElem?_eq_getElem (by omega)] at hget
  have hskip := hskipped i hdrop ((setup.handler.handled s i).length - 1) (by omega)
  rw [Option.some.inj hget] at hskip
  exact absurd (hskip.symm.trans hresult) (by decide)

/-- If the handler is harmless, a forwarding task with a message finds its processing task there.

**Proof sketch.** The processing task has ended by a return, since a task that has ended otherwise
has no messages to come. So it has handled the whole stream. Hence everything has been received,
and the forwarding task holds nothing. -/
lemma ended_eq_false (hharmless : setup.Harmless) (hs : setup.system.Reach setup.start s)
    {message : BlockScannerResult} {lagged : Bool}
    (hf : (s.network.consumers i).forwarder = .sending message lagged) :
    (s.network.consumers i).ended = false := by
  by_contra hended
  have hinvariant := accounting_of_reach hs
  have hi := hinvariant.consumers i
  have hrunning : (s.network.consumers i).forwarder.isRunning = true := by
    rw [hf]
    rfl
  have hreturned : (s.network.consumers i).task.returned = true :=
    (hi.ended (by simpa using hended)).resolve_right fun hstopped => by simp [hrunning] at hstopped
  have hcapacity : setup.messages.length ≤ setup.config.capacity := by
    rcases hharmless with hnone | ⟨hcapacity, -⟩
    · have hdrop := (reach_iff.mp hs).2 i (hi.returned hreturned).1
      exact absurd ((hnone i).symm.trans hdrop) Bool.false_ne_true
    · exact hcapacity
  have hsent : s.network.sent <+: setup.messages :=
    (List.prefix_append _ _).trans hinvariant.streamed
  obtain ⟨lost, haccounts, hlost⟩ := hi.accounts
  obtain rfl := hlost (Or.inl hrunning)
  have hrelayed : s.taken i ++ (s.network.consumers i).buffer ++ [message] <+: setup.messages := by
    have hall := (haccounts _ (Or.inr rfl)).eq_take (hsent.length_le.trans hcapacity)
    rw [List.append_nil, Consumer.relayed, hf] at hall
    exact hall ▸ (List.take_prefix _ _).trans hsent
  have htaken : s.taken i <+: setup.messages :=
    (List.prefix_append _ _).trans ((List.prefix_append _ _).trans hrelayed)
  have hhandled : setup.handler.handled s i <+: outcomesOf (setup.getLogs i) (s.taken i) :=
    List.take_prefix _ _
  have hall := length_le_of_returned hharmless hs hreturned
    (hhandled.trans (outcomesOf_isPrefix _ htaken))
  have hle := hhandled.length_le
  have hlen := hrelayed.length_le
  simp only [length_outcomesOf, List.length_append, List.length_singleton] at hle hlen
  omega

/-- **In a harmless handler no task fails.**

**Proof sketch.** Induction on the steps: no forwarding task finds its processing task gone. -/
theorem calm_of_harmless (hharmless : setup.Harmless) (hs : setup.system.Reach setup.start s) :
    s.network.Calm := by
  induction hs with
  | refl => exact ⟨by simp [BlockRangeHandler.serviceStart, BlockRangeHandler.start],
      fun _ => Or.inl rfl⟩
  | @tail s t hreach hst ih =>
    have hstep : ServiceStep setup.handler s t :=
      serviceStep_of_step (ActionSystem.step_of_restrict hst)
    cases hstep with
    | network hnetwork =>
      refine ih.step hnetwork fun i message lagged hf hended => ?_
      exact absurd ((ended_eq_false hharmless hreach hf).symm.trans hended) Bool.false_ne_true
    | drop => exact ih

/-! ### What the listeners receive -/

/-- **What a listener has received** in a harmless handler, if it keeps its receiver and has not
lagged: what it should receive of the first messages, and of all of them when nothing more
happens. -/
theorem exists_received (hharmless : setup.Harmless) (hs : setup.system.Reach setup.start s)
    (hkeeps : s.Keeps i) :
    ∃ k ≤ setup.messages.length,
      setup.received s i = kept (outcomesOf (setup.getLogs i) (setup.messages.take k)) ∧
        (setup.Quiet s → k = setup.messages.length) := by
  obtain ⟨got, next, haccounts, hinit, hall⟩ :=
    BlockRangeHandler.exists_accounts (reach_iff.mp hs).1 hkeeps.1
  obtain rfl := (haccounts _ (Or.inl hkeeps.2)).eq_take (le_refl setup.messages.length)
  have hhandled : setup.handler.handled s i <+: outcomesOf (setup.getLogs i) setup.messages :=
    hinit.trans (outcomesOf_isPrefix _ (List.take_prefix _ _))
  refine ⟨(setup.handler.handled s i).length, ?_, ?_, fun hquiet => ?_⟩
  · simpa using hhandled.length_le
  · rw [outcomesOf_take, ← List.prefix_iff_eq_take.mp hhandled]
    exact (accounting_of_reach hs).received_eq hkeeps.1
  · obtain ⟨rfl, heq⟩ := hall hquiet (calm_of_harmless hharmless hs).broadcaster
    have hlength := congrArg List.length heq
    simpa using hlength

/-- **In a harmless handler all is well.** -/
theorem isolatedAt_of_harmless (hharmless : setup.Harmless)
    (hs : setup.system.Reach setup.start s) : setup.IsolatedAt s where
  noPanic i hpanicked := by
    have hforwarder := (calm_of_harmless hharmless hs).forwarder i
    simp [hpanicked, Forwarder.isRunning] at hforwarder
  received i hkeeps := by
    obtain ⟨k, -, hreceived, -⟩ := exists_received hharmless hs hkeeps
    rw [hreceived]
    exact (outcomesOf_isPrefix _ (List.take_prefix _ _)).filter _
  complete hquiet i hkeeps := by
    obtain ⟨k, -, hreceived, hall⟩ := exists_received hharmless hs hkeeps
    rw [hreceived, hall hquiet, List.take_length]
    rfl

/-- A harmless handler serves each listener what it should. -/
lemma isolates_of_harmless (hharmless : setup.Harmless) : setup.Isolates :=
  ⟨setup.ends, fun _ hs => isolatedAt_of_harmless hharmless hs⟩

end StreamHandler

end EventScanner
