import EventScanner.BlockRangeHandler.Service

set_option relaxedAutoImplicit false
set_option autoImplicit false

/-!
# Streaming to listeners that may leave

`StreamHandler` in `block_range_handler.rs` on a finite block-range stream, where some listeners may
drop their receivers at any time.

## Main definitions

* `EventScanner.StreamHandler` — the handler, its stream, and which listeners may leave.
* `EventScanner.StreamHandler.system` — the handler and its listeners, where only these leave.
* `EventScanner.StreamHandler.expected` — what a listener should receive.
* `EventScanner.StreamHandler.Isolates` — the listeners do not disturb each other.

## Main results

* `EventScanner.StreamHandler.reach_iff` — the states reached are those of the handler in which only
  listeners that may leave have left.
-/

namespace EventScanner

variable {n : ℕ} {D : Type}

/-- A stream handler on a stream, for `n` listeners. -/
structure StreamHandler (n : ℕ) (D : Type) where
  /-- The settings. -/
  config : HandlerConfig
  /-- The answers to the log queries. -/
  getLogs : Fin n → GetLogs D
  /-- The block-range stream. -/
  messages : List BlockScannerResult
  /-- The listeners that may drop their receivers. -/
  mayDrop : Fin n → Bool

/-- The tasks of a stream handler, and the listeners that have dropped their receivers. -/
abbrev StreamState (n : ℕ) (D : Type) := ServiceState n (StreamTask D) D

namespace StreamHandler

variable (setup : StreamHandler n D)

/-- The handler with its processing tasks. -/
abbrev handler : BlockRangeHandler n (StreamTask D) D := .streamHandler setup.config setup.getLogs

/-- The actions of the tasks, and of the listeners that may leave. -/
def Allows : ServiceAction n → Prop
  | .network _ => True
  | .drop i => setup.mayDrop i = true

instance : DecidablePred setup.Allows
  | .network _ => inferInstanceAs (Decidable True)
  | .drop i => inferInstanceAs (Decidable (setup.mayDrop i = true))

/-- A stream handler and its listeners as a system of actions. -/
def system : ActionSystem (StreamState n D) (ServiceAction n) :=
  setup.handler.service.restrict setup.Allows

/-- Before the first step. -/
abbrev start : StreamState n D := setup.handler.serviceStart setup.messages

/-- The handler and its consumers can do nothing more. -/
abbrev Quiet (s : StreamState n D) : Prop := setup.handler.Quiet s

/-- What a listener has received, in order. -/
abbrev received (s : StreamState n D) (i : Fin n) : List (EventScannerResult D) :=
  setup.handler.received s i

variable {setup} in
/-- **What is reached**: what the handler and its listeners can reach while only those listeners
leave that may.

**Proof sketch.** Nobody comes back, so all who have left before may leave. -/
lemma reach_iff {s : StreamState n D} : setup.system.Reach setup.start s ↔
    setup.handler.service.Reach (setup.handler.serviceStart setup.messages) s ∧
      ∀ i, s.dropped i = true → setup.mayDrop i = true := by
  constructor
  · intro h
    refine ⟨ActionSystem.reach_of_restrict h, ?_⟩
    refine ActionSystem.invariant (I := fun s : StreamState n D =>
      ∀ i, s.dropped i = true → setup.mayDrop i = true) (fun s t hst hI => ?_) h nofun
    obtain ⟨a, ha⟩ := hst
    obtain ⟨hallowed, ha⟩ := ActionSystem.act_restrict_eq_some.mp ha
    cases a with
    | network a =>
      obtain ⟨network, -, rfl⟩ := Option.map_eq_some_iff.mp ha
      exact hI
    | drop j =>
      change (if s.dropped j = false then some (s.drop j) else none) = some t at ha
      split_ifs at ha
      obtain rfl := Option.some.inj ha
      intro i hi
      by_cases hij : i = j
      · subst hij
        exact hallowed
      · exact hI i (by simpa [ServiceState.drop, hij] using hi)
  · rintro ⟨h, hdropped⟩
    induction h with
    | refl => exact .refl
    | @tail s t _ hst ih =>
      obtain ⟨a, ha⟩ := hst
      cases a with
      | network a =>
        have hsame := ha
        obtain ⟨network, -, rfl⟩ := Option.map_eq_some_iff.mp hsame
        exact (ih hdropped).tail ⟨.network a, ActionSystem.act_restrict_eq_some.mpr ⟨trivial, ha⟩⟩
      | drop j =>
        have hsame := ha
        change (if s.dropped j = false then some (s.drop j) else none) = some t at hsame
        split_ifs at hsame with hkept
        obtain rfl := Option.some.inj hsame
        refine (ih fun i hi => hdropped i ?_).tail
          ⟨.drop j, ActionSystem.act_restrict_eq_some.mpr ⟨hdropped j ?_, ha⟩⟩
        · by_cases hij : i = j
          · subst hij
            simp [ServiceState.drop]
          · simpa [ServiceState.drop, hij] using hi
        · simp [ServiceState.drop]

/-- What a listener should receive: the outcomes of all messages but ranges without logs. -/
def expected (i : Fin n) : List (EventScannerResult D) :=
  kept (outcomesOf (setup.getLogs i) setup.messages)

/-- No forwarding task has panicked, and the listeners that have kept their receivers have received
what they should, up to some point; and all of it when nothing more happens. -/
structure IsolatedAt (s : StreamState n D) : Prop where
  /-- No forwarding task has panicked. -/
  noPanic : ∀ i, (s.network.consumers i).forwarder ≠ .panicked
  /-- What has been received is what should be received first. -/
  received : ∀ i, s.Keeps i → setup.received s i <+: setup.expected i
  /-- In the end everything has been received. -/
  complete : setup.Quiet s → ∀ i, s.Keeps i → setup.received s i = setup.expected i

/-- The listeners do not disturb each other: in every interleaving all is well, and every
interleaving comes to its end. -/
structure Isolates : Prop where
  /-- Every interleaving comes to its end. -/
  ends : ∃ bound, ∀ as s, setup.system.run as setup.start = some s → as.length ≤ bound
  /-- In every interleaving all is well. -/
  isolated : ∀ s, setup.system.Reach setup.start s → setup.IsolatedAt s

/-- No listener may leave, or those that may can do no harm: the broadcast channel keeps the whole
stream, and all messages but the last one are ranges without logs for them. -/
def Harmless : Prop :=
  (∀ i, setup.mayDrop i = false) ∨
    setup.messages.length ≤ setup.config.capacity ∧
      ∀ i, setup.mayDrop i = true → ∀ k, (h : k + 1 < setup.messages.length) →
        StreamTask.skipped (fetchResult (setup.getLogs i k) setup.messages[k]) = true

end StreamHandler

end EventScanner
