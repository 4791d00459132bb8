import Mathlib.Data.List.Infix

set_option relaxedAutoImplicit false
set_option autoImplicit false

/-!
# Processes that write an event log

A `Proc ε α` is a computation that reads the log of past events (newest first), appends
events to it and returns a value of type `α`, or stops without one when its fuel runs out.
Whatever it does, the log before stays a suffix of the log after: the structure carries the
proof, so that no process can rewrite the past.

Answers of an environment that changes over time are modelled by a function of the log: two
calls at different times see different logs.

## Main definitions

* `Proc` — processes, with their monad structure.
* `Proc.emit`, `Proc.past`, `Proc.halt` — append an event, read the log, run out of fuel.
-/

/-- A computation that extends a log of events of type `ε`; `none` stands for running out of
fuel. -/
structure Proc (ε α : Type) where
  /-- Run the process on the log of past events. -/
  run : List ε → Option α × List ε
  /-- The log only grows. -/
  grows : ∀ log, log <:+ (run log).2

namespace Proc

variable {ε α β : Type}

/-- Return a value and leave the log alone. -/
protected def pure (a : α) : Proc ε α :=
  ⟨fun log => (some a, log), fun log => List.suffix_refl log⟩

/-- Run two processes one after the other; the second one does not start when the first has
run out of fuel. -/
protected def bind (c : Proc ε α) (f : α → Proc ε β) : Proc ε β where
  run log :=
    match c.run log with
    | (some a, log') => (f a).run log'
    | (none, log') => (none, log')
  grows log := by
    have h := c.grows log
    rcases hc : c.run log with ⟨_ | a, log'⟩
    · simpa only [hc] using h
    · rw [hc] at h
      exact h.trans ((f a).grows log')

instance : Monad (Proc ε) where
  pure := Proc.pure
  bind := Proc.bind

/-- Append an event to the log. -/
def emit (e : ε) : Proc ε Unit :=
  ⟨fun log => (some (), e :: log), fun log => List.suffix_cons e log⟩

/-- The log of the events so far. -/
def past : Proc ε (List ε) := ⟨fun log => (some log, log), fun log => List.suffix_refl log⟩

/-- Stop without a value: the fuel is used up. -/
def halt : Proc ε α := ⟨fun log => (none, log), fun log => List.suffix_refl log⟩

section Run

variable (log log' : List ε)

@[simp] lemma run_pure (a : α) : (pure a : Proc ε α).run log = (some a, log) := rfl

@[simp] lemma run_emit (e : ε) : (emit e).run log = (some (), e :: log) := rfl

@[simp] lemma run_past : (past : Proc ε (List ε)).run log = (some log, log) := rfl

@[simp] lemma run_halt : (halt : Proc ε α).run log = (none, log) := rfl

variable {log log'}

/-- The run of a sequence whose first part returns. -/
lemma run_bind_some {c : Proc ε α} {f : α → Proc ε β} {a : α}
    (h : c.run log = (some a, log')) : (c >>= f).run log = (f a).run log' := by
  change (Proc.bind c f).run log = _
  simp only [Proc.bind, h]

/-- The run of a sequence whose first part runs out of fuel. -/
lemma run_bind_none {c : Proc ε α} {f : α → Proc ε β}
    (h : c.run log = (none, log')) : (c >>= f).run log = (none, log') := by
  change (Proc.bind c f).run log = _
  simp only [Proc.bind, h]

@[simp] lemma run_bind_pure (a : α) (f : α → Proc ε β) :
    ((pure a : Proc ε α) >>= f).run log = (f a).run log := rfl

@[simp] lemma run_bind_emit (e : ε) (f : Unit → Proc ε β) :
    (emit e >>= f).run log = (f ()).run (e :: log) := rfl

@[simp] lemma run_bind_past (f : List ε → Proc ε β) :
    (past >>= f).run log = (f log).run log := rfl

/-- The second part of a sequence only extends the log of the first. -/
lemma suffix_run_bind (c : Proc ε α) (f : α → Proc ε β) :
    (c.run log).2 <:+ ((c >>= f).run log).2 := by
  rcases hc : c.run log with ⟨_ | a, log'⟩
  · rw [run_bind_none hc]
  · rw [run_bind_some hc]
    exact (f a).grows log'

/-- Returning a value behind a process leaves the log of the process. -/
lemma snd_run_bind_pure (c : Proc ε α) (b : β) :
    ((c >>= fun _ => pure b).run log).2 = (c.run log).2 := by
  rcases hc : c.run log with ⟨_ | a, log'⟩
  · rw [run_bind_none hc]
  · rw [run_bind_some hc, run_pure]

/-- Sequencing is associative. -/
@[simp] lemma run_bind_assoc {γ : Type} (c : Proc ε α) (f : α → Proc ε β) (g : β → Proc ε γ) :
    (c >>= f >>= g).run log = (c >>= fun a => f a >>= g).run log := by
  change (Proc.bind (Proc.bind c f) g).run log = (Proc.bind c fun a => Proc.bind (f a) g).run log
  simp only [Proc.bind]
  rcases c.run log with ⟨_ | a, log₁⟩ <;> rfl

end Run

end Proc
