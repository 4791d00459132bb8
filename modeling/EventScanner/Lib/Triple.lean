import EventScanner.Lib.EventLog
import EventScanner.Lib.Proc

set_option relaxedAutoImplicit false
set_option autoImplicit false

/-!
# Hoare triples for processes

A triple says what holds of the log when a process returns, and what holds of it when the
process runs out of fuel, given what held of the log before. The rules follow the way a process
is built.

## Main definitions

* `Proc.Triple` — from a log that satisfies `P`, the process returns some `a` with `Q a` of the
  log, or runs out of fuel with `E` of the log.

## Main results

* `Proc.Triple.bind` — the rule for sequencing.
* `Proc.Triple.conseq` — the rule of consequence.
* `Proc.Triple.assuming` — a triple under an assumption on all events.
-/

namespace Proc

variable {ε α β : Type}

/-- How a run may end: with a value and a log as `Q` allows, or out of fuel with a log as `E`
allows. -/
def Ends (Q : α → List ε → Prop) (E : List ε → Prop) : Option α × List ε → Prop
  | (some a, log) => Q a log
  | (none, log) => E log

/-- From every log that satisfies `P`, the run of the process ends as `Q` and `E` allow. -/
def Triple (P : List ε → Prop) (c : Proc ε α) (Q : α → List ε → Prop) (E : List ε → Prop) :
    Prop :=
  ∀ log, P log → Ends Q E (c.run log)

namespace Triple

variable {P P' : List ε → Prop} {c : Proc ε α} {Q Q' : α → List ε → Prop} {E E' : List ε → Prop}
  {f : α → Proc ε β} {S : β → List ε → Prop}

/-- A process that returns at once. -/
lemma pure {a : α} (h : ∀ log, P log → Q a log) : Triple P (pure a) Q E := fun log hP => h log hP

/-- A process that has run out of fuel. -/
lemma halt (h : ∀ log, P log → E log) : Triple P (halt : Proc ε α) Q E := fun log hP => h log hP

/-- Appending an event. -/
lemma emit {e : ε} {S : Unit → List ε → Prop} (h : ∀ log, P log → S () (e :: log)) :
    Triple P (Proc.emit e) S E := fun log hP => h log hP

/-- **The rule for sequencing.** The second process starts where the first one returns. -/
lemma bind (hc : Triple P c Q E) (hf : ∀ a, Triple (Q a) (f a) S E) :
    Triple P (c >>= f) S E := by
  intro log hP
  have h := hc log hP
  rcases hrun : c.run log with ⟨_ | a, log'⟩
  · rw [hrun] at h
    rw [run_bind_none hrun]
    exact h
  · rw [hrun] at h
    rw [run_bind_some hrun]
    exact hf a log' h

/-- **The rule of consequence.** -/
lemma conseq (hc : Triple P c Q E) (hP : ∀ log, P' log → P log)
    (hQ : ∀ a log, Q a log → Q' a log) (hE : ∀ log, E log → E' log) : Triple P' c Q' E' := by
  intro log hlog
  have h := hc log (hP log hlog)
  rcases hrun : c.run log with ⟨_ | a, log'⟩
  · rw [hrun] at h
    exact hE _ h
  · rw [hrun] at h
    exact hQ a _ h

/-- **A triple under an assumption** on the events of the run: what held before, in case the
assumption was met so far, carries over to what holds behind, since the log only grows. -/
lemma assuming (C : ε → List ε → Prop) (hc : Triple P c Q E) :
    Triple (fun log => EventLog.Always C log → P log) c
      (fun a log => EventLog.Always C log → Q a log)
      (fun log => EventLog.Always C log → E log) := by
  intro log hP
  have hgrows := c.grows log
  have h := hc log
  rcases hrun : c.run log with ⟨_ | a, log'⟩ <;> rw [hrun] at h hgrows <;>
    exact fun hC => h (hP (hC.of_suffix hgrows))

/-- In a triple under an assumption on all events, the assumption may be taken to hold before. -/
lemma of_assuming {C : ε → List ε → Prop}
    (h : ∀ log, EventLog.Always C log → P log → Ends (fun a log => EventLog.Always C log → Q a log)
      (fun log => EventLog.Always C log → E log) (c.run log)) :
    Triple (fun log => EventLog.Always C log → P log) c
      (fun a log => EventLog.Always C log → Q a log)
      (fun log => EventLog.Always C log → E log) := by
  intro log hP
  by_cases hC : EventLog.Always C log
  · exact h log hC (hP hC)
  · have hgrows := c.grows log
    rcases hrun : c.run log with ⟨_ | a, log'⟩ <;> rw [hrun] at hgrows <;>
      exact fun hC' => absurd (hC'.of_suffix hgrows) hC

/-- A triple about what a process returns. -/
lemma of_run (h : ∀ log a log', P log → c.run log = (some a, log') → Q a log') :
    Triple P c Q fun _ => True := by
  intro log hP
  rcases hrun : c.run log with ⟨_ | a, log'⟩
  · trivial
  · exact h log a log' hP hrun

/-- A triple for which it does not matter how the run ends. -/
lemma of_log {I : List ε → Prop} (h : ∀ log, P log → I (c.run log).2) :
    Triple P c (fun _ => I) I := by
  intro log hP
  have hI := h log hP
  rcases hrun : c.run log with ⟨_ | a, log'⟩ <;> rw [hrun] at hI <;> exact hI

/-- What the triple says when it does not matter how the run ends. -/
lemma log_of_run {I : List ε → Prop} (hc : Triple P c (fun _ => I) I) {log : List ε}
    (hP : P log) : I (c.run log).2 := by
  have h := hc log hP
  rcases hrun : c.run log with ⟨_ | a, log'⟩ <;> rw [hrun] at h <;> exact h

/-- What the triple says of a run that is cut off. -/
lemma of_cut (hc : Triple P c Q E) {log : List ε} (hP : P log) (hcut : (c.run log).1 = none) :
    E (c.run log).2 := by
  have h := hc log hP
  rcases hrun : c.run log with ⟨_ | a, log'⟩ <;> rw [hrun] at h hcut
  · exact h
  · cases hcut

end Triple

end Proc
