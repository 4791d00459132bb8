import EventScanner.Lib.Triple
import Mathlib.Algebra.BigOperators.Group.List.Basic
import Mathlib.Algebra.Order.Ring.Int

set_option relaxedAutoImplicit false
set_option autoImplicit false

/-!
# Credits

A weight says what an event brings in, or costs if it is negative. What a process earns is a lower
bound for the sum of the weights of the events that it appends, so that a process which never earns
less than `-n` costs at most `n` in every run. The bound depends on what the process returns: a
value that carries a potential may be worth more than was paid for it, and whoever gets the value
may spend the rest.

## Main definitions

* `EventLog.credit` — the sum of the weights of a log.
* `Proc.Earns` — what a process adds to the credit of its log.

## Main results

* `Proc.Earns.bind` — the rule for sequencing: what the first process earns is there for the second.
* `Proc.Earns.credit_le` — the balance of a whole run.
-/

namespace EventLog

variable {ε : Type}

/-- The sum of the weights of the events of a log. -/
def credit (w : ε → ℤ) (log : List ε) : ℤ := (log.map w).sum

variable (w : ε → ℤ)

@[simp] lemma credit_nil : credit w [] = 0 := rfl

@[simp] lemma credit_cons (e : ε) (log : List ε) : credit w (e :: log) = w e + credit w log := by
  simp [credit]

@[simp] lemma credit_append (new log : List ε) :
    credit w (new ++ log) = credit w new + credit w log := by
  simp [credit]

end EventLog

namespace Proc

open EventLog

variable {ε α β : Type} {w : ε → ℤ}

/-- Whatever credit there is before, a process adds at least `g a` to it when it returns `a`, and
at least `lost` when it runs out of fuel. -/
def Earns (w : ε → ℤ) (c : Proc ε α) (g : α → ℤ) (lost : ℤ) : Prop :=
  ∀ log, Ends (fun a log' => credit w log + g a ≤ credit w log')
    (fun log' => credit w log + lost ≤ credit w log') (c.run log)

variable {c : Proc ε α} {f : α → Proc ε β} {g g' : α → ℤ} {total : β → ℤ} {lost lost' : ℤ}

namespace Earns

/-- Returning at once earns nothing. -/
lemma pure {a : α} (h : g a ≤ 0) : Earns w (pure a) g lost := by
  intro log
  show credit w log + g a ≤ credit w log
  omega

/-- Nor does running out of fuel. -/
lemma halt (h : lost ≤ 0) : Earns w (halt : Proc ε α) g lost := by
  intro log
  show credit w log + lost ≤ credit w log
  omega

/-- An event earns its weight. -/
lemma emit {e : ε} {g : Unit → ℤ} (h : g () ≤ w e) : Earns w (Proc.emit e) g lost := by
  intro log
  show credit w log + g () ≤ credit w (e :: log)
  rw [credit_cons]
  omega

/-- **The rule for sequencing.** What the first process has earned counts for the second one. -/
lemma bind (hc : Earns w c g lost)
    (hf : ∀ a, Earns w (f a) (fun b => total b - g a) (lost - g a)) :
    Earns w (c >>= f) total lost := by
  intro log
  have hends := hc log
  rcases hrun : c.run log with ⟨_ | a, log'⟩ <;> rw [hrun] at hends
  · rw [run_bind_none hrun]
    exact hends
  · rw [run_bind_some hrun]
    have hle : credit w log + g a ≤ credit w log' := hends
    have hends := hf a log'
    rcases hrun' : (f a).run log' with ⟨_ | b, log''⟩ <;> rw [hrun'] at hends
    · show credit w log + lost ≤ credit w log''
      have hle' : credit w log' + (lost - g a) ≤ credit w log'' := hends
      omega
    · show credit w log + total b ≤ credit w log''
      have hle' : credit w log' + (total b - g a) ≤ credit w log'' := hends
      omega

/-- A process that earns much earns less as well. -/
lemma mono (h : Earns w c g lost) (hg : ∀ a, g' a ≤ g a) (hlost : lost' ≤ lost) :
    Earns w c g' lost' := by
  intro log
  have hends := h log
  rcases hrun : c.run log with ⟨_ | a, log'⟩ <;> rw [hrun] at hends
  · show credit w log + lost' ≤ credit w log'
    have hle : credit w log + lost ≤ credit w log' := hends
    omega
  · show credit w log + g' a ≤ credit w log'
    have hle : credit w log + g a ≤ credit w log' := hends
    have ha := hg a
    omega

/-- What a process earns whose runs are known. -/
lemma of_run (h : ∀ log, ∃ a new, c.run log = (some a, new ++ log) ∧ g a ≤ credit w new) :
    Earns w c g lost := by
  intro log
  obtain ⟨a, new, hrun, hle⟩ := h log
  rw [hrun]
  show credit w log + g a ≤ credit w (new ++ log)
  rw [credit_append]
  omega

/-- **The balance of a run.** -/
lemma credit_le (h : Earns w c g lost) {k : ℤ} (hg : ∀ a, k ≤ g a) (hlost : k ≤ lost)
    (log : List ε) : credit w log + k ≤ credit w (c.run log).2 := by
  have hends := h.mono hg hlost log
  rcases hrun : c.run log with ⟨_ | a, log'⟩ <;> rw [hrun] at hends <;> exact hends

end Earns

end Proc
