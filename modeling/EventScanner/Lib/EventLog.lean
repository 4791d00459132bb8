import Mathlib.Data.List.Infix
import Mathlib.Logic.Relation

set_option relaxedAutoImplicit false
set_option autoImplicit false

/-!
# Event logs and logged transition systems

A program that talks to its environment leaves a *log* of events, kept here newest event
first, so that the log before an event is the tail behind it. A safety property says of
every event that it was allowed, given the log before it. The file has the predicate
`EventLog.Always` for this, and the assume-guarantee rule for transition systems whose
states carry a log.

## Main definitions

* `EventLog.Always` — every event of a log satisfies a property of the event and its past.
* `EventLog.AlwaysSince` — every event behind another log does.
* `EventLog.Since` — a property has held since the last event with another one.
* `EventLog.LoggedSystem` — a step relation on states that carry a growing log.

## Main results

* `EventLog.always_iff` — `Always φ` is `φ` at every event of the log.
* `EventLog.LoggedSystem.invariant` — the rule for an invariant under an assumption.
* `EventLog.LoggedSystem.safe` — the assume-guarantee rule: when every step keeps an
  invariant and appends only events allowed by `φ`, provided the log meets an assumption `C`,
  every run whose log meets `C` satisfies `φ` throughout.
-/

namespace EventLog

variable {ε : Type*}

/-- Every event of the log satisfies `φ` together with the log before it. -/
def Always (φ : ε → List ε → Prop) : List ε → Prop
  | [] => True
  | e :: past => φ e past ∧ Always φ past

instance decidableAlways (φ : ε → List ε → Prop) [∀ e past, Decidable (φ e past)] :
    ∀ log, Decidable (Always φ log)
  | [] => .isTrue trivial
  | e :: past =>
    have := decidableAlways φ past
    inferInstanceAs (Decidable (φ e past ∧ Always φ past))

variable {φ ψ : ε → List ε → Prop}

@[simp] lemma always_nil : Always φ [] := trivial

@[simp] lemma always_cons {e : ε} {past : List ε} :
    Always φ (e :: past) ↔ φ e past ∧ Always φ past := Iff.rfl

/-- A log satisfies `Always φ` if and only if `φ` holds at each of its events. -/
lemma always_iff {log : List ε} : Always φ log ↔ ∀ e past, e :: past <:+ log → φ e past := by
  induction log with
  | nil => simp
  | cons a log ih =>
    rw [always_cons, ih]
    constructor
    · rintro ⟨ha, h⟩ e past hs
      rcases List.suffix_cons_iff.mp hs with heq | hs
      · obtain ⟨rfl, rfl⟩ := List.cons.inj heq
        exact ha
      · exact h e past hs
    · intro h
      exact ⟨h a log (List.suffix_refl _),
        fun e past hs => h e past (hs.trans (List.suffix_cons a log))⟩

/-- `Always φ` passes to every earlier log. -/
lemma Always.of_suffix {log log' : List ε} (h : Always φ log') (hs : log <:+ log') :
    Always φ log :=
  always_iff.mpr fun e past he => always_iff.mp h e past (he.trans hs)

/-- Weakening the property of the events. -/
lemma Always.mono {log : List ε} (h : Always φ log) (hφ : ∀ e past, φ e past → ψ e past) :
    Always ψ log :=
  always_iff.mpr fun e past he => hφ e past (always_iff.mp h e past he)

/-- Two properties of the events together. -/
lemma always_and {log : List ε} :
    Always (fun e past => φ e past ∧ ψ e past) log ↔ Always φ log ∧ Always ψ log := by
  simp only [always_iff]
  constructor
  · intro h
    exact ⟨fun e past he => (h e past he).1, fun e past he => (h e past he).2⟩
  · rintro ⟨hφ, hψ⟩ e past he
    exact ⟨hφ e past he, hψ e past he⟩

/-- Appending events on which `φ` holds whatever their past keeps `Always φ`. -/
lemma always_append {new log : List ε} (hnew : ∀ e ∈ new, ∀ past, φ e past)
    (h : Always φ log) : Always φ (new ++ log) := by
  induction new with
  | nil => exact h
  | cons e new ih =>
    exact ⟨hnew e (by simp) _, ih fun e' he' => hnew e' (by simp [he'])⟩

/-- Every event behind the log `start` satisfies `φ` together with the log before it. -/
def AlwaysSince (start : List ε) (φ : ε → List ε → Prop) (log : List ε) : Prop :=
  ∀ e past, start <:+ past → e :: past <:+ log → φ e past

/-- At the start nothing is asked. -/
lemma alwaysSince_refl (start : List ε) : AlwaysSince start φ start := by
  intro e past hstart hlog
  have hlen := hstart.length_le
  have hlen' := hlog.length_le
  rw [List.length_cons] at hlen'
  omega

/-- One event behind the others. -/
lemma alwaysSince_cons {start past : List ε} {e : ε} (hstart : start <:+ past) :
    AlwaysSince start φ (e :: past) ↔ φ e past ∧ AlwaysSince start φ past := by
  constructor
  · intro h
    exact ⟨h e past hstart (List.suffix_refl _),
      fun e' past' hs he' => h e' past' hs (he'.trans (List.suffix_cons e past))⟩
  · rintro ⟨he, h⟩ e' past' hs he'
    rcases List.suffix_cons_iff.mp he' with heq | he'
    · obtain ⟨rfl, rfl⟩ := List.cons.inj heq
      exact he
    · exact h e' past' hs he'

/-- Events of which `φ` holds whatever their past change nothing. -/
lemma alwaysSince_append {start new log : List ε} (hstart : start <:+ log)
    (hnew : ∀ e ∈ new, ∀ past, φ e past) :
    AlwaysSince start φ (new ++ log) ↔ AlwaysSince start φ log := by
  induction new with
  | nil => rfl
  | cons e new ih =>
    rw [List.cons_append, alwaysSince_cons (hstart.trans (List.suffix_append new log)),
      ih fun e' he' => hnew e' (List.mem_cons_of_mem e he')]
    exact and_iff_right (hnew e List.mem_cons_self _)

/-- `ψ` held at some event of the log, and `φ` has held at every event since. -/
def Since (φ ψ : ε → List ε → Prop) : List ε → Prop
  | [] => False
  | e :: past => ψ e past ∨ φ e past ∧ Since φ ψ past

instance decidableSince (φ ψ : ε → List ε → Prop) [∀ e past, Decidable (φ e past)]
    [∀ e past, Decidable (ψ e past)] : ∀ log, Decidable (Since φ ψ log)
  | [] => .isFalse id
  | e :: past =>
    have := decidableSince φ ψ past
    inferInstanceAs (Decidable (ψ e past ∨ φ e past ∧ Since φ ψ past))

/-- At an event without `ψ`, `φ` holds, and both go back further. -/
lemma Since.of_not {e : ε} {past : List ε} (h : Since φ ψ (e :: past)) (hψ : ¬ψ e past) :
    φ e past ∧ Since φ ψ past :=
  h.resolve_left hψ

/-! ### Transition systems with a log -/

/-- A step relation on states that carry a log which steps only extend. -/
structure LoggedSystem (σ ε : Type*) where
  /-- The log of a state, newest event first. -/
  log : σ → List ε
  /-- One step of the system. -/
  step : σ → σ → Prop
  /-- A step appends to the log and changes nothing in it. -/
  log_suffix : ∀ {s t}, step s t → log s <:+ log t

namespace LoggedSystem

variable {σ : Type*} (S : LoggedSystem σ ε)

/-- `t` can be reached from `s` in some number of steps. -/
abbrev Reach : σ → σ → Prop := Relation.ReflTransGen S.step

variable {S}

/-- The log only grows along a run. -/
lemma Reach.log_suffix {s t : σ} (h : S.Reach s t) : S.log s <:+ S.log t := by
  induction h with
  | refl => exact List.suffix_refl _
  | tail _ hstep ih => exact ih.trans (S.log_suffix hstep)

/-- **The assume-guarantee rule.** If each step from a state satisfying the invariant `I`
leads to a state satisfying `I` and appends only events allowed by `φ`, whenever the log
after the step meets the assumption `C`, then in every run whose log meets `C` the invariant
and `Always φ` hold at the end.

**Proof sketch.** Induction on the run. `Always C` passes from the last log to the earlier
ones because logs only grow, so the induction hypothesis applies before the last step. -/
theorem safe {C : ε → List ε → Prop} {I : σ → Prop}
    (hstep : ∀ s t, S.step s t → Always C (S.log t) → I s → Always φ (S.log s) →
      I t ∧ Always φ (S.log t))
    {s t : σ} (h : S.Reach s t) (hI : I s) (hφ : Always φ (S.log s))
    (hC : Always C (S.log t)) : I t ∧ Always φ (S.log t) := by
  induction h with
  | refl => exact ⟨hI, hφ⟩
  | tail _ hlast ih =>
    obtain ⟨hI', hφ'⟩ := ih (hC.of_suffix (S.log_suffix hlast))
    exact hstep _ _ hlast hC hI' hφ'

/-- The rule for an invariant alone: steps keep it as long as the log meets the assumption. -/
theorem invariant {C : ε → List ε → Prop} {I : σ → Prop}
    (hstep : ∀ s t, S.step s t → Always C (S.log t) → I s → I t) {s t : σ}
    (h : S.Reach s t) (hI : I s) (hC : Always C (S.log t)) : I t := by
  have htrue : ∀ log : List ε, Always (fun _ _ => True) log :=
    fun log => always_iff.mpr fun _ _ _ => trivial
  exact (safe (fun s t hst hC hI _ => ⟨hstep s t hst hC hI, htrue _⟩) h hI (htrue _) hC).1

end LoggedSystem

end EventLog
