import EventScanner.Lib.EventLog
import Mathlib.Data.List.Pairwise

set_option relaxedAutoImplicit false
set_option autoImplicit false

/-!
# Replicas of an append-mostly source

A source publishes its entries, each of which lies at a position, in spans of consecutive
positions, and from time to time takes back everything behind a position. A *replica* appends what
a span brings, and drops what is taken back. The updates are kept newest first.

A replica is in order as long as each span begins behind everything it holds, and what it holds at
a position is what the last span over that position brought, unless this was taken back. So it
agrees with a reference if and only if the last spans do.

## Main definitions

* `Replica.Update`, `Replica.replay` — the updates, and what a replica holds behind them.
* `Replica.Appends` — a span brings entries in order, behind everything held.
* `Replica.lastSpan` — what the last span over a position brought.

## Main results

* `Replica.pairwise_replay` — a replica is in order.
* `Replica.filter_replay` — what it holds at a position.
* `Replica.replay_eq_iff` — when it agrees with a reference.
-/

namespace Replica

open EventLog

variable {E : Type*}

/-- What a source publishes. -/
inductive Update (E : Type*)
  /-- The entries at the positions from `low` to `high`. -/
  | extend (low high : ℕ) (entries : List E)
  /-- Everything behind a position is taken back. -/
  | withdraw (ancestor : ℕ)

/-- The entries behind the updates, newest update first. -/
def replay (key : E → ℕ) : List (Update E) → List E
  | [] => []
  | .extend _ _ entries :: past => replay key past ++ entries
  | .withdraw ancestor :: past => (replay key past).filter fun x => key x ≤ ancestor

/-- The entries of a list at a position. -/
def at' (key : E → ℕ) (n : ℕ) (entries : List E) : List E := entries.filter fun x => key x = n

/-- What the last span over a position brought there, unless it was taken back since. -/
def lastSpan (key : E → ℕ) (n : ℕ) : List (Update E) → Option (List E)
  | [] => none
  | .extend low high entries :: past =>
    if low ≤ n ∧ n ≤ high then some (at' key n entries) else lastSpan key n past
  | .withdraw ancestor :: past => if n ≤ ancestor then lastSpan key n past else none

/-- A span brings entries of its own, in order, and begins behind everything held. -/
def Appends (key : E → ℕ) (order : E → E → Prop) : Update E → List (Update E) → Prop
  | .extend low high entries, past =>
    (∀ x ∈ entries, low ≤ key x ∧ key x ≤ high) ∧ entries.Pairwise order ∧
      ∀ x ∈ replay key past, key x < low
  | .withdraw _, _ => True

variable {key : E → ℕ} {order : E → E → Prop} {updates : List (Update E)} {n : ℕ}

@[simp] lemma replay_withdraw {ancestor : ℕ} {past : List (Update E)} :
    replay key (.withdraw ancestor :: past) =
      (replay key past).filter fun x => key x ≤ ancestor := rfl

lemma lastSpan_extend {low high : ℕ} {entries : List E} {past : List (Update E)} :
    lastSpan key n (.extend low high entries :: past) =
      if low ≤ n ∧ n ≤ high then some (at' key n entries) else lastSpan key n past := rfl

lemma lastSpan_withdraw {ancestor : ℕ} {past : List (Update E)} :
    lastSpan key n (.withdraw ancestor :: past) =
      if n ≤ ancestor then lastSpan key n past else none := rfl

lemma at'_append (xs ys : List E) : at' key n (xs ++ ys) = at' key n xs ++ at' key n ys :=
  List.filter_append ..

lemma at'_eq_nil {entries : List E} (h : ∀ x ∈ entries, key x ≠ n) : at' key n entries = [] := by
  unfold at'
  rw [List.filter_eq_nil_iff]
  intro x hx
  simpa using h x hx

/-- **A replica is in order**, when entries at smaller positions come before those at larger
ones. -/
theorem pairwise_replay (horder : ∀ x y, key x < key y → order x y)
    (h : Always (Appends key order) updates) : (replay key updates).Pairwise order := by
  induction updates with
  | nil => exact List.Pairwise.nil
  | cons update past ih =>
    obtain ⟨happends, hpast⟩ := h
    cases update with
    | extend low high entries =>
      obtain ⟨hspan, hentries, hbehind⟩ := happends
      refine List.pairwise_append.mpr ⟨ih hpast, hentries, fun x hx y hy => ?_⟩
      apply horder
      exact Nat.lt_of_lt_of_le (hbehind x hx) (hspan y hy).1
    | withdraw ancestor => exact (ih hpast).filter _

/-- **What a replica holds at a position** is what the last span over it brought.

**Proof sketch.** Induction on the updates. A span over the position begins behind everything held,
so nothing was held there before. -/
theorem filter_replay (h : Always (Appends key order) updates) (n : ℕ) :
    at' key n (replay key updates) = (lastSpan key n updates).getD [] := by
  induction updates with
  | nil => rfl
  | cons update past ih =>
    obtain ⟨happends, hpast⟩ := h
    cases update with
    | extend low high entries =>
      obtain ⟨hspan, -, hbehind⟩ := happends
      have happend : at' key n (replay key (.extend low high entries :: past)) =
          at' key n (replay key past) ++ at' key n entries := at'_append ..
      rw [happend, lastSpan_extend]
      split_ifs with hn
      · have hnone : at' key n (replay key past) = [] := by
          apply at'_eq_nil
          intro x hx
          have := hbehind x hx
          omega
        rw [hnone]
        rfl
      · have hnone : at' key n entries = [] := by
          apply at'_eq_nil
          intro x hx
          have := hspan x hx
          omega
        rw [hnone, List.append_nil, ih hpast]
    | withdraw ancestor =>
      have hcomm : at' key n (replay key (.withdraw ancestor :: past)) =
          (at' key n (replay key past)).filter fun x => key x ≤ ancestor := List.filter_comm ..
      rw [hcomm, ih hpast, lastSpan_withdraw]
      split_ifs with hn
      · rw [← ih hpast]
        refine List.filter_eq_self.mpr fun x hx => ?_
        have hkey := (List.mem_filter.mp hx).2
        simp only [decide_eq_true_eq] at hkey ⊢
        omega
      · rw [← ih hpast]
        apply List.filter_eq_nil_iff.mpr
        intro x hx
        have hkey := (List.mem_filter.mp hx).2
        simp only [decide_eq_true_eq] at hkey ⊢
        omega

/-- Lists in order of their positions are equal if they agree at every position.

**Proof sketch.** The first entries of the two lists lie at the same position, since each of them
occurs in the other list; so they are the first entries at that position. -/
lemma eq_of_at'_eq {xs ys : List E} (hx : xs.Pairwise fun x y => key x ≤ key y)
    (hy : ys.Pairwise fun x y => key x ≤ key y) (h : ∀ n, at' key n xs = at' key n ys) :
    xs = ys := by
  have hmem {xs ys : List E} (h : ∀ n, at' key n xs = at' key n ys) (x : E) (hx : x ∈ xs) :
      x ∈ ys := by
    have hat : x ∈ at' key (key x) xs := List.mem_filter.mpr ⟨hx, by simp⟩
    rw [h] at hat
    exact (List.mem_filter.mp hat).1
  induction xs generalizing ys with
  | nil =>
    symm
    rw [List.eq_nil_iff_forall_not_mem]
    intro y hys
    exact absurd (hmem (fun n => (h n).symm) y hys) List.not_mem_nil
  | cons x xs ih =>
    match ys with
    | [] => exact absurd (hmem h x List.mem_cons_self) List.not_mem_nil
    | y :: ys =>
      obtain ⟨hxs, hxrest⟩ := List.pairwise_cons.mp hx
      obtain ⟨hys, hyrest⟩ := List.pairwise_cons.mp hy
      have hle : key x ≤ key y := by
        rcases List.mem_cons.mp (hmem (fun n => (h n).symm) y List.mem_cons_self) with rfl | hmem
        · exact Nat.le_refl _
        · exact hxs y hmem
      have hge : key y ≤ key x := by
        rcases List.mem_cons.mp (hmem h x List.mem_cons_self) with rfl | hmem
        · exact Nat.le_refl _
        · exact hys x hmem
      have hkey : key y = key x := Nat.le_antisymm hge hle
      have hhead := h (key x)
      unfold at' at hhead
      rw [List.filter_cons_of_pos (by simp), List.filter_cons_of_pos (by simpa using hkey)] at hhead
      obtain ⟨rfl, htail⟩ := List.cons.inj hhead
      congr 1
      refine ih hxrest hyrest fun n => ?_
      have hn := h n
      unfold at' at hn ⊢
      by_cases hkn : key x = n
      · rw [← hkn]
        exact htail
      · rwa [List.filter_cons_of_neg (by simpa using hkn),
          List.filter_cons_of_neg (by simpa using hkn)] at hn

/-- **A replica agrees with a reference** if and only if the last span over each position brought
what the reference has there. -/
theorem replay_eq_iff (horder : ∀ x y, key x < key y → order x y)
    (hle : ∀ x y, order x y → key x ≤ key y) (h : Always (Appends key order) updates)
    {reference : List E} (hreference : reference.Pairwise order) :
    replay key updates = reference ↔
      ∀ n, (lastSpan key n updates).getD [] = at' key n reference := by
  constructor
  · intro heq n
    rw [← filter_replay h, heq]
  · intro hlast
    have hreplay := pairwise_replay horder h
    refine eq_of_at'_eq (hreplay.imp (hle _ _)) (hreference.imp (hle _ _)) fun n => ?_
    rw [filter_replay h, hlast]

end Replica
