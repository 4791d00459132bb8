import EventScanner.LiveStream.History

set_option relaxedAutoImplicit false
set_option autoImplicit false

/-!
# A consumer that rolls back

A consumer of a block-range stream applies every range it receives, and drops everything behind
the reported common ancestor when it is told of a reorg. This file says which blocks it holds,
and where the next range has to start so that it misses none.

## Main definitions

* `EventScanner.Held` — the consumer holds a block.
* `EventScanner.position` — where the next range has to start.
* `EventScanner.RollsBack` — a range starts there, and the consumer misses no block behind it.
* `EventScanner.liveStart` — the position at which a sync stream went over to the live phase.
* `EventScanner.HeldUpTo` — the consumer holds everything below its position.
-/

namespace EventScanner

open EventLog

variable {Hash : Type}

/-- The consumer holds the block: it has applied a range with the block and not rolled it
back. -/
def Held : Log Hash → ℕ → Prop
  | [], _ => False
  | .sent (.ok (.data r)) :: log, n => r.Contains n ∨ Held log n
  | .sent (.ok (.notification (.reorgDetected a))) :: log, n => n ≤ a ∧ Held log n
  | _ :: log, n => Held log n

instance decidableHeld : ∀ (log : Log Hash) (n : ℕ), Decidable (Held log n)
  | [], _ => .isFalse id
  | .sent (.ok (.data r)) :: log, n =>
    have := decidableHeld log n
    inferInstanceAs (Decidable (r.Contains n ∨ Held log n))
  | .sent (.ok (.notification (.reorgDetected a))) :: log, n =>
    have := decidableHeld log n
    inferInstanceAs (Decidable (n ≤ a ∧ Held log n))
  | .sent (.ok (.notification .switchingToLive)) :: log, n
  | .sent (.ok (.notification .noPastLogsFound)) :: log, n
  | .sent (.error _) :: log, n | .request _ :: log, n | .received _ :: log, n
  | .checked _ _ :: log, n => decidableHeld log n

/-- Where the next range of a stream from `start` on has to begin: behind the last range, or
behind the common ancestor of a reorg that was reported since, but not before the start. -/
def position (start : ℕ) : Log Hash → ℕ
  | [] => start
  | .sent (.ok (.data r)) :: _ => r.stop + 1
  | .sent (.ok (.notification (.reorgDetected a))) :: _ => max (a + 1) start
  | _ :: log => position start log

/-- The rollback protocol: a range that is sent begins where it has to, and a consumer that
applies it holds every block from the start of the stream up to the end of the range. -/
def RollsBack (start : ℕ) : Event Hash → Log Hash → Prop
  | .sent (.ok (.data r)), past =>
    r.start = position start past ∧
      ∀ n < r.stop + 1, start ≤ n → Held (.sent (dataItem r) :: past) n
  | _, _ => True

instance (start : ℕ) (e : Event Hash) (past : Log Hash) : Decidable (RollsBack start e past) :=
  match e with
  | .sent (.ok (.data r)) =>
    inferInstanceAs (Decidable (r.start = position start past ∧
      ∀ n < r.stop + 1, start ≤ n → Held (.sent (dataItem r) :: past) n))
  | .sent (.ok (.notification _)) | .sent (.error _) | .request _ | .received _
  | .checked _ _ => .isTrue trivial

/-- Only ranges can break the protocol. -/
lemma rollsBack_of_silent (start : ℕ) (e : Event Hash) (past : Log Hash) (h : e.Silent) :
    RollsBack start e past := by
  match e with
  | .sent (.ok (.data _)) => exact absurd h id
  | .sent (.ok (.notification _)) | .sent (.error _) | .request _ | .received _
  | .checked _ _ => trivial

/-- The position at which a stream from `start` on went over to the live phase: where it stood
when it sent `SwitchingToLive`. -/
def liveStart (start : ℕ) : Log Hash → ℕ
  | [] => start
  | .sent (.ok (.notification .switchingToLive)) :: log => position start log
  | _ :: log => liveStart start log

/-- Provider calls do not change where the live phase began. -/
lemma liveStart_append {reqs : Log Hash} (h : ∀ e ∈ reqs, e.isRequest = true) (start : ℕ)
    (log : Log Hash) : liveStart start (reqs ++ log) = liveStart start log := by
  induction reqs with
  | nil => rfl
  | cons e reqs ih =>
    have he := h e (by simp)
    cases e with
    | request r => exact ih fun e he => h e (by simp [he])
    | received | checked | sent => simp at he

/-- The consumer holds every block from `start` up to `k` (exclusively), and the next range has to
begin at `k`. -/
structure HeldUpTo (start : ℕ) (log : Log Hash) (k : ℕ) : Prop where
  /-- The next range has to begin at `k`. -/
  position_eq : position start log = k
  /-- The position is not before the start. -/
  start_le : start ≤ k
  /-- Everything below the position is held. -/
  held : ∀ n < k, start ≤ n → Held log n

variable {start k : ℕ} {log : Log Hash}

/-- A consumer that has not received anything. -/
lemma heldUpTo_nil (start : ℕ) : HeldUpTo start ([] : Log Hash) start :=
  ⟨rfl, Nat.le_refl _, fun n hlt hn => by omega⟩

/-- Silent events change nothing in what the consumer holds. -/
lemma held_append {new : Log Hash} (hnew : SilentLog new) (n : ℕ) :
    Held (new ++ log) n ↔ Held log n := by
  induction new with
  | nil => exact Iff.rfl
  | cons e new ih =>
    obtain ⟨he, hnew⟩ := silentLog_cons.mp hnew
    have ih := ih hnew
    match e with
    | .sent (.ok (.data _)) | .sent (.ok (.notification (.reorgDetected _))) => exact absurd he id
    | .sent (.ok (.notification .switchingToLive)) | .sent (.ok (.notification .noPastLogsFound))
    | .sent (.error _) | .request _ | .received _ | .checked _ _ => exact ih

/-- Silent events do not move the position. -/
lemma position_append {new : Log Hash} (hnew : SilentLog new) :
    position start (new ++ log) = position start log := by
  induction new with
  | nil => rfl
  | cons e new ih =>
    obtain ⟨he, hnew⟩ := silentLog_cons.mp hnew
    have ih := ih hnew
    match e with
    | .sent (.ok (.data _)) | .sent (.ok (.notification (.reorgDetected _))) => exact absurd he id
    | .sent (.ok (.notification .switchingToLive)) | .sent (.ok (.notification .noPastLogsFound))
    | .sent (.error _) | .request _ | .received _ | .checked _ _ => exact ih

/-- Silent events change nothing for the consumer. -/
lemma HeldUpTo.append {new : Log Hash} (h : HeldUpTo start log k) (hnew : SilentLog new) :
    HeldUpTo start (new ++ log) k :=
  ⟨(position_append hnew).trans h.position_eq, h.start_le,
    fun n hlt hn => (held_append hnew n).mpr (h.held n hlt hn)⟩

lemma HeldUpTo.cons {e : Event Hash} (h : HeldUpTo start log k) (he : e.Silent) :
    HeldUpTo start (e :: log) k :=
  h.append (silentLog_cons.mpr ⟨he, silentLog_nil⟩)

/-- A range at the position moves it behind the range. -/
lemma HeldUpTo.sent {r : RangeInclusive} (h : HeldUpTo start log r.start) (hle : r.start ≤ r.stop) :
    HeldUpTo start (.sent (dataItem r) :: log) (r.stop + 1) where
  position_eq := rfl
  start_le := by
    have := h.start_le
    omega
  held n hlt hn := by
    by_cases hs : n < r.start
    · exact Or.inr (h.held n hs hn)
    · exact Or.inl ⟨by omega, by omega⟩

/-- A range at the position follows the protocol. -/
lemma HeldUpTo.rollsBack {r : RangeInclusive} (h : HeldUpTo start log r.start)
    (hle : r.start ≤ r.stop) : RollsBack start (.sent (dataItem r)) log :=
  ⟨h.position_eq.symm, (h.sent hle).held⟩

/-- A reorg behind a held ancestor moves the position back behind the ancestor, or to the
start. -/
lemma HeldUpTo.reorg {a : ℕ} (h : HeldUpTo start log k) (ha : a < k) :
    HeldUpTo start (.sent (reorgItem a) :: log) (max (a + 1) start) where
  position_eq := rfl
  start_le := Nat.le_max_right _ _
  held n hlt hn := ⟨by omega, h.held n (by omega) hn⟩

end EventScanner
