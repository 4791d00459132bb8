import Mathlib.Algebra.Group.Nat.Defs
import Mathlib.Data.List.Basic
import Mathlib.Data.Nat.Log

set_option relaxedAutoImplicit false
set_option autoImplicit false

/-!
# Broadcast channels

A broadcast channel keeps the values that were sent last, up to its capacity. Each receiver has a
position of its own in what was sent. A receiver that falls behind the values kept is told how
many it has missed, and goes on at the oldest value kept.

## Main definitions

* `Broadcast.slots` — how many values a channel keeps.
* `Broadcast.Received`, `Broadcast.recv` — what a receiver gets, and its position afterwards.
* `Broadcast.Accounts` — what a receiver has got accounts for everything that was sent.

## Main results

* `Broadcast.recv_of_lt`, `Broadcast.recv_of_lagging`, `Broadcast.recv_end` — the three cases.
* `Broadcast.Accounts.of_isPrefix` — an account stays valid when more is sent.
* `Broadcast.Accounts.eq_take` — on a channel that keeps everything nothing is missed.
-/

namespace Broadcast

variable {α : Type*}

/-- A channel that is made for so many values keeps the next power of two of them. -/
def slots (capacity : ℕ) : ℕ := 2 ^ Nat.clog 2 capacity

lemma slots_pos (capacity : ℕ) : 0 < slots capacity := Nat.two_pow_pos _

/-- What a receiver gets. -/
inductive Received (α : Type*)
  /-- The value at its position. -/
  | value (a : α)
  /-- It has missed this many values. -/
  | lagged (skipped : ℕ)
  /-- It has got everything, and there are no senders left. -/
  | closed
  /-- It has got everything so far. -/
  | pending

/-- What a receiver at a position gets, and its next position. -/
def recv (capacity : ℕ) (sent : List α) (closed : Bool) (next : ℕ) : Received α × ℕ :=
  let oldest := sent.length - capacity
  if next < oldest then (.lagged (oldest - next), oldest)
  else
    match sent[next]? with
    | some a => (.value a, next + 1)
    | none => (if closed then .closed else .pending, next)

variable {capacity : ℕ} {sent : List α} {closed : Bool} {next : ℕ}

/-- A receiver that has fallen behind. -/
lemma recv_of_lagging (h : next < sent.length - capacity) :
    recv capacity sent closed next =
      (.lagged (sent.length - capacity - next), sent.length - capacity) := by
  unfold recv
  rw [if_pos h]

/-- A receiver that has not fallen behind gets the next value. -/
lemma recv_of_lt (hkept : sent.length - capacity ≤ next) (h : next < sent.length) :
    recv capacity sent closed next = (.value sent[next], next + 1) := by
  unfold recv
  rw [if_neg (by omega), List.getElem?_eq_getElem h]

/-- A receiver that has got everything. -/
lemma recv_end (h : sent.length ≤ next) :
    recv capacity sent closed next = (if closed then .closed else .pending, next) := by
  unfold recv
  rw [if_neg (by omega), List.getElem?_eq_none h]

/-- What a receiver has got up to its position accounts for everything that was sent: each value is
there once and in order, or belongs to one gap, in whose place the report says how long it is. A
receiver falls behind when the channel does not keep the next value any more, and goes on at the
oldest value kept. -/
inductive Accounts (capacity : ℕ) (report : ℕ → α) (sent : List α) : List α → ℕ → Prop
  /-- Nothing has been received. -/
  | start : Accounts capacity report sent [] 0
  /-- The next value is received. -/
  | value {got : List α} {next : ℕ} (h : next < sent.length) :
      Accounts capacity report sent got next →
      Accounts capacity report sent (got ++ [sent[next]]) (next + 1)
  /-- The next values are missed. -/
  | gap {got : List α} {next skipped : ℕ} :
      0 < skipped → next + skipped + capacity ≤ sent.length →
      Accounts capacity report sent got next →
      Accounts capacity report sent (got ++ [report skipped]) (next + skipped)

namespace Accounts

variable {report : ℕ → α} {sent' got : List α}

/-- An account stays valid when more is sent. -/
lemma of_isPrefix (h : Accounts capacity report sent got next) (hsent : sent <+: sent') :
    Accounts capacity report sent' got next := by
  have hlen := hsent.length_le
  induction h with
  | start => exact .start
  | @value got next hnext _ ih =>
    rw [hsent.getElem hnext]
    exact .value (by omega) ih
  | gap hpos hle _ ih => exact .gap hpos (by omega) ih

/-- The position is inside what was sent. -/
lemma le_length (h : Accounts capacity report sent got next) : next ≤ sent.length := by
  cases h with
  | start => exact Nat.zero_le _
  | value hnext => exact hnext
  | gap _ hle => exact (Nat.le_add_right _ _).trans hle

/-- A receiver can get all values up to a position. -/
lemma take (hnext : next ≤ sent.length) : Accounts capacity report sent (sent.take next) next := by
  induction next with
  | zero => exact .start
  | succ next ih =>
    rw [← List.take_append_getElem hnext]
    exact .value hnext (ih (Nat.le_of_succ_le hnext))

/-- On a channel that keeps everything nothing is missed. -/
lemma eq_take (h : Accounts capacity report sent got next) (hkept : sent.length ≤ capacity) :
    got = sent.take next := by
  induction h with
  | start => rfl
  | @value got next hnext _ ih => rw [ih, List.take_append_getElem]
  | gap hpos hle => omega

end Accounts

end Broadcast
