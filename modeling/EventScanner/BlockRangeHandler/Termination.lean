import EventScanner.BlockRangeHandler.Network
import Mathlib.Algebra.Order.BigOperators.Group.Finset

set_option relaxedAutoImplicit false
set_option autoImplicit false

/-!
# Every interleaving comes to its end

On a finite stream a handler and its consumers can only take a bounded number of steps. Each
message costs every consumer a few steps: it is received, passed on, taken, fetched and handled.

## Main definitions

* `EventScanner.Consumer.work`, `EventScanner.Network.work` — a bound on the steps left.

## Main results

* `EventScanner.NetworkStep.work_lt` — every step lowers the bound.
-/

namespace EventScanner

variable {n : ℕ} {τ D : Type}

/-- The steps of a forwarding task and what follows from the message it holds. -/
def Forwarder.work : Forwarder → ℕ
  | .receiving => 1
  | .sending _ _ => 6
  | .done | .panicked | .aborted => 0

/-- The steps left for a consumer, when `sent` messages have been sent. -/
def Consumer.work (sent : ℕ) (c : Consumer τ D) : ℕ :=
  6 * (sent - c.next) + c.forwarder.work + 4 * c.buffer.length +
    (c.inFlight.length + c.inFlight.countP fun fetch => !fetch.2) + if c.ended then 0 else 1

/-- The steps left for the handler itself; every message still to come costs every consumer some
steps. -/
def Broadcaster.work (n : ℕ) : Broadcaster → ℕ
  | .streaming messages => messages.length * (6 * n + 1) + 2
  | .joining => 1
  | .returned | .panicked => 0

/-- The steps left for a handler and its consumers. -/
def Network.work (s : Network n τ D) : ℕ :=
  s.broadcaster.work n + ∑ i, (s.consumers i).work s.sent.length

section Steps

variable {cfg : HandlerConfig} {inner : ProcessingTask τ D} {getLogs : GetLogs D}
  {sent : List BlockScannerResult} {closed listening : Bool} {c c' : Consumer τ D}

/-- A step of a consumer lowers its work. -/
lemma ConsumerStep.work_lt (h : ConsumerStep cfg inner getLogs sent closed listening c c') :
    c'.work sent.length < c.work sent.length := by
  unfold Consumer.work
  cases h with
  | recv hlt hf =>
    simp only [hf, Forwarder.work]
    omega
  | lag hf hlag =>
    simp only [hf, Forwarder.work]
    omega
  | close hf =>
    simp only [hf, Forwarder.work]
    omega
  | send hf =>
    simp only [hf, Forwarder.work, List.length_append, List.length_singleton]
    omega
  | gone hf =>
    simp only [hf]
    split_ifs <;> simp only [Forwarder.work] <;> omega
  | pull _ _ hbuffer =>
    simp only [hbuffer, List.length_append, List.length_cons, List.length_nil, List.countP_append,
      List.countP_singleton, Bool.not_false, if_true]
    omega
  | fetched _ hfetch =>
    obtain ⟨hj, hget⟩ := List.getElem?_eq_some_iff.mp hfetch
    have hpos : 0 < c.inFlight.countP fun fetch => !fetch.2 :=
      List.countP_pos_iff.mpr ⟨_, List.mem_of_getElem? hfetch, rfl⟩
    simp only [List.length_set, List.countP_set hj, hget, Bool.not_false, Bool.not_true, if_true,
      Bool.false_eq_true, if_false]
    omega
  | process hwaiting hfirst =>
    simp only [hfirst, hwaiting.1, List.length_cons, List.countP_cons, Bool.not_true,
      Bool.false_eq_true, if_false]
    split_ifs <;> omega
  | finish hnot =>
    simp only [hnot, if_true, Bool.false_eq_true, if_false]
    omega

/-- One more message costs a consumer six steps. -/
lemma Consumer.work_succ_le (k : ℕ) (c : Consumer τ D) : c.work (k + 1) ≤ c.work k + 6 := by
  unfold Consumer.work
  omega

variable {handler : BlockRangeHandler n τ D} {listeners : Fin n → Bool} {s t : Network n τ D}

/-- Changing a consumer to one with less work lowers the work of all. -/
lemma sum_work_update_lt {k : ℕ} {consumers : Fin n → Consumer τ D} {i : Fin n}
    (h : c.work k < (consumers i).work k) :
    ∑ j, (Function.update consumers i c j).work k < ∑ j, (consumers j).work k := by
  refine Finset.sum_lt_sum (fun j _ => ?_) ⟨i, Finset.mem_univ i, by simpa using h⟩
  by_cases hij : j = i
  · subst hij
    simpa using Nat.le_of_lt h
  · simp [hij]

/-- **Every step lowers the work.** -/
theorem NetworkStep.work_lt (h : NetworkStep handler listeners s t) : t.work < s.work := by
  unfold Network.work
  cases h with
  | @broadcast message messages sent consumers =>
    have hsum : ∑ i, (consumers i).work (sent.length + 1) ≤
        ∑ i, (consumers i).work sent.length + n * 6 := by
      calc ∑ i, (consumers i).work (sent.length + 1)
          ≤ ∑ i, ((consumers i).work sent.length + 6) :=
            Finset.sum_le_sum fun i _ => (consumers i).work_succ_le sent.length
        _ = ∑ i, (consumers i).work sent.length + n * 6 := by simp [Finset.sum_add_distrib]
    simp only [Broadcaster.work, List.length_append, List.length_cons, List.length_nil,
      Nat.succ_mul, Nat.zero_add]
    omega
  | close =>
    simp only [Broadcaster.work]
    omega
  | joined | joinPanic =>
    simp only [Broadcaster.work]
    omega
  | task hstep => exact Nat.add_lt_add_left (sum_work_update_lt hstep.work_lt) _
  | @abort _ consumers i hrunning =>
    refine Nat.add_lt_add_left (sum_work_update_lt ?_) _
    have hpos : 0 < (consumers i).forwarder.work := by
      cases hf : (consumers i).forwarder <;> simp_all [Forwarder.work, Forwarder.isRunning]
    have hzero : Forwarder.aborted.work = 0 := rfl
    simp only [Consumer.work]
    omega

end Steps

end EventScanner
