import EventScanner.Lib.RangeInclusive
import Mathlib.Algebra.Order.Ring.Nat

set_option relaxedAutoImplicit false
set_option autoImplicit false

/-!
# The block-range iterator

`RangeIterator` (`range_iterator.rs`) cuts a range of blocks into batches of at most
`max_block_range` blocks, upwards or downwards; the upward one can be reset to another
position after a reorg.

## Main definitions

* `EventScanner.RangeIterator` with `forward`, `resetTo`, `reverse` and `next`.
* `EventScanner.RangeIterator.ranges` — the batches a `for` loop over the iterator sees.

## Main results

* `EventScanner.RangeIterator.Wf.next_eq_some`, `EventScanner.RangeIterator.Wf.next_eq_none` —
  the batch counter and the cursor of an upward iterator agree, resets included.
* `EventScanner.RangeIterator.ranges_forward`, `EventScanner.RangeIterator.ranges_reverse` —
  the batches are the cut of the range into chunks.

## Design

Block numbers are natural numbers. The `u64` of the code differs from them only within
`max_block_range` of `u64::MAX`, where its saturating addition stops.
-/

namespace EventScanner

/-- The direction of an iterator (`Forward`, `Reverse`). -/
inductive Direction
  | forward
  | reverse
  deriving DecidableEq, Repr

/-- A maximal batch size: iterators can only be built with one that is at least `1`. -/
abbrev MaxBlockRange := {m : ℕ // 1 ≤ m}

/-- The batch size of a scanner that is built without one. -/
def defaultMaxBlockRange : MaxBlockRange := ⟨1000, by decide⟩

/-- An iterator that yields block ranges of a configurable size. -/
structure RangeIterator (d : Direction) where
  /-- Where the next batch starts (upwards) or ends (downwards). -/
  current : ℕ
  /-- The last block to yield, the field `end` of the code. -/
  stop : ℕ
  /-- The maximal batch size. -/
  rangeSize : ℕ
  /-- The number of batches yielded. -/
  batchCount : ℕ
  /-- The number of batches after which the iterator is exhausted. -/
  totalBatches : ℕ
  deriving DecidableEq, Repr

namespace RangeIterator

/-- `RangeIterator::forward`. -/
def forward (start stop : ℕ) (maxBlockRange : MaxBlockRange) : RangeIterator .forward where
  current := start
  stop := stop
  rangeSize := maxBlockRange
  batchCount := 0
  totalBatches := if start > stop then 0 else (stop - start) / maxBlockRange + 1

/-- `RangeIterator::reset_to`. -/
def resetTo (it : RangeIterator .forward) (block : ℕ) : RangeIterator .forward :=
  { it with
    current := block
    totalBatches :=
      if block > it.stop then it.batchCount
      else it.batchCount + (it.stop - block) / it.rangeSize + 1 }

/-- `RangeIterator::reverse`: from `start` down to `stop`. -/
def reverse (start stop : ℕ) (maxBlockRange : MaxBlockRange) : RangeIterator .reverse where
  current := start
  stop := stop
  rangeSize := maxBlockRange
  batchCount := 0
  totalBatches := if start < stop then 0 else (start - stop) / maxBlockRange + 1

/-- `Iterator::next`, for both directions. -/
def next : {d : Direction} → RangeIterator d → Option (RangeInclusive × RangeIterator d)
  | .forward, it =>
    if it.batchCount ≥ it.totalBatches then none
    else
      let batchStart := it.current
      let batchEnd := min (batchStart + (it.rangeSize - 1)) it.stop
      some (⟨batchStart, batchEnd⟩,
        { it with current := batchEnd + 1, batchCount := it.batchCount + 1 })
  | .reverse, it =>
    if it.batchCount ≥ it.totalBatches then none
    else
      let batchHigh := it.current
      let batchLow := max (batchHigh - (it.rangeSize - 1)) it.stop
      some (⟨batchLow, batchHigh⟩,
        { it with current := batchLow - 1, batchCount := it.batchCount + 1 })

/-- The first `n` batches still to come. -/
def collect {d : Direction} : ℕ → RangeIterator d → List RangeInclusive
  | 0, _ => []
  | n + 1, it =>
    match it.next with
    | none => []
    | some (r, it') => r :: collect n it'

/-- The batches a `for` loop over the iterator sees. -/
def ranges {d : Direction} (it : RangeIterator d) : List RangeInclusive :=
  collect (it.totalBatches - it.batchCount) it

/-! ### The batches still to come -/

/-- The next batch upwards, while some are left. -/
lemma next_forward {it : RangeIterator .forward} (h : it.batchCount < it.totalBatches) :
    it.next = some (⟨it.current, min (it.current + (it.rangeSize - 1)) it.stop⟩,
      { it with
        current := min (it.current + (it.rangeSize - 1)) it.stop + 1,
        batchCount := it.batchCount + 1 }) := if_neg (Nat.not_le_of_lt h)

/-- The next batch downwards, while some are left. -/
lemma next_reverse {it : RangeIterator .reverse} (h : it.batchCount < it.totalBatches) :
    it.next = some (⟨max (it.current - (it.rangeSize - 1)) it.stop, it.current⟩,
      { it with
        current := max (it.current - (it.rangeSize - 1)) it.stop - 1,
        batchCount := it.batchCount + 1 }) := if_neg (Nat.not_le_of_lt h)

section Ranges

variable {d : Direction} {it it' : RangeIterator d} {r : RangeInclusive}

/-- An iterator is exhausted if and only if its batches have been yielded. -/
lemma next_eq_none_iff : it.next = none ↔ it.totalBatches ≤ it.batchCount := by
  cases d <;> simp [next]

/-- A batch is counted. -/
lemma batchCount_of_next (hn : it.next = some (r, it')) :
    it.batchCount < it.totalBatches ∧ it'.batchCount = it.batchCount + 1 ∧
      it'.totalBatches = it.totalBatches := by
  cases d <;>
  · simp only [next] at hn
    split_ifs at hn with hcount
    obtain ⟨-, rfl⟩ := Prod.mk.inj (Option.some.inj hn)
    exact ⟨Nat.lt_of_not_le hcount, rfl, rfl⟩

/-- An exhausted iterator has no batches to come. -/
lemma ranges_of_next_eq_none (hn : it.next = none) : it.ranges = [] := by
  have hcount := next_eq_none_iff.mp hn
  unfold ranges
  rw [Nat.sub_eq_zero_of_le hcount]
  rfl

/-- The next batch is the first one to come. -/
lemma ranges_of_next_eq_some (hn : it.next = some (r, it')) : it.ranges = r :: it'.ranges := by
  obtain ⟨hlt, hcount, htotal⟩ := batchCount_of_next hn
  have hleft : it.totalBatches - it.batchCount = it'.totalBatches - it'.batchCount + 1 := by omega
  unfold ranges
  rw [hleft]
  simp only [collect, hn]

/-- There are as many batches to come as the counter says. -/
lemma length_ranges (it : RangeIterator d) :
    it.ranges.length = it.totalBatches - it.batchCount := by
  generalize hleft : it.totalBatches - it.batchCount = n
  induction n generalizing it with
  | zero =>
    rw [ranges_of_next_eq_none (next_eq_none_iff.mpr (by omega)), List.length_nil]
  | succ n ih =>
    rcases hn : it.next with _ | ⟨r, it'⟩
    · have hcount := next_eq_none_iff.mp hn
      omega
    · obtain ⟨-, hcount, htotal⟩ := batchCount_of_next hn
      rw [ranges_of_next_eq_some hn, List.length_cons, ih it' (by omega)]

end Ranges

/-! ### The upward iterator -/

/-- The number of batches left agrees with the position of the cursor. -/
structure Wf (it : RangeIterator .forward) : Prop where
  /-- Batches have room for a block. -/
  rangeSize_pos : 1 ≤ it.rangeSize
  /-- As many batches are left as the rest of the range needs. -/
  totalBatches_eq : it.totalBatches = it.batchCount +
    if it.current > it.stop then 0 else (it.stop - it.current) / it.rangeSize + 1

/-- A new iterator is well formed. -/
lemma wf_forward (s e : ℕ) (m : MaxBlockRange) : (forward s e m).Wf where
  rangeSize_pos := m.2
  totalBatches_eq := (Nat.zero_add _).symm

variable {it it' : RangeIterator .forward} {r : RangeInclusive}

/-- Resetting keeps an iterator well formed, wherever it is reset to. -/
lemma Wf.resetTo (h : it.Wf) (block : ℕ) : (it.resetTo block).Wf where
  rangeSize_pos := h.rangeSize_pos
  totalBatches_eq := by
    by_cases hb : block > it.stop <;> simp [RangeIterator.resetTo, hb, Nat.add_assoc]

@[simp] lemma resetTo_current (it : RangeIterator .forward) (block : ℕ) :
    (it.resetTo block).current = block := rfl

@[simp] lemma resetTo_stop (it : RangeIterator .forward) (block : ℕ) :
    (it.resetTo block).stop = it.stop := rfl

@[simp] lemma resetTo_rangeSize (it : RangeIterator .forward) (block : ℕ) :
    (it.resetTo block).rangeSize = it.rangeSize := rfl

/-- An upward iterator is exhausted if and only if its cursor has passed the end. -/
lemma Wf.next_eq_none (h : it.Wf) : it.next = none ↔ it.stop < it.current := by
  have ht := h.totalBatches_eq
  simp only [next, ht]
  split_ifs <;> simp_all

/-- What an upward iterator yields: the batch from its cursor on, as long as the size and the
end of the range allow; then it stands behind that batch.

**Proof sketch.** The batch counter goes up by one. The number of batches the rest of the range
needs goes down by one: with at least `m` blocks behind the cursor, `d / m = (d - m) / m + 1`;
with fewer, the batch reaches the end. -/
lemma Wf.next_eq_some (h : it.Wf) (hn : it.next = some (r, it')) :
    it.current ≤ it.stop ∧ r = ⟨it.current, min (it.current + (it.rangeSize - 1)) it.stop⟩ ∧
      it'.current = r.stop + 1 ∧ it'.stop = it.stop ∧ it'.rangeSize = it.rangeSize ∧ it'.Wf := by
  have hpos := h.rangeSize_pos
  have hle : it.current ≤ it.stop := by
    by_contra hlt
    rw [h.next_eq_none.mpr (by omega)] at hn
    cases hn
  have ht := h.totalBatches_eq
  rw [if_neg (by omega)] at ht
  simp only [next] at hn
  split_ifs at hn with hcount
  obtain ⟨rfl, rfl⟩ := Prod.mk.inj (Option.some.inj hn)
  refine ⟨hle, rfl, rfl, rfl, rfl, hpos, ?_⟩
  dsimp only
  rw [ht]
  split_ifs with hlast
  · have hd : (it.stop - it.current) / it.rangeSize = 0 := Nat.div_eq_of_lt (by omega)
    omega
  · have hd := Nat.div_eq_sub_div (a := it.stop - it.current) (b := it.rangeSize) (by omega)
      (by omega)
    have hs : it.stop - (min (it.current + (it.rangeSize - 1)) it.stop + 1) =
        it.stop - it.current - it.rangeSize := by omega
    rw [hs, hd]
    omega

/-- A well-formed iterator that is not exhausted yields a batch. -/
lemma Wf.exists_next (h : it.Wf) (hle : it.current ≤ it.stop) :
    ∃ r it', it.next = some (r, it') := by
  rcases hn : it.next with _ | ⟨r, it'⟩
  · exact absurd (h.next_eq_none.mp hn) (by omega)
  · exact ⟨r, it', rfl⟩

/-- The first batches of an upward iterator cut the rest of its range, once there are as many
as are left. -/
lemma Wf.chunks_collect (h : it.Wf) {n : ℕ} (hn : n = it.totalBatches - it.batchCount) :
    RangeInclusive.Chunks it.rangeSize it.current it.stop (collect n it) := by
  induction n generalizing it with
  | zero =>
    have ht := h.totalBatches_eq
    by_contra hle
    simp only [collect, RangeInclusive.Chunks] at hle
    rw [if_neg (by omega)] at ht
    have hpos : it.batchCount < it.totalBatches := by
      rw [ht]
      exact Nat.lt_add_of_pos_right (Nat.succ_pos _)
    omega
  | succ n ih =>
    have hle : it.current ≤ it.stop := by
      by_contra hlt
      have ht := h.totalBatches_eq
      rw [if_pos (by omega)] at ht
      omega
    obtain ⟨r, it', hnext⟩ := h.exists_next hle
    obtain ⟨-, hr, hc, hs, hm, hw⟩ := h.next_eq_some hnext
    have hcount : n = it'.totalBatches - it'.batchCount := by
      simp only [next] at hnext
      split_ifs at hnext with hcount
      obtain ⟨-, rfl⟩ := Prod.mk.inj (Option.some.inj hnext)
      dsimp only
      omega
    have hrest := ih hw hcount
    rw [hc, hs, hm] at hrest
    simp only [collect, hnext]
    exact ⟨hle, hr, hrest⟩

/-- The batches of an upward iterator are the cut of its range into chunks. -/
theorem ranges_forward (s e : ℕ) (m : MaxBlockRange) :
    RangeInclusive.Chunks m s e (forward s e m).ranges :=
  (wf_forward s e m).chunks_collect rfl

/-! ### The downward iterator -/

/-- The first `n` batches of a downward iterator cut the rest of its range, when `n` is the
number of batches the range needs.

**Proof sketch.** Induction on `n`. As for the upward iterator, a batch lowers the number of
batches needed by one. When the batch reaches the lower end, the saturating cursor no longer
says so (it stays at `0`), but no batch is left. -/
lemma revChunks_collect {it : RangeIterator .reverse} {n : ℕ} (hpos : 1 ≤ it.rangeSize)
    (hle : it.stop ≤ it.current) (hn : n = (it.current - it.stop) / it.rangeSize + 1)
    (ht : it.totalBatches = it.batchCount + n) :
    RangeInclusive.RevChunks it.rangeSize it.current it.stop (collect n it) := by
  induction n generalizing it with
  | zero => exact absurd hn (Nat.succ_ne_zero _).symm
  | succ n ih =>
    have hlt : it.batchCount < it.totalBatches := by omega
    simp only [collect, next_reverse hlt]
    refine ⟨hle, rfl, ?_⟩
    split_ifs with hlast
    · have hd : (it.current - it.stop) / it.rangeSize = 0 := Nat.div_eq_of_lt (by
        dsimp only at hlast
        omega)
      obtain rfl : n = 0 := by omega
      rfl
    · dsimp only at hlast ⊢
      have hd := Nat.div_eq_sub_div (a := it.current - it.stop) (b := it.rangeSize) (by omega)
        (by omega)
      refine @ih { it with
        current := max (it.current - (it.rangeSize - 1)) it.stop - 1,
        batchCount := it.batchCount + 1 } hpos (by dsimp only; omega) ?_ (by dsimp only; omega)
      dsimp only
      have hs : max (it.current - (it.rangeSize - 1)) it.stop - 1 - it.stop =
          it.current - it.stop - it.rangeSize := by omega
      rw [hs]
      omega

/-- The batches of a downward iterator are the cut of its range into chunks. -/
theorem ranges_reverse (s e : ℕ) (m : MaxBlockRange) :
    RangeInclusive.RevChunks m s e (reverse s e m).ranges := by
  by_cases h : s < e
  · have h0 : (reverse s e m).totalBatches = 0 := if_pos h
    simp only [ranges, h0, Nat.zero_sub, collect]
    exact h
  · have ht : (reverse s e m).totalBatches = (s - e) / m + 1 := if_neg h
    have hc : (reverse s e m).totalBatches - (reverse s e m).batchCount = (s - e) / m + 1 := by
      rw [ht]; rfl
    simp only [ranges, hc]
    exact revChunks_collect m.2 (Nat.le_of_not_lt h) rfl (by rw [ht]; exact (Nat.zero_add _).symm)

/-- A reset while batches remain continues from the new position. -/
example : (((forward 100 300 ⟨50, by decide⟩).resetTo 175).ranges) =
    [⟨175, 224⟩, ⟨225, 274⟩, ⟨275, 300⟩] := by decide

end RangeIterator

end EventScanner
