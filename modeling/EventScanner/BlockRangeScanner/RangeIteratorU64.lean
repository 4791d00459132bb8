import EventScanner.BlockRangeScanner.RangeIterator
import EventScanner.Lib.CheckedUInt64

set_option relaxedAutoImplicit false
set_option autoImplicit false

/-!
# The block-range iterator in 64-bit arithmetic

`RangeIterator` with the machine words of the code, where an operation that over- or underflows
panics. Below `u64::MAX` nothing does, and the iterator does what the one over natural numbers
does; so its ranges partition the requested blocks, in both directions and however the upward
iterator is reset.

## Main definitions

* `EventScanner.RangeIteratorU64` with `forward`, `resetTo`, `reverse`, `next` and `sizeHint`;
  `none` stands for a panic.
* `EventScanner.RangeIteratorU64.Yields` — the ranges that are still to come.
* `EventScanner.RangeIteratorU64.Interleaved`, `EventScanner.RangeIteratorU64.Lowered` — the
  iterators that are reached by calls of `next` and `reset_to`.

## Main results

* `EventScanner.RangeIteratorU64.exists_next` — the iterator over words refines the one over
  numbers.
* `EventScanner.RangeIteratorU64.ranges_partition` — what comes behind the last reset is the
  partition of the rest, and `size_hint` counts it.

## Design

`usize` is taken to have 64 bits too, so that `usize::try_from` in `size_hint` does not fail.
-/

namespace EventScanner

open RangeInclusive UInt64

/-- An iterator that yields block ranges, in machine words. -/
structure RangeIteratorU64 (d : Direction) where
  /-- Where the next batch starts (upwards) or ends (downwards). -/
  current : UInt64
  /-- The last block to yield, the field `end` of the code. -/
  stop : UInt64
  /-- The maximal batch size. -/
  rangeSize : UInt64
  /-- The number of batches yielded. -/
  batchCount : UInt64
  /-- The number of batches after which the iterator is exhausted. -/
  totalBatches : UInt64
  deriving DecidableEq

namespace RangeIteratorU64

/-- The expression `(high - low) / size` of the code. -/
def quotient (low high size : UInt64) : Option UInt64 := do
  let distance ← checkedSub high low
  checkedDiv distance size

/-- `RangeIterator::forward`; it asserts that the batch size is positive. -/
def forward (start stop maxBlockRange : UInt64) : Option (RangeIteratorU64 .forward) :=
  if maxBlockRange < 1 then none
  else do
    let totalBatches ←
      if start > stop then some 0
      else do
        let batches ← quotient start stop maxBlockRange
        checkedAdd batches 1
    pure ⟨start, stop, maxBlockRange, 0, totalBatches⟩

/-- `RangeIterator::reset_to`. -/
def resetTo (it : RangeIteratorU64 .forward) (block : UInt64) :
    Option (RangeIteratorU64 .forward) := do
  let totalBatches ←
    if block > it.stop then some it.batchCount
    else do
      let batches ← quotient block it.stop it.rangeSize
      let total ← checkedAdd it.batchCount batches
      checkedAdd total 1
  pure { it with current := block, totalBatches := totalBatches }

/-- `RangeIterator::reverse`: from `start` down to `stop`. -/
def reverse (start stop maxBlockRange : UInt64) : Option (RangeIteratorU64 .reverse) :=
  if maxBlockRange < 1 then none
  else do
    let totalBatches ←
      if start < stop then some 0
      else do
        let batches ← quotient stop start maxBlockRange
        checkedAdd batches 1
    pure ⟨start, stop, maxBlockRange, 0, totalBatches⟩

/-- `Iterator::next`, for both directions. -/
def next : {d : Direction} → RangeIteratorU64 d →
    Option (Option (RangeInclusive × RangeIteratorU64 d))
  | .forward, it =>
    if it.batchCount ≥ it.totalBatches then some none
    else do
      let batchStart := it.current
      let width ← checkedSub it.rangeSize 1
      let batchEnd := min (saturatingAdd batchStart width) it.stop
      let current ← checkedAdd batchEnd 1
      let batchCount ← checkedAdd it.batchCount 1
      pure (some (⟨batchStart.toNat, batchEnd.toNat⟩,
        { it with current := current, batchCount := batchCount }))
  | .reverse, it =>
    if it.batchCount ≥ it.totalBatches then some none
    else do
      let batchHigh := it.current
      let width ← checkedSub it.rangeSize 1
      let batchLow := max (saturatingSub batchHigh width) it.stop
      let batchCount ← checkedAdd it.batchCount 1
      pure (some (⟨batchLow.toNat, batchHigh.toNat⟩,
        { it with current := saturatingSub batchLow 1, batchCount := batchCount }))

/-- `Iterator::size_hint`: the lower and the upper bound, for both directions. -/
def sizeHint : {d : Direction} → RangeIteratorU64 d → Option (UInt64 × Option UInt64)
  | .forward, it => do
    let remaining ← checkedSub it.totalBatches it.batchCount
    pure (remaining, none)
  | .reverse, it => do
    let remaining ← checkedSub it.totalBatches it.batchCount
    pure (remaining, some remaining)

/-! ### The iterator over numbers -/

section Refinement

variable {d : Direction} {it : RangeIteratorU64 d}

/-- The iterator over numbers that the words stand for. -/
def toNumbers (it : RangeIteratorU64 d) : RangeIterator d where
  current := it.current.toNat
  stop := it.stop.toNat
  rangeSize := it.rangeSize.toNat
  batchCount := it.batchCount.toNat
  totalBatches := it.totalBatches.toNat

/-- What keeps the next operation inside the 64 bits. -/
structure Fits (it : RangeIteratorU64 d) : Prop where
  /-- Batches have room for a block. -/
  rangeSize_pos : 1 ≤ it.rangeSize.toNat
  /-- There is a word behind the last block. -/
  stop_lt : it.stop.toNat < maxValue.toNat
  /-- No more batches have been yielded than there are. -/
  batchCount_le : it.batchCount.toNat ≤ it.totalBatches.toNat

/-- **The iterator over words refines the one over numbers**: `next` does not panic, and yields
what the other yields. -/
theorem exists_next (h : it.Fits) :
    ∃ res, it.next = some res ∧
      it.toNumbers.next = res.map (fun p => (p.1, p.2.toNumbers)) ∧
      ∀ r it', res = some (r, it') → it'.Fits ∧ it'.stop = it.stop ∧
        it'.rangeSize = it.rangeSize ∧ it'.batchCount.toNat = it.batchCount.toNat + 1 := by
  obtain ⟨hpos, hstop, hcount⟩ := h
  have htotal := toNat_le_maxValue it.totalBatches
  have hone : (1 : UInt64).toNat = 1 := rfl
  obtain ⟨width, hwidth, hwidth'⟩ := checkedSub_of_le (a := it.rangeSize) (b := 1) hpos
  cases d with
  | forward =>
    by_cases hdone : it.batchCount ≥ it.totalBatches
    · refine ⟨none, if_pos hdone, ?_, by simp⟩
      exact RangeIterator.next_eq_none_iff.mpr (UInt64.le_iff_toNat_le.mp hdone)
    · have hlt : it.batchCount.toNat < it.totalBatches.toNat := by
        rw [ge_iff_le, UInt64.le_iff_toNat_le] at hdone
        omega
      have hend : (min (saturatingAdd it.current width) it.stop).toNat =
          min (it.current.toNat + (it.rangeSize.toNat - 1)) it.stop.toNat := by
        rw [UInt64.toNat_min, toNat_saturatingAdd, hwidth', hone]
        omega
      obtain ⟨current, hcurrent, hcurrent'⟩ := checkedAdd_of_le
        (a := min (saturatingAdd it.current width) it.stop) (b := 1) (by rw [hend, hone]; omega)
      obtain ⟨count, hcount', hcount''⟩ := checkedAdd_of_le (a := it.batchCount) (b := 1)
        (by rw [hone]; omega)
      rw [hend, hone] at hcurrent'
      rw [hone] at hcount''
      refine ⟨some (⟨it.current.toNat, (min (saturatingAdd it.current width) it.stop).toNat⟩,
        { it with current := current, batchCount := count }), ?_, ?_, ?_⟩
      · simp [next, hdone, hwidth, hcurrent, hcount']
      · rw [RangeIterator.next_forward hlt]
        simp only [toNumbers, Option.map_some, hend, hcurrent', hcount'']
      · rintro r it' ⟨⟩
        exact ⟨⟨hpos, hstop, by dsimp only; omega⟩, rfl, rfl, hcount''⟩
  | reverse =>
    by_cases hdone : it.batchCount ≥ it.totalBatches
    · refine ⟨none, if_pos hdone, ?_, by simp⟩
      exact RangeIterator.next_eq_none_iff.mpr (UInt64.le_iff_toNat_le.mp hdone)
    · have hlt : it.batchCount.toNat < it.totalBatches.toNat := by
        rw [ge_iff_le, UInt64.le_iff_toNat_le] at hdone
        omega
      have hlow : (max (saturatingSub it.current width) it.stop).toNat =
          max (it.current.toNat - (it.rangeSize.toNat - 1)) it.stop.toNat := by
        rw [UInt64.toNat_max, toNat_saturatingSub, hwidth', hone]
      obtain ⟨count, hcount', hcount''⟩ := checkedAdd_of_le (a := it.batchCount) (b := 1)
        (by rw [hone]; omega)
      rw [hone] at hcount''
      refine ⟨some (⟨(max (saturatingSub it.current width) it.stop).toNat, it.current.toNat⟩,
        { it with
          current := saturatingSub (max (saturatingSub it.current width) it.stop) 1,
          batchCount := count }), ?_, ?_, ?_⟩
      · simp [next, hdone, hwidth, hcount']
      · rw [RangeIterator.next_reverse hlt]
        simp only [toNumbers, Option.map_some, toNat_saturatingSub, hlow, hcount'', hone]
      · rintro r it' ⟨⟩
        exact ⟨⟨hpos, hstop, by dsimp only; omega⟩, rfl, rfl, hcount''⟩

end Refinement

section Constructors

variable {start stop maxBlockRange block : UInt64}

/-- The quotient of a distance. -/
lemma exists_quotient {low high size : UInt64} (hle : low.toNat ≤ high.toNat)
    (hpos : 1 ≤ size.toNat) :
    ∃ q, quotient low high size = some q ∧
      q.toNat = (high.toNat - low.toNat) / size.toNat := by
  obtain ⟨distance, hdistance, hdistance'⟩ := checkedSub_of_le hle
  obtain ⟨q, hq, hq'⟩ := checkedDiv_of_pos (a := distance) hpos
  exact ⟨q, by simp [quotient, hdistance, hq], by rw [hq', hdistance']⟩

/-- The number of batches of a new iterator fits. -/
lemma exists_batches {low high size : UInt64} (hle : low.toNat ≤ high.toNat)
    (hhigh : high.toNat < maxValue.toNat) (hpos : 1 ≤ size.toNat) :
    ∃ q n, quotient low high size = some q ∧ checkedAdd q 1 = some n ∧
      n.toNat = (high.toNat - low.toNat) / size.toNat + 1 := by
  obtain ⟨q, hq, hq'⟩ := exists_quotient hle hpos
  have hdiv := Nat.div_le_self (high.toNat - low.toNat) size.toNat
  have hone : (1 : UInt64).toNat = 1 := rfl
  obtain ⟨n, hn, hn'⟩ := checkedAdd_of_le (a := q) (b := 1) (by rw [hq', hone]; omega)
  exact ⟨q, n, hq, hn, by rw [hn', hq', hone]⟩

/-- A new upward iterator. -/
lemma exists_forward (start : UInt64) (hstop : stop.toNat < maxValue.toNat)
    (hm : 1 ≤ maxBlockRange.toNat) :
    ∃ it, forward start stop maxBlockRange = some it ∧ it.Fits ∧ it.stop = stop ∧
      it.rangeSize = maxBlockRange ∧ it.batchCount = 0 ∧
      it.toNumbers = RangeIterator.forward start.toNat stop.toNat ⟨maxBlockRange.toNat, hm⟩ := by
  have hassert : ¬maxBlockRange < 1 := Nat.not_lt_of_le hm
  unfold forward
  rw [if_neg hassert]
  by_cases hempty : start > stop
  · refine ⟨⟨start, stop, maxBlockRange, 0, 0⟩, by simp [hempty], ⟨hm, hstop, Nat.le_refl _⟩, rfl,
      rfl, rfl, ?_⟩
    have hempty' : start.toNat > stop.toNat := hempty
    simp [toNumbers, RangeIterator.forward, hempty']
  · have hle : start.toNat ≤ stop.toNat := Nat.le_of_not_lt hempty
    obtain ⟨q, n, hq, hn, hn'⟩ := exists_batches hle hstop hm
    refine ⟨⟨start, stop, maxBlockRange, 0, n⟩, by simp [hempty, hq, hn],
      ⟨hm, hstop, Nat.zero_le _⟩, rfl, rfl, rfl, ?_⟩
    simp only [toNumbers, RangeIterator.forward]
    rw [if_neg (Nat.not_lt_of_le hle), hn']
    rfl

/-- A new downward iterator. -/
lemma exists_reverse (hstart : start.toNat < maxValue.toNat) (hstop : stop.toNat < maxValue.toNat)
    (hm : 1 ≤ maxBlockRange.toNat) :
    ∃ it, reverse start stop maxBlockRange = some it ∧ it.Fits ∧
      it.toNumbers = RangeIterator.reverse start.toNat stop.toNat ⟨maxBlockRange.toNat, hm⟩ := by
  have hassert : ¬maxBlockRange < 1 := Nat.not_lt_of_le hm
  unfold reverse
  rw [if_neg hassert]
  by_cases hempty : start < stop
  · refine ⟨⟨start, stop, maxBlockRange, 0, 0⟩, by simp [hempty], ⟨hm, hstop, Nat.le_refl _⟩, ?_⟩
    have hempty' : start.toNat < stop.toNat := hempty
    simp [toNumbers, RangeIterator.reverse, hempty']
  · have hle : stop.toNat ≤ start.toNat := Nat.le_of_not_lt hempty
    obtain ⟨q, n, hq, hn, hn'⟩ := exists_batches hle hstart hm
    refine ⟨⟨start, stop, maxBlockRange, 0, n⟩, by simp [hempty, hq, hn],
      ⟨hm, hstop, Nat.zero_le _⟩, ?_⟩
    simp only [toNumbers, RangeIterator.reverse]
    rw [if_neg (Nat.not_lt_of_le hle), hn']
    rfl

/-- How many ranges of at most `m` blocks the blocks from `block` to `stop` make. -/
def batchesFrom (block stop m : ℕ) : ℕ := if stop < block then 0 else (stop - block) / m + 1

/-- An upward iterator may be reset, as long as the number of its batches fits. -/
lemma exists_resetTo {it : RangeIteratorU64 .forward} (block : UInt64) (h : it.Fits)
    (hfit : it.batchCount.toNat + batchesFrom block.toNat it.stop.toNat it.rangeSize.toNat ≤
      maxValue.toNat) :
    ∃ it', it.resetTo block = some it' ∧ it'.Fits ∧ it'.stop = it.stop ∧
      it'.rangeSize = it.rangeSize ∧ it'.batchCount = it.batchCount ∧
      it'.toNumbers = it.toNumbers.resetTo block.toNat := by
  obtain ⟨hpos, hstop, -⟩ := h
  unfold resetTo
  unfold batchesFrom at hfit
  by_cases hempty : block > it.stop
  · refine ⟨{ it with current := block, totalBatches := it.batchCount }, by simp [hempty],
      ⟨hpos, hstop, Nat.le_refl _⟩, rfl, rfl, rfl, ?_⟩
    have hempty' : block.toNat > it.stop.toNat := hempty
    simp [toNumbers, RangeIterator.resetTo, hempty']
  · have hle : block.toNat ≤ it.stop.toNat := Nat.le_of_not_lt hempty
    rw [if_neg (Nat.not_lt_of_le hle)] at hfit
    have hone : (1 : UInt64).toNat = 1 := rfl
    obtain ⟨q, hq, hq'⟩ := exists_quotient hle hpos
    obtain ⟨total, htotal, htotal'⟩ := checkedAdd_of_le (a := it.batchCount) (b := q)
      (by rw [hq']; omega)
    obtain ⟨n, hn, hn'⟩ := checkedAdd_of_le (a := total) (b := 1)
      (by rw [htotal', hq', hone]; omega)
    rw [htotal', hq', hone] at hn'
    refine ⟨{ it with current := block, totalBatches := n }, by simp [hempty, hq, htotal, hn],
      ⟨hpos, hstop, by dsimp only; omega⟩, rfl, rfl, rfl, ?_⟩
    have hempty' : ¬block.toNat > it.stop.toNat := Nat.not_lt_of_le hle
    simp [toNumbers, RangeIterator.resetTo, hempty', hn']

end Constructors

/-! ### What is still to come -/

/-- Calls of `next` yield these ranges and then nothing, without a panic. -/
inductive Yields {d : Direction} : RangeIteratorU64 d → List RangeInclusive → Prop
  /-- The iterator is exhausted. -/
  | done {it : RangeIteratorU64 d} : it.next = some none → Yields it []
  /-- A range is yielded. -/
  | batch {it it' : RangeIteratorU64 d} {r : RangeInclusive} {rs : List RangeInclusive} :
      it.next = some (some (r, it')) → Yields it' rs → Yields it (r :: rs)

section Yields

variable {d : Direction} {it it' : RangeIteratorU64 d} {r : RangeInclusive}

/-- A range that is yielded is the next one of the iterator over numbers. -/
lemma Fits.next (h : it.Fits) (hnext : it.next = some (some (r, it'))) :
    it'.Fits ∧ it'.stop = it.stop ∧ it'.rangeSize = it.rangeSize ∧
      it'.batchCount.toNat = it.batchCount.toNat + 1 ∧
      it.toNumbers.ranges = r :: it'.toNumbers.ranges := by
  obtain ⟨res, hres, hnumbers, hfits⟩ := exists_next h
  obtain rfl := Option.some.inj (hres.symm.trans hnext)
  obtain ⟨hfits', hstop, hsize, hcount⟩ := hfits r it' rfl
  exact ⟨hfits', hstop, hsize, hcount, RangeIterator.ranges_of_next_eq_some hnumbers⟩

/-- **What is still to come is what the iterator over numbers yields.**

**Proof sketch.** Induction on the number of batches left. -/
theorem Fits.yields (h : it.Fits) : it.Yields it.toNumbers.ranges := by
  generalize hleft : it.toNumbers.ranges = rs
  induction rs generalizing it with
  | nil =>
    obtain ⟨res, hres, hnumbers, -⟩ := exists_next h
    cases res with
    | none => exact .done hres
    | some p =>
      rw [RangeIterator.ranges_of_next_eq_some hnumbers] at hleft
      cases hleft
  | cons r rs ih =>
    obtain ⟨res, hres, hnumbers, hfits⟩ := exists_next h
    cases res with
    | none =>
      rw [RangeIterator.ranges_of_next_eq_none hnumbers] at hleft
      cases hleft
    | some p =>
      rw [RangeIterator.ranges_of_next_eq_some hnumbers] at hleft
      obtain ⟨rfl, hrest⟩ := List.cons.inj hleft
      exact .batch hres (ih (hfits p.1 p.2 rfl).1 hrest)

/-- The lower bound of `size_hint` counts what is still to come. -/
lemma Fits.exists_sizeHint (h : it.Fits) :
    ∃ lower upper, it.sizeHint = some (lower, upper) ∧
      lower.toNat = it.toNumbers.ranges.length := by
  obtain ⟨lower, hlower, hlower'⟩ := checkedSub_of_le h.batchCount_le
  rw [RangeIterator.length_ranges]
  cases d with
  | forward => exact ⟨lower, none, by simp [sizeHint, hlower], hlower'⟩
  | reverse => exact ⟨lower, some lower, by simp [sizeHint, hlower], hlower'⟩

end Yields

/-! ### Interleavings -/

/-- The upward iterators up to `stop` that are reached from `start` by calls of `next` and
`reset_to` in any order, the number of batches staying inside the 64 bits: last made or reset at
`base`, having yielded `n` ranges in all and `since` from `base` on. A call of `next` that yields
nothing changes nothing. -/
inductive Interleaved (start stop maxBlockRange : UInt64) :
    UInt64 → ℕ → List RangeInclusive → RangeIteratorU64 .forward → Prop
  /-- A new iterator. -/
  | new {it : RangeIteratorU64 .forward} :
      forward start stop maxBlockRange = some it →
      Interleaved start stop maxBlockRange start 0 [] it
  /-- A range is yielded. -/
  | next {base : UInt64} {n : ℕ} {since : List RangeInclusive} {r : RangeInclusive}
      {it it' : RangeIteratorU64 .forward} :
      Interleaved start stop maxBlockRange base n since it →
      it.next = some (some (r, it')) →
      Interleaved start stop maxBlockRange base (n + 1) (since ++ [r]) it'
  /-- The iterator is reset. -/
  | reset {base block : UInt64} {n : ℕ} {since : List RangeInclusive}
      {it it' : RangeIteratorU64 .forward} :
      Interleaved start stop maxBlockRange base n since it →
      block < maxValue →
      n + batchesFrom block.toNat stop.toNat maxBlockRange.toNat ≤ maxValue.toNat →
      it.resetTo block = some it' →
      Interleaved start stop maxBlockRange block n [] it'

/-- The downward iterators that are reached by calls of `next`, having yielded `since`. -/
inductive Lowered (start stop maxBlockRange : UInt64) :
    List RangeInclusive → RangeIteratorU64 .reverse → Prop
  /-- A new iterator. -/
  | new {it : RangeIteratorU64 .reverse} :
      reverse start stop maxBlockRange = some it → Lowered start stop maxBlockRange [] it
  /-- A range is yielded. -/
  | next {since : List RangeInclusive} {r : RangeInclusive} {it it' : RangeIteratorU64 .reverse} :
      Lowered start stop maxBlockRange since it →
      it.next = some (some (r, it')) →
      Lowered start stop maxBlockRange (since ++ [r]) it'

section Interleavings

variable {start stop maxBlockRange base : UInt64} {n : ℕ} {since : List RangeInclusive}

/-- Behind its last reset an upward iterator cuts the blocks from there on.

**Proof sketch.** Induction on the interleaving. A new and a reset iterator over numbers have the
chunks of their range to come; `next` takes the first of them. -/
lemma Interleaved.chunks {it : RangeIteratorU64 .forward} (hstop : stop.toNat < maxValue.toNat)
    (hm : 1 ≤ maxBlockRange.toNat) (h : Interleaved start stop maxBlockRange base n since it) :
    it.Fits ∧ it.stop = stop ∧ it.rangeSize = maxBlockRange ∧ it.batchCount.toNat = n ∧
      it.toNumbers.Wf ∧
      Chunks maxBlockRange.toNat base.toNat stop.toNat (since ++ it.toNumbers.ranges) := by
  induction h with
  | @new it hnew =>
    obtain ⟨it', hit', hfits, hstop', hsize, hcount, hnumbers⟩ := exists_forward start
      hstop hm
    obtain rfl := Option.some.inj (hit'.symm.trans hnew)
    refine ⟨hfits, hstop', hsize, by rw [hcount]; rfl, ?_, ?_⟩
    · rw [hnumbers]
      exact RangeIterator.wf_forward ..
    · rw [hnumbers]
      exact RangeIterator.ranges_forward start.toNat stop.toNat ⟨maxBlockRange.toNat, hm⟩
  | @next base n since r it it' _ hnext ih =>
    obtain ⟨hfits, hstop', hsize, hcount, hwf, hchunks⟩ := ih
    obtain ⟨hfits', hstop'', hsize', hcount', hranges⟩ := hfits.next hnext
    refine ⟨hfits', hstop''.trans hstop', hsize'.trans hsize, by rw [hcount', hcount], ?_, ?_⟩
    · obtain ⟨res, hres, hnumbers, -⟩ := exists_next hfits
      obtain rfl := Option.some.inj (hres.symm.trans hnext)
      exact (hwf.next_eq_some hnumbers).2.2.2.2.2
    · rw [List.append_assoc, List.singleton_append, ← hranges]
      exact hchunks
  | @reset base block n since it it' _ hblock hfit hreset ih =>
    obtain ⟨hfits, hstop', hsize, hcount, hwf, -⟩ := ih
    obtain ⟨it'', hit'', hfits', hstop'', hsize', hcount', hnumbers⟩ := exists_resetTo
      block hfits (by rw [hcount, hstop', hsize]; exact hfit)
    obtain rfl := Option.some.inj (hit''.symm.trans hreset)
    have hwf' := hwf.resetTo block.toNat
    rw [← hnumbers] at hwf'
    refine ⟨hfits', hstop''.trans hstop', hsize'.trans hsize, by rw [hcount', hcount], hwf', ?_⟩
    have hchunks := hwf'.chunks_collect rfl
    have hsize'' : it''.toNumbers.rangeSize = maxBlockRange.toNat := by
      rw [← hsize, ← hsize']
      rfl
    have hstart : it''.toNumbers.current = block.toNat := by
      rw [hnumbers]
      rfl
    have hend : it''.toNumbers.stop = stop.toNat := by
      rw [← hstop', ← hstop'']
      rfl
    rw [hsize'', hstart, hend] at hchunks
    exact hchunks

/-- A downward iterator cuts its blocks. -/
lemma Lowered.revChunks {it : RangeIteratorU64 .reverse} (hstart : start.toNat < maxValue.toNat)
    (hstop : stop.toNat < maxValue.toNat) (hm : 1 ≤ maxBlockRange.toNat)
    (h : Lowered start stop maxBlockRange since it) :
    it.Fits ∧
      RevChunks maxBlockRange.toNat start.toNat stop.toNat (since ++ it.toNumbers.ranges) := by
  induction h with
  | @new it hnew =>
    obtain ⟨it', hit', hfits, hnumbers⟩ := exists_reverse hstart hstop hm
    obtain rfl := Option.some.inj (hit'.symm.trans hnew)
    refine ⟨hfits, ?_⟩
    rw [hnumbers]
    exact RangeIterator.ranges_reverse start.toNat stop.toNat ⟨maxBlockRange.toNat, hm⟩
  | @next since r it it' _ hnext ih =>
    obtain ⟨hfits, hchunks⟩ := ih
    obtain ⟨hfits', -, -, -, hranges⟩ := hfits.next hnext
    refine ⟨hfits', ?_⟩
    rw [List.append_assoc, List.singleton_append, ← hranges]
    exact hchunks

/-- The iterator has yielded `since` of what a new one, `first`, would yield; `rest` is still to
come, and `size_hint` counts it. -/
structure Continues {d : Direction} (first : Option (RangeIteratorU64 d))
    (since rest : List RangeInclusive) (it : RangeIteratorU64 d) : Prop where
  /-- What a new iterator yields. -/
  first_yields : ∃ it₀, first = some it₀ ∧ it₀.Yields (since ++ rest)
  /-- What is still to come. -/
  yields : it.Yields rest
  /-- The lower bound counts it. -/
  sizeHint_eq : ∃ lower upper, it.sizeHint = some (lower, upper) ∧ lower.toNat = rest.length

/-- **The iterator partitions exactly, in both directions and under resets.** -/
theorem ranges_partition (start stop maxBlockRange : UInt64) (hstart : start < maxValue)
    (hstop : stop < maxValue) (hm : 1 ≤ maxBlockRange) :
    (∃ it, forward start stop maxBlockRange = some it) ∧
      (∃ it, reverse start stop maxBlockRange = some it) ∧
      (∀ base n since it, Interleaved start stop maxBlockRange base n since it →
        (∃ rest, Continues (forward base stop maxBlockRange) since rest it ∧
          Partition maxBlockRange.toNat base.toNat stop.toNat (since ++ rest) ∧
          Ascending (since ++ rest)) ∧
        ∀ block < maxValue,
          n + batchesFrom block.toNat stop.toNat maxBlockRange.toNat ≤ maxValue.toNat →
          ∃ it', it.resetTo block = some it') ∧
      ∀ since it, Lowered start stop maxBlockRange since it →
        ∃ rest, Continues (reverse start stop maxBlockRange) since rest it ∧
          Partition maxBlockRange.toNat stop.toNat start.toNat (since ++ rest) ∧
          Descending (since ++ rest) := by
  have hstart' : start.toNat < maxValue.toNat := hstart
  have hstop' : stop.toNat < maxValue.toNat := hstop
  have hm' : 1 ≤ maxBlockRange.toNat := hm
  obtain ⟨up, hup, -⟩ := exists_forward start hstop' hm'
  obtain ⟨down, hdown, hdownFits, hdownNumbers⟩ := exists_reverse hstart' hstop' hm'
  refine ⟨⟨up, hup⟩, ⟨down, hdown⟩, fun base n since it h => ?_, fun since it h => ?_⟩
  · obtain ⟨hfits, hend, hsize, hcount, -, hchunks⟩ := h.chunks hstop' hm'
    constructor
    · obtain ⟨first, hfirst, hfirstFits, -, -, -, hnumbers⟩ := exists_forward base
        hstop' hm'
      have hyields := hfirstFits.yields
      have hfirstChunks := RangeIterator.ranges_forward base.toNat stop.toNat
        ⟨maxBlockRange.toNat, hm'⟩
      rw [hnumbers, hfirstChunks.unique hchunks] at hyields
      exact ⟨_, ⟨⟨first, hfirst, hyields⟩, hfits.yields, hfits.exists_sizeHint⟩,
        hchunks.partition hm', hchunks.ascending⟩
    · intro block _ hfit
      obtain ⟨it', hit', -⟩ := exists_resetTo block hfits
        (by rw [hcount, hend, hsize]; exact hfit)
      exact ⟨it', hit'⟩
  · obtain ⟨hfits, hchunks⟩ := h.revChunks hstart' hstop' hm'
    have hyields := hdownFits.yields
    have hdownChunks := RangeIterator.ranges_reverse start.toNat stop.toNat
      ⟨maxBlockRange.toNat, hm'⟩
    rw [hdownNumbers, hdownChunks.unique hchunks] at hyields
    exact ⟨_, ⟨⟨down, hdown, hyields⟩, hfits.yields, hfits.exists_sizeHint⟩,
      hchunks.partition hm', hchunks.descending⟩

/-- Two batches and a reset into the second one, with the other direction down to block `0`. -/
theorem ranges_partition_resetTo :
    Interleaved 100 300 50 175 2 [] ⟨175, 300, 50, 2, 5⟩ ∧
      (∃ rest, Yields (⟨175, 300, 50, 2, 5⟩ : RangeIteratorU64 .forward) rest ∧
        Partition 50 175 300 rest) ∧
      ∃ it rest, reverse 100 0 50 = some it ∧ it.Yields rest ∧ Partition 50 0 100 rest := by
  have hreset : Interleaved 100 300 50 175 2 [] ⟨175, 300, 50, 2, 5⟩ :=
    .reset (.next (.next (.new rfl) rfl) rfl) (by decide) (by decide) rfl
  obtain ⟨-, -, hforward, -⟩ := ranges_partition 100 300 50 (by decide) (by decide) (by decide)
  obtain ⟨⟨rest, hrest, hpart, -⟩, -⟩ := hforward _ _ _ _ hreset
  obtain ⟨-, ⟨it, hit⟩, -, hreverse⟩ := ranges_partition 100 0 50 (by decide) (by decide)
    (by decide)
  obtain ⟨rest', hrest', hpart', -⟩ := hreverse _ it (.new hit)
  exact ⟨hreset, ⟨rest, hrest.yields, hpart⟩, it, rest', hit, hrest'.yields, hpart'⟩

end Interleavings

end RangeIteratorU64

end EventScanner
