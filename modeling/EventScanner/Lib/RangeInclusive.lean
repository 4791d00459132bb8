import Mathlib.Data.List.Basic
import Mathlib.Order.Basic

set_option relaxedAutoImplicit false
set_option autoImplicit false

/-!
# Inclusive ranges of numbers, and cutting one into chunks

A range `a..=b` of natural numbers, and the two ways of cutting a long range into pieces of
at most `m` numbers: from its lower end upwards, and from its upper end downwards.

## Main definitions

* `RangeInclusive` — a range given by its first and last number.
* `RangeInclusive.Chunks`, `RangeInclusive.RevChunks` — a list of ranges is the cut of
  `s..=e` into chunks of `m`, upwards or downwards.
* `RangeInclusive.Consecutive` — a list of ranges goes from `s` up to `e` without a gap.
* `RangeInclusive.Partition` — a list of ranges partitions `s..=e`.

## Main results

* `RangeInclusive.Chunks.bounds`, `RangeInclusive.RevChunks.bounds` — each chunk is a nonempty range
  inside `s..=e`.
* `RangeInclusive.Chunks.partition`, `RangeInclusive.RevChunks.partition` — a cut is a partition.
-/

/-- An inclusive range of natural numbers; empty if `stop < start`. -/
structure RangeInclusive where
  /-- The first number. -/
  start : ℕ
  /-- The last number. -/
  stop : ℕ
  deriving DecidableEq, Repr

namespace RangeInclusive

/-- The number belongs to the range. -/
def Contains (r : RangeInclusive) (n : ℕ) : Prop := r.start ≤ n ∧ n ≤ r.stop

instance (r : RangeInclusive) (n : ℕ) : Decidable (r.Contains n) :=
  inferInstanceAs (Decidable (_ ∧ _))

/-! ### Cutting upwards -/

/-- `rs` is the cut of `s..=e` into consecutive ascending chunks of `m` numbers, the last one
possibly shorter. -/
def Chunks (m : ℕ) : ℕ → ℕ → List RangeInclusive → Prop
  | s, e, [] => e < s
  | s, e, r :: rs => s ≤ e ∧ r = ⟨s, min (s + (m - 1)) e⟩ ∧ Chunks m (r.stop + 1) e rs

namespace Chunks

variable {m s e : ℕ} {rs : List RangeInclusive}

/-- A chunk is a nonempty range inside `s..=e` of at most `m` numbers. -/
lemma bounds (h : Chunks m s e rs) {r : RangeInclusive} (hr : r ∈ rs) :
    s ≤ r.start ∧ r.start ≤ r.stop ∧ r.stop ≤ e ∧ r.stop ≤ r.start + (m - 1) := by
  induction rs generalizing s with
  | nil => simp at hr
  | cons q rs ih =>
    obtain ⟨hse, rfl, h⟩ := h
    rcases List.mem_cons.mp hr with rfl | hr
    · dsimp only
      omega
    · have := ih h hr
      dsimp only at this
      omega

/-- Exactly one chunk contains a number from `s` to `e`. -/
lemma countP_contains (h : Chunks m s e rs) (n : ℕ) :
    rs.countP (fun r => decide (r.Contains n)) = if s ≤ n ∧ n ≤ e then 1 else 0 := by
  induction rs generalizing s with
  | nil =>
    have hlt : e < s := h
    rw [List.countP_nil, if_neg (by omega)]
  | cons q rs ih =>
    obtain ⟨hse, rfl, hrs⟩ := h
    have hq : decide ((⟨s, min (s + (m - 1)) e⟩ : RangeInclusive).Contains n) = true ↔
        s ≤ n ∧ n ≤ min (s + (m - 1)) e := decide_eq_true_iff
    rw [List.countP_cons, ih hrs, if_congr hq rfl rfl]
    dsimp only
    split_ifs <;> omega

/-- The cut is determined by its bounds and the chunk size. -/
lemma unique {rs' : List RangeInclusive} (h : Chunks m s e rs) (h' : Chunks m s e rs') :
    rs = rs' := by
  induction rs generalizing s rs' with
  | nil =>
    cases rs' with
    | nil => rfl
    | cons q rs' => exact absurd h'.1 (Nat.not_le_of_lt h)
  | cons r rs ih =>
    cases rs' with
    | nil => exact absurd h.1 (Nat.not_le_of_lt h')
    | cons q rs' =>
      obtain ⟨_, rfl, h⟩ := h
      obtain ⟨_, rfl, h'⟩ := h'
      rw [ih h h']

end Chunks

/-! ### Consecutive ranges -/

/-- `rs` are consecutive ascending ranges of at most `m` numbers each, from `s` up to `e`
(exclusively). -/
def Consecutive (m : ℕ) : ℕ → ℕ → List RangeInclusive → Prop
  | s, e, [] => s = e
  | s, e, r :: rs => r.start = s ∧ r.start ≤ r.stop ∧ r.stop ≤ r.start + (m - 1) ∧
      Consecutive m (r.stop + 1) e rs

namespace Consecutive

variable {m s e e' : ℕ} {rs rs' : List RangeInclusive}

/-- Consecutive ranges go upwards. -/
lemma le (h : Consecutive m s e rs) : s ≤ e := by
  induction rs generalizing s with
  | nil => exact Nat.le_of_eq h
  | cons r rs ih =>
    obtain ⟨rfl, hle, -, hrs⟩ := h
    have hrest := ih hrs
    omega

/-- A single range. -/
lemma singleton {r : RangeInclusive} (hle : r.start ≤ r.stop) (hsize : r.stop ≤ r.start + (m - 1)) :
    Consecutive m r.start (r.stop + 1) [r] := ⟨rfl, hle, hsize, rfl⟩

/-- Ranges that go on where others end. -/
lemma append (h : Consecutive m s e rs) (h' : Consecutive m e e' rs') :
    Consecutive m s e' (rs ++ rs') := by
  induction rs generalizing s with
  | nil =>
    obtain rfl : s = e := h
    exact h'
  | cons r rs ih => exact ⟨h.1, h.2.1, h.2.2.1, ih h.2.2.2⟩

/-- No range goes beyond the end. -/
lemma stop_lt (h : Consecutive m s e rs) {r : RangeInclusive} (hr : r ∈ rs) : r.stop < e := by
  induction rs generalizing s with
  | nil => cases hr
  | cons r' rs ih =>
    obtain ⟨-, -, -, hrs⟩ := h
    rcases List.mem_cons.mp hr with rfl | hr
    · exact hrs.le
    · exact ih hrs hr

/-- Exactly one of the ranges contains a number from `s` up to `e`. -/
lemma countP_contains (h : Consecutive m s e rs) (n : ℕ) :
    rs.countP (fun r => decide (r.Contains n)) = if s ≤ n ∧ n < e then 1 else 0 := by
  induction rs generalizing s with
  | nil =>
    obtain rfl : s = e := h
    rw [List.countP_nil, if_neg (by omega)]
  | cons r rs ih =>
    obtain ⟨rfl, hle, -, hrs⟩ := h
    have hr : decide (r.Contains n) = true ↔ r.start ≤ n ∧ n ≤ r.stop := decide_eq_true_iff
    have hend := hrs.le
    rw [List.countP_cons, ih hrs, if_congr hr rfl rfl]
    split_ifs <;> omega

end Consecutive

/-! ### Cutting downwards -/

/-- `rs` is the cut of `e..=s` into consecutive chunks of `m` numbers from the upper end `s`
downwards, the last (lowest) one possibly shorter. The lowest chunk ends the cut, also at
`e = 0`. -/
def RevChunks (m : ℕ) : ℕ → ℕ → List RangeInclusive → Prop
  | s, e, [] => s < e
  | s, e, r :: rs => e ≤ s ∧ r = ⟨max (s - (m - 1)) e, s⟩ ∧
      if r.start = e then rs = [] else RevChunks m (r.start - 1) e rs

namespace RevChunks

variable {m s e : ℕ} {rs : List RangeInclusive}

/-- A chunk is a nonempty range inside `e..=s` of at most `m` numbers. -/
lemma bounds (h : RevChunks m s e rs) {r : RangeInclusive} (hr : r ∈ rs) :
    e ≤ r.start ∧ r.start ≤ r.stop ∧ r.stop ≤ s ∧ r.stop ≤ r.start + (m - 1) := by
  induction rs generalizing s with
  | nil => simp at hr
  | cons q rs ih =>
    obtain ⟨hse, rfl, h⟩ := h
    rcases List.mem_cons.mp hr with rfl | hr
    · dsimp only
      omega
    · split_ifs at h with hlast
      · subst h
        simp at hr
      · have := ih h hr
        dsimp only at this
        omega

end RevChunks

/-! ### Partitions -/

/-- How many numbers the range has. -/
def size (r : RangeInclusive) : ℕ := r.stop + 1 - r.start

/-- The ranges partition `s..=e` into nonempty ranges of `m` numbers each, the last one possibly
shorter: no other number is in any of them. -/
structure Partition (m s e : ℕ) (rs : List RangeInclusive) : Prop where
  /-- No range is empty. -/
  nonempty : ∀ r ∈ rs, r.start ≤ r.stop
  /-- No range is too long. -/
  size_le : ∀ r ∈ rs, r.size ≤ m
  /-- All ranges but the last are full. -/
  size_eq : ∀ r ∈ rs.dropLast, r.size = m
  /-- Each number of `s..=e`, and no other, is in exactly one range. -/
  once : ∀ n, rs.countP (fun r => decide (r.Contains n)) = if s ≤ n ∧ n ≤ e then 1 else 0

/-- Each range begins right above the one before. -/
def Ascending (rs : List RangeInclusive) : Prop := rs.IsChain fun r r' => r'.start = r.stop + 1

/-- Each range ends right below the one before. -/
def Descending (rs : List RangeInclusive) : Prop := rs.IsChain fun r r' => r.start = r'.stop + 1

section Partition

variable {m s e : ℕ} {rs : List RangeInclusive}

/-- The chunks of a cut ascend. -/
lemma Chunks.ascending (h : Chunks m s e rs) : Ascending rs := by
  induction rs generalizing s with
  | nil => exact List.IsChain.nil
  | cons r rs ih =>
    obtain ⟨-, rfl, hrs⟩ := h
    cases rs with
    | nil => exact List.IsChain.singleton _
    | cons r' rs => exact List.isChain_cons_cons.mpr ⟨by rw [hrs.2.1], ih hrs⟩

/-- All chunks but the last are full. -/
lemma Chunks.size_eq (hm : 1 ≤ m) (h : Chunks m s e rs) : ∀ r ∈ rs.dropLast, r.size = m := by
  induction rs generalizing s with
  | nil => simp
  | cons r rs ih =>
    obtain ⟨-, rfl, hrs⟩ := h
    cases rs with
    | nil => simp
    | cons r' rs =>
      intro r hr
      rw [List.dropLast_cons_cons] at hr
      rcases List.mem_cons.mp hr with rfl | hr
      · -- a chunk follows, so this one does not reach the end
        have hle := hrs.1
        unfold size
        dsimp only at hle ⊢
        omega
      · exact ih hrs r hr

/-- **The chunks of a cut upwards partition the range.** -/
theorem Chunks.partition (hm : 1 ≤ m) (h : Chunks m s e rs) : Partition m s e rs where
  nonempty _ hr := (h.bounds hr).2.1
  size_le r hr := by
    have hbounds := h.bounds hr
    unfold size
    omega
  size_eq := h.size_eq hm
  once := h.countP_contains

/-- The chunks of a cut downwards descend. -/
lemma RevChunks.descending (h : RevChunks m s e rs) : Descending rs := by
  induction rs generalizing s with
  | nil => exact List.IsChain.nil
  | cons r rs ih =>
    obtain ⟨-, rfl, hrs⟩ := h
    split_ifs at hrs with hlast
    · subst hrs
      exact List.IsChain.singleton _
    · cases rs with
      | nil => exact List.IsChain.singleton _
      | cons r' rs =>
        refine List.isChain_cons_cons.mpr ⟨?_, ih hrs⟩
        rw [hrs.2.1]
        dsimp only at hlast ⊢
        omega

/-- All chunks of a cut downwards but the last are full. -/
lemma RevChunks.size_eq (hm : 1 ≤ m) (h : RevChunks m s e rs) :
    ∀ r ∈ rs.dropLast, r.size = m := by
  induction rs generalizing s with
  | nil => simp
  | cons r rs ih =>
    obtain ⟨hle, rfl, hrs⟩ := h
    split_ifs at hrs with hlast
    · subst hrs
      simp
    · cases rs with
      | nil => simp
      | cons r' rs =>
        intro r hr
        rw [List.dropLast_cons_cons] at hr
        rcases List.mem_cons.mp hr with rfl | hr
        · unfold size
          dsimp only at hlast ⊢
          omega
        · exact ih hrs r hr

/-- Exactly one chunk of a cut downwards contains a number from `e` to `s`. -/
lemma RevChunks.countP_contains (h : RevChunks m s e rs) (n : ℕ) :
    rs.countP (fun r => decide (r.Contains n)) = if e ≤ n ∧ n ≤ s then 1 else 0 := by
  induction rs generalizing s with
  | nil =>
    have hlt : s < e := h
    rw [List.countP_nil, if_neg (by omega)]
  | cons r rs ih =>
    obtain ⟨hle, rfl, hrs⟩ := h
    have hr : decide ((⟨max (s - (m - 1)) e, s⟩ : RangeInclusive).Contains n) = true ↔
        max (s - (m - 1)) e ≤ n ∧ n ≤ s := decide_eq_true_iff
    rw [List.countP_cons, if_congr hr rfl rfl]
    split_ifs at hrs with hlast
    · subst hrs
      rw [List.countP_nil]
      dsimp only at hlast
      split_ifs <;> omega
    · rw [ih hrs]
      dsimp only at hlast ⊢
      split_ifs <;> omega

/-- A cut downwards is determined by its bounds and the chunk size. -/
lemma RevChunks.unique {rs' : List RangeInclusive} (h : RevChunks m s e rs)
    (h' : RevChunks m s e rs') : rs = rs' := by
  induction rs generalizing s rs' with
  | nil =>
    cases rs' with
    | nil => rfl
    | cons q rs' => exact absurd h'.1 (Nat.not_le_of_lt h)
  | cons r rs ih =>
    cases rs' with
    | nil => exact absurd h.1 (Nat.not_le_of_lt h')
    | cons q rs' =>
      obtain ⟨_, rfl, h⟩ := h
      obtain ⟨_, rfl, h'⟩ := h'
      split_ifs at h h'
      · rw [h, h']
      · rw [ih h h']

/-- **The chunks of a cut downwards partition the range.** -/
theorem RevChunks.partition (hm : 1 ≤ m) (h : RevChunks m s e rs) : Partition m e s rs where
  nonempty _ hr := (h.bounds hr).2.1
  size_le r hr := by
    have hbounds := h.bounds hr
    unfold size
    omega
  size_eq := h.size_eq hm
  once := h.countP_contains

end Partition

end RangeInclusive
