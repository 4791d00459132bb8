import EventScanner.Types

set_option relaxedAutoImplicit false
set_option autoImplicit false

/-!
# The ring buffer of past blocks

`RingBuffer` (`ring_buffer.rs`): a queue that keeps its newest items.

## Main definitions

* `EventScanner.RingBufferCapacity`, `EventScanner.RingBuffer` with `push`, `popBack`, `back`
  and `clear`.
* `EventScanner.RingBufferCapacity.Admits` — a number of items fits.
* `EventScanner.RingBufferCapacity.Allocates` — the buffer can be allocated.

## Main results

* `EventScanner.RingBuffer.push_inner` — a push keeps the newest items that fit.

## Design

The deque is kept newest item first, so that its back is the head of the list.
-/

namespace EventScanner

/-- How many past block hashes to keep. -/
inductive RingBufferCapacity
  /-- Keep at most `n` items. -/
  | limited (n : ℕ)
  /-- Keep all items. -/
  | infinite
  deriving DecidableEq, Repr

/-- A queue of bounded or unbounded capacity. -/
structure RingBuffer (α : Type) where
  /-- The items, newest first. -/
  inner : List α
  /-- The capacity. -/
  capacity : RingBufferCapacity
  deriving DecidableEq, Repr

namespace RingBufferCapacity

/-- The capacity allows for so many items. -/
def Admits : RingBufferCapacity → ℕ → Prop
  | .limited n, k => k ≤ n
  | .infinite, _ => True

/-- The bytes of a block hash (`size_of::<B256>()`). -/
def hashSize : ℕ := 32

/-- A buffer of block hashes can be allocated: `RingBuffer::new` asks for all its room at once, and
`VecDeque::with_capacity` panics if that is too much. -/
def Allocates : RingBufferCapacity → Prop
  | .limited n => FitsInMemory n hashSize
  | .infinite => True

instance : (capacity : RingBufferCapacity) → Decidable capacity.Allocates
  | .limited n => inferInstanceAs (Decidable (FitsInMemory n hashSize))
  | .infinite => .isTrue trivial

/-- Capacities by size; the unbounded one is the greatest. -/
instance : LE RingBufferCapacity where
  le
    | .limited n, .limited m => n ≤ m
    | _, .infinite => True
    | .infinite, .limited _ => False

/-- Fewer items are allowed as well. -/
lemma Admits.mono {c : RingBufferCapacity} {k k' : ℕ} (h : c.Admits k) (hk : k' ≤ k) :
    c.Admits k' := by
  cases c with
  | limited n => exact Nat.le_trans hk h
  | infinite => trivial

/-- Every capacity allows for no items. -/
lemma admits_zero (c : RingBufferCapacity) : c.Admits 0 := by
  cases c with
  | limited n => exact Nat.zero_le n
  | infinite => trivial

/-- The newest items of a list, as many as the capacity allows. -/
def take {α : Type} : RingBufferCapacity → List α → List α
  | .limited n, items => items.take n
  | .infinite, items => items

/-- No more are taken than the capacity allows. -/
lemma admits_take {α : Type} (c : RingBufferCapacity) (items : List α) :
    c.Admits (c.take items).length := by
  cases c with
  | limited n => exact List.length_take_le n items
  | infinite => trivial

/-- What is taken are the newest items. -/
lemma take_prefix_self {α : Type} (c : RingBufferCapacity) (items : List α) :
    c.take items <+: items := by
  cases c with
  | limited n => exact List.take_prefix n items
  | infinite => exact List.prefix_refl items

/-- A smaller capacity takes the newest of what a greater one takes. -/
lemma take_prefix {α : Type} {c c' : RingBufferCapacity} (hle : c ≤ c') {items items' : List α}
    (h : items <+: items') : c.take items <+: c'.take items' := by
  cases c with
  | infinite =>
    cases c' with
    | infinite => exact h
    | limited m => exact absurd hle id
  | limited n =>
    have htake : items.take n <+: items'.take n := by
      refine List.prefix_take_iff.mpr ⟨(List.take_prefix n items).trans h, ?_⟩
      exact List.length_take_le n items
    cases c' with
    | infinite => exact htake.trans (List.take_prefix n items')
    | limited m =>
      have hnm : n ≤ m := hle
      exact htake.trans (List.take_prefix_take_left hnm)

end RingBufferCapacity

namespace RingBuffer

variable {α : Type}

/-- `RingBuffer::new`. -/
def new (capacity : RingBufferCapacity) : RingBuffer α := ⟨[], capacity⟩

/-- `RingBuffer::push`: a full buffer loses its oldest item; capacity `0` stores nothing. -/
def push (b : RingBuffer α) (item : α) : RingBuffer α :=
  match b.capacity with
  | .infinite => { b with inner := item :: b.inner }
  | .limited 0 => b
  | .limited limit =>
    { b with inner := item :: if b.inner.length = limit then b.inner.dropLast else b.inner }

/-- `RingBuffer::back`: the newest item. -/
def back (b : RingBuffer α) : Option α := b.inner.head?

/-- `RingBuffer::pop_back`: drop the newest item. -/
def popBack (b : RingBuffer α) : RingBuffer α := { b with inner := b.inner.tail }

/-- `RingBuffer::clear`. -/
def clear (b : RingBuffer α) : RingBuffer α := { b with inner := [] }

@[simp] lemma clear_inner (b : RingBuffer α) : b.clear.inner = [] := rfl

/-- Pushing adds no item but the pushed one. -/
lemma mem_of_mem_push {b : RingBuffer α} {item x : α} (h : x ∈ (b.push item).inner) :
    x = item ∨ x ∈ b.inner := by
  unfold push at h
  split at h
  · exact List.mem_cons.mp h
  · exact Or.inr h
  · rcases List.mem_cons.mp h with rfl | h
    · exact Or.inl rfl
    · split_ifs at h
      · exact Or.inr ((List.dropLast_sublist _).subset h)
      · exact Or.inr h

/-- Pushing makes the queue longer by one at most. -/
lemma length_push_le (b : RingBuffer α) (item : α) :
    (b.push item).inner.length ≤ b.inner.length + 1 := by
  unfold push
  split
  · exact Nat.le_refl _
  · exact Nat.le_succ _
  · rw [List.length_cons, Nat.add_le_add_iff_right]
    split_ifs
    · exact (List.dropLast_sublist _).length_le
    · exact Nat.le_refl _

/-- Pushing keeps the items in order, when the new item may stand before all others. -/
lemma pairwise_push {r : α → α → Prop} {b : RingBuffer α} {item : α} (h : b.inner.Pairwise r)
    (hitem : ∀ x ∈ b.inner, r item x) : (b.push item).inner.Pairwise r := by
  unfold push
  split
  · exact List.pairwise_cons.mpr ⟨hitem, h⟩
  · exact h
  · dsimp only
    split_ifs
    · exact List.pairwise_cons.mpr
        ⟨fun x hx => hitem x ((List.dropLast_sublist _).subset hx),
          h.sublist (List.dropLast_sublist _)⟩
    · exact List.pairwise_cons.mpr ⟨hitem, h⟩

/-- Pushing puts the item in front and keeps the newest items. -/
lemma push_inner {b : RingBuffer α} (h : b.capacity.Admits b.inner.length) (item : α) :
    (b.push item).inner = b.capacity.take (item :: b.inner) := by
  obtain ⟨inner, capacity⟩ := b
  match capacity with
  | .infinite => rfl
  | .limited 0 =>
    obtain rfl : inner = [] := List.length_eq_zero_iff.mp (Nat.le_zero.mp h)
    rfl
  | .limited (n + 1) =>
    have hle : inner.length ≤ n + 1 := h
    simp only [push, RingBufferCapacity.take, List.take_succ_cons]
    split_ifs with hfull
    · rw [List.dropLast_eq_take, hfull]
      rfl
    · rw [List.take_of_length_le (by omega)]

@[simp] lemma push_capacity (b : RingBuffer α) (item : α) :
    (b.push item).capacity = b.capacity := by
  unfold push
  split <;> simp_all

end RingBuffer

end EventScanner
