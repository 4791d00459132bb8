import Mathlib.Data.List.Basic
import Mathlib.Order.Basic

set_option relaxedAutoImplicit false
set_option autoImplicit false

/-!
# Checked and saturating 64-bit arithmetic

Unsigned arithmetic of machine words that reports what the machine would trap on: an addition
or a subtraction that leaves the 64 bits, and a division by zero, have no value. The saturating
operations stop at the ends of the range instead. Each operation comes with what it computes in
natural numbers.

## Main definitions

* `UInt64.maxValue` — the greatest word.
* `UInt64.checkedAdd`, `UInt64.checkedSub`, `UInt64.checkedDiv` — the trapping operations.
* `UInt64.saturatingAdd`, `UInt64.saturatingSub` — the saturating ones.

## Main results

* `UInt64.checkedAdd_of_le`, `UInt64.checkedSub_of_le`, `UInt64.checkedDiv_of_pos` — when the
  trapping operations have a value, and which.
* `UInt64.toNat_saturatingAdd`, `UInt64.toNat_saturatingSub` — the value of the others.
-/

namespace UInt64

/-- The greatest word. -/
def maxValue : UInt64 := 18446744073709551615

/-- Addition, unless the sum leaves the 64 bits. -/
def checkedAdd (a b : UInt64) : Option UInt64 :=
  if a.toNat + b.toNat ≤ maxValue.toNat then some (a + b) else none

/-- Subtraction, unless the difference is negative. -/
def checkedSub (a b : UInt64) : Option UInt64 := if b ≤ a then some (a - b) else none

/-- Division, unless by zero. -/
def checkedDiv (a b : UInt64) : Option UInt64 := if b = 0 then none else some (a / b)

/-- Addition that stops at the greatest word. -/
def saturatingAdd (a b : UInt64) : UInt64 := (checkedAdd a b).getD maxValue

/-- Subtraction that stops at zero. -/
def saturatingSub (a b : UInt64) : UInt64 := (checkedSub a b).getD 0

variable (a b : UInt64)

lemma toNat_maxValue : maxValue.toNat = 18446744073709551615 := rfl

/-- No word is greater. -/
lemma toNat_le_maxValue : a.toNat ≤ maxValue.toNat := by
  have hlt := a.toNat_lt
  rw [toNat_maxValue]
  omega

variable {a b}

/-- The sum of two words, when it fits. -/
lemma toNat_add_of_le (h : a.toNat + b.toNat ≤ maxValue.toNat) :
    (a + b).toNat = a.toNat + b.toNat := by
  rw [toNat_maxValue] at h
  rw [UInt64.toNat_add, Nat.mod_eq_of_lt (by omega)]

/-- A sum that fits has a value. -/
lemma checkedAdd_of_le (h : a.toNat + b.toNat ≤ maxValue.toNat) :
    ∃ c, checkedAdd a b = some c ∧ c.toNat = a.toNat + b.toNat :=
  ⟨a + b, if_pos h, toNat_add_of_le h⟩

/-- A difference that is not negative has a value. -/
lemma checkedSub_of_le (h : b.toNat ≤ a.toNat) :
    ∃ c, checkedSub a b = some c ∧ c.toNat = a.toNat - b.toNat :=
  ⟨a - b, if_pos h, UInt64.toNat_sub_of_le a b h⟩

/-- A quotient by a positive word has a value. -/
lemma checkedDiv_of_pos (h : 0 < b.toNat) :
    ∃ c, checkedDiv a b = some c ∧ c.toNat = a.toNat / b.toNat := by
  have hne : b ≠ 0 := by
    rintro rfl
    exact Nat.lt_irrefl 0 h
  exact ⟨a / b, if_neg hne, UInt64.toNat_div a b⟩

variable (a b)

lemma toNat_saturatingAdd : (saturatingAdd a b).toNat = min (a.toNat + b.toNat) maxValue.toNat := by
  unfold saturatingAdd checkedAdd
  split_ifs with h
  · rw [Nat.min_eq_left h]
    exact toNat_add_of_le h
  · rw [Nat.min_eq_right (by omega)]
    rfl

lemma toNat_saturatingSub : (saturatingSub a b).toNat = a.toNat - b.toNat := by
  unfold saturatingSub checkedSub
  split_ifs with h
  · exact UInt64.toNat_sub_of_le a b h
  · rw [UInt64.le_iff_toNat_le] at h
    have hzero : a.toNat - b.toNat = 0 := by omega
    rw [hzero]
    rfl

end UInt64
