import Mathlib.Data.List.Basic
import Mathlib.Order.Basic

set_option relaxedAutoImplicit false
set_option autoImplicit false

/-!
# Hash-linked chains that are reorganised

An observer of a block chain sees, at each moment, one canonical chain: a nonempty list of
block hashes, one for each height, and the height up to which it is final. Between two
moments the chain may grow, final blocks may become more, and an end of the chain may be
replaced by another fork. A hash commits to all ancestors, so two chains with the same hash
at a height agree below it.

## Main definitions

* `HashChain.Block`, `HashChain.Chain` — a block, and the canonical chain of one moment.
* `HashChain.Linked` — equal hashes have equal ancestors.
* `HashChain.HashesDistinct` — equal hashes have equal heights.
* `HashChain.FinalityKept` — final blocks stay, and finality does not go back.
* `HashChain.IsAncestor` — a block lies on the chain of another one.
* `HashChain.OnlyGrows`, `HashChain.ShallowReorgs` — no block is replaced, or only such as are not
  buried deeper than a depth under the greatest height so far.
* `HashChain.switchAt` — a history in which the chain changes once.

## Main results

* `HashChain.IsAncestor.canonical` — wherever a block is canonical, so are its ancestors.
* `HashChain.IsAncestor.trans` — ancestors of ancestors are ancestors.
-/

namespace HashChain

/-- A block, as far as its identity goes: its height and its hash. -/
structure Block (Hash : Type) where
  /-- The height of the block. -/
  number : ℕ
  /-- The hash, which commits to the block and all its ancestors. -/
  hash : Hash
  deriving DecidableEq, Repr

/-- The canonical chain at one moment, genesis first, with its finalized height. The height is
missing while the chain is too young to have final blocks. -/
structure Chain (Hash : Type) where
  /-- The canonical hashes by height. -/
  hashes : List Hash
  /-- There is a genesis block. -/
  hashes_ne_nil : hashes ≠ []
  /-- The height of the newest final block. -/
  finalized : Option ℕ
  /-- The newest final block is on the chain. -/
  finalized_lt : ∀ f ∈ finalized, f < hashes.length

variable {Hash : Type}

namespace Chain

/-- The chain with a genesis block and the hashes above it, final up to a height or, where that is
higher, up to its newest block. -/
def ofHashes (genesis : Hash) (above : List Hash) (finalized : ℕ) : Chain Hash where
  hashes := genesis :: above
  hashes_ne_nil := List.cons_ne_nil genesis above
  finalized := some (min finalized above.length)
  finalized_lt := by
    intro f hf
    obtain rfl : min finalized above.length = f := by simpa using hf
    exact Nat.lt_succ_of_le (Nat.min_le_right finalized above.length)

/-- The canonical hash at a height, if the chain is that high. -/
def hashAt (c : Chain Hash) (n : ℕ) : Option Hash := c.hashes[n]?

/-- The canonical block at a height. -/
def blockAt (c : Chain Hash) (n : ℕ) : Option (Block Hash) :=
  (c.hashAt n).map fun h => ⟨n, h⟩

/-- The height of the newest block. -/
def height (c : Chain Hash) : ℕ := c.hashes.length - 1

/-- The block is on the chain. -/
def Canonical (c : Chain Hash) (b : Block Hash) : Prop := c.hashAt b.number = some b.hash

instance [DecidableEq Hash] (c : Chain Hash) (b : Block Hash) : Decidable (c.Canonical b) :=
  inferInstanceAs (Decidable (_ = _))

/-- The block found at a height has that height and is canonical. -/
lemma blockAt_eq_some_iff (c : Chain Hash) (n : ℕ) (b : Block Hash) :
    c.blockAt n = some b ↔ b.number = n ∧ c.Canonical b := by
  simp only [blockAt, Option.map_eq_some_iff, Canonical]
  constructor
  · rintro ⟨h, hn, rfl⟩
    exact ⟨rfl, hn⟩
  · rintro ⟨rfl, hb⟩
    exact ⟨b.hash, hb, rfl⟩

/-- The newest final block. -/
def finalizedBlock (c : Chain Hash) : Option (Block Hash) := c.finalized.bind c.blockAt

/-- Below a canonical block the chain has a hash at every height. -/
lemma Canonical.exists_hashAt {c : Chain Hash} {b : Block Hash} (hb : c.Canonical b) {n : ℕ}
    (hn : n ≤ b.number) : ∃ hash, c.hashAt n = some hash := by
  have hlt : b.number < c.hashes.length := (List.getElem?_eq_some_iff.mp hb).1
  exact ⟨_, List.getElem?_eq_getElem (Nat.lt_of_le_of_lt hn hlt)⟩

/-- Two canonical blocks of one height are the same block. -/
lemma Canonical.eq_of_number_eq {c : Chain Hash} {a b : Block Hash} (ha : c.Canonical a)
    (hb : c.Canonical b) (h : a.number = b.number) : a = b := by
  cases a
  cases b
  simp only [Canonical] at ha hb h
  subst h
  simp_all

/-- Above its newest block the chain has no block. -/
lemma blockAt_eq_none {c : Chain Hash} {n : ℕ} (h : c.hashes.length ≤ n) : c.blockAt n = none := by
  unfold blockAt hashAt
  rw [List.getElem?_eq_none h]
  rfl

end Chain

/-! ### Histories -/

/-- A hash commits to its ancestors: moments that agree on the hash at a height agree on all
heights below it. -/
def Linked (view : ℕ → Chain Hash) : Prop :=
  ∀ i j n h, (view i).hashAt n = some h → (view j).hashAt n = some h →
    ∀ m ≤ n, (view i).hashAt m = (view j).hashAt m

/-- A hash commits to the height: blocks with the same hash are the same block. -/
def HashesDistinct (view : ℕ → Chain Hash) : Prop :=
  ∀ i j a b, (view i).Canonical a → (view j).Canonical b → a.hash = b.hash → a = b

/-- Final blocks are never replaced, and the finalized height never goes back. -/
def FinalityKept (view : ℕ → Chain Hash) : Prop :=
  ∀ i j, i ≤ j → ∀ f ∈ (view i).finalized,
    (∃ f' ∈ (view j).finalized, f ≤ f') ∧ ∀ m ≤ f, (view j).hashAt m = (view i).hashAt m

/-- `a` is an ancestor of `b`, or `b` itself: at some moment both were canonical, with `a` no
higher than `b`. -/
def IsAncestor (view : ℕ → Chain Hash) (a b : Block Hash) : Prop :=
  a.number ≤ b.number ∧ ∃ i, (view i).Canonical a ∧ (view i).Canonical b

variable {view : ℕ → Chain Hash} {a b c : Block Hash} {i j : ℕ}

/-- Blocks that are canonical together are ancestors by height. -/
lemma isAncestor_of_canonical (ha : (view i).Canonical a) (hb : (view i).Canonical b)
    (h : a.number ≤ b.number) : IsAncestor view a b := ⟨h, i, ha, hb⟩

/-- Wherever a block is canonical, so are its ancestors. -/
lemma IsAncestor.canonical (hl : Linked view) (h : IsAncestor view a b)
    (hb : (view j).Canonical b) : (view j).Canonical a := by
  obtain ⟨hab, i, hai, hbi⟩ := h
  have hm := hl i j b.number b.hash hbi hb a.number hab
  exact hm.symm.trans hai

/-- Ancestors of ancestors are ancestors. -/
lemma IsAncestor.trans (hl : Linked view) (hab : IsAncestor view a b)
    (hbc : IsAncestor view b c) : IsAncestor view a c := by
  obtain ⟨hle, i, hbi, hci⟩ := hbc
  exact ⟨Nat.le_trans hab.1 hle, i, hab.canonical hl hbi, hci⟩

/-- An ancestor that is not below a block is the block itself. -/
lemma IsAncestor.eq_of_le (h : IsAncestor view a b) (hle : b.number ≤ a.number) : a = b := by
  obtain ⟨hab, i, hai, hbi⟩ := h
  exact hai.eq_of_number_eq hbi (Nat.le_antisymm hab hle)

/-- The lower one of two ancestors of a block is an ancestor of the higher one. -/
lemma IsAncestor.of_number_le (hl : Linked view) (ha : IsAncestor view a c)
    (hb : IsAncestor view b c) (h : a.number ≤ b.number) : IsAncestor view a b := by
  obtain ⟨_, i, hai, hci⟩ := ha
  exact isAncestor_of_canonical hai (hb.canonical hl hci) h

/-! ### Histories with few reorgs -/

/-- The chain only grows. -/
def OnlyGrows (view : ℕ → Chain Hash) : Prop := ∀ i j, i ≤ j → (view i).hashes <+: (view j).hashes

/-- In a history that only grows no block is replaced. -/
lemma OnlyGrows.canonical (h : OnlyGrows view) (hij : i ≤ j) (hb : (view i).Canonical b) :
    (view j).Canonical b := by
  obtain ⟨more, hmore⟩ := h i j hij
  unfold Chain.Canonical Chain.hashAt at hb ⊢
  rw [← hmore, List.getElem?_append_left (List.getElem?_eq_some_iff.mp hb).1]
  exact hb

/-- The greatest height of the chain so far. -/
def peak (view : ℕ → Chain Hash) : ℕ → ℕ
  | 0 => (view 0).height
  | t + 1 => max (peak view t) (view (t + 1)).height

lemma height_le_peak (view : ℕ → Chain Hash) (t : ℕ) : (view t).height ≤ peak view t := by
  cases t with
  | zero => exact Nat.le_refl _
  | succ t => exact Nat.le_max_right _ _

/-- The greatest height so far never goes back. -/
lemma peak_mono (view : ℕ → Chain Hash) (hij : i ≤ j) : peak view i ≤ peak view j := by
  induction hij with
  | refl => exact Nat.le_refl _
  | step _ ih => exact Nat.le_trans ih (Nat.le_max_left _ _)

/-- Only blocks less than `c` below the greatest height so far are ever replaced, and genesis is
not. -/
def ShallowReorgs (c : ℕ) (view : ℕ → Chain Hash) : Prop :=
  ∀ t (b : Block Hash), (view t).Canonical b → ¬(view (t + 1)).Canonical b →
    peak view t - c < b.number

/-- A block that is buried deep enough is not replaced any more. -/
lemma ShallowReorgs.canonical {d : ℕ} (h : ShallowReorgs d view) (hij : i ≤ j)
    (hn : b.number ≤ peak view i - d) (hb : (view i).Canonical b) : (view j).Canonical b := by
  induction hij with
  | refl => exact hb
  | @step t hit ih =>
    by_contra hgone
    have hshallow := h t b ih hgone
    have hpeak := peak_mono view hit
    omega

/-! ### Histories with one change -/

/-- The history that shows `c` up to the moment `k` and `c'` from then on. -/
def switchAt (k : ℕ) (c c' : Chain Hash) : ℕ → Chain Hash := fun i => if i < k then c else c'

/-- From the change on the history shows the second chain. -/
lemma switchAt_of_le {k i : ℕ} (h : k ≤ i) (c c' : Chain Hash) : switchAt k c c' i = c' :=
  if_neg (Nat.not_lt_of_le h)

/-- The moments of such a history show one of the two chains. -/
lemma switchAt_eq (k : ℕ) (c c' : Chain Hash) (i : ℕ) :
    switchAt k c c' i = c ∨ switchAt k c c' i = c' := by
  unfold switchAt
  split_ifs
  · exact Or.inl rfl
  · exact Or.inr rfl

/-- Such a history is linked if equal hashes of the two chains have equal ancestors. -/
lemma linked_switchAt {k : ℕ} {c c' : Chain Hash}
    (h : ∀ n < c.hashes.length, c.hashAt n = c'.hashAt n → ∀ m ≤ n, c.hashAt m = c'.hashAt m) :
    Linked (switchAt k c c') := by
  have hcc' : ∀ n hash, c.hashAt n = some hash → c'.hashAt n = some hash →
      ∀ m ≤ n, c.hashAt m = c'.hashAt m := by
    intro n hash hc hc'
    refine h n ?_ (hc.trans hc'.symm)
    exact (List.getElem?_eq_some_iff.mp hc).1
  intro i j n hash hi hj m hm
  rcases switchAt_eq k c c' i with hvi | hvi <;> rcases switchAt_eq k c c' j with hvj | hvj <;>
    rw [hvi] at hi ⊢ <;> rw [hvj] at hj ⊢
  · exact hcc' n hash hi hj m hm
  · exact (hcc' n hash hj hi m hm).symm

/-- Such a history keeps finality if the second chain keeps the final blocks of the first. -/
lemma finalityKept_switchAt {k : ℕ} {c c' : Chain Hash}
    (h : ∀ f ∈ c.finalized, (∃ f' ∈ c'.finalized, f ≤ f') ∧ ∀ m ≤ f, c'.hashAt m = c.hashAt m) :
    FinalityKept (switchAt k c c') := by
  intro i j hij f hf
  unfold switchAt at hf ⊢
  by_cases hi : i < k
  · rw [if_pos hi] at hf ⊢
    split_ifs
    · exact ⟨⟨f, hf, Nat.le_refl _⟩, fun _ _ => rfl⟩
    · exact h f hf
  · rw [if_neg hi] at hf ⊢
    rw [if_neg (by omega)]
    exact ⟨⟨f, hf, Nat.le_refl _⟩, fun _ _ => rfl⟩

/-- Such a history only grows if the second chain extends the first. -/
lemma onlyGrows_switchAt {k : ℕ} {c c' : Chain Hash} (h : c.hashes <+: c'.hashes) :
    OnlyGrows (switchAt k c c') := by
  intro i j hij
  unfold switchAt
  split_ifs
  · exact List.prefix_rfl
  · exact h
  · omega
  · exact List.prefix_rfl

/-- The greatest height before the change. -/
lemma peak_switchAt {k t : ℕ} (c c' : Chain Hash) (ht : t < k) :
    peak (switchAt k c c') t = c.height := by
  induction t with
  | zero =>
    unfold peak switchAt
    rw [if_pos ht]
  | succ t ih =>
    unfold peak
    rw [ih (by omega), switchAt, if_pos ht, Nat.max_self]

/-- The change is a shallow reorg if the second chain keeps all but the last blocks of the first. -/
lemma shallowReorgs_switchAt {k d : ℕ} {c c' : Chain Hash}
    (h : ∀ n < c.hashes.length, c'.hashAt n ≠ c.hashAt n → c.height - d < n) :
    ShallowReorgs d (switchAt k c c') := by
  intro t b hb hgone
  by_cases ht : t + 1 < k
  · rw [switchAt, if_pos (by omega)] at hb
    rw [switchAt, if_pos ht] at hgone
    exact absurd hb hgone
  · rw [switchAt_of_le (by omega)] at hgone
    by_cases ht' : t < k
    · rw [switchAt, if_pos ht'] at hb
      rw [peak_switchAt c c' ht']
      refine h b.number (List.getElem?_eq_some_iff.mp hb).1 fun heq => hgone ?_
      exact heq.trans hb
    · rw [switchAt_of_le (by omega)] at hb
      exact absurd hb hgone

/-- The ancestors in such a history are those in one of the two chains. -/
lemma isAncestor_switchAt_iff {k : ℕ} {c c' : Chain Hash} :
    IsAncestor (switchAt k c c') a b ↔ a.number ≤ b.number ∧
      (0 < k ∧ c.Canonical a ∧ c.Canonical b ∨ c'.Canonical a ∧ c'.Canonical b) := by
  constructor
  · rintro ⟨hle, i, hai, hbi⟩
    refine ⟨hle, ?_⟩
    unfold switchAt at hai hbi
    split_ifs at hai hbi with hi
    · exact Or.inl ⟨by omega, hai, hbi⟩
    · exact Or.inr ⟨hai, hbi⟩
  · rintro ⟨hle, ⟨hk, ha, hb⟩ | ⟨ha, hb⟩⟩
    · have h0 : switchAt k c c' 0 = c := if_pos hk
      exact ⟨hle, 0, by rwa [h0], by rwa [h0]⟩
    · have hk := switchAt_of_le (Nat.le_refl k) c c'
      exact ⟨hle, k, by rwa [hk], by rwa [hk]⟩

instance [DecidableEq Hash] (k : ℕ) (c c' : Chain Hash) (a b : Block Hash) :
    Decidable (IsAncestor (switchAt k c c') a b) :=
  decidable_of_iff _ isAncestor_switchAt_iff.symm

end HashChain
