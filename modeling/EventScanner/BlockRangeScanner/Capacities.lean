import EventScanner.BlockRangeScanner.StableCheck

set_option relaxedAutoImplicit false
set_option autoImplicit false

/-!
# Reorg handlers of different capacities

Two handlers that are asked the same, one of them with a smaller capacity for past blocks: the
smaller buffer holds the newest blocks of the greater one, both handlers find the same reorgs, and
the ancestor of the smaller one is the same or the finalized block.

## Main definitions

* `EventScanner.DefaultReorgHandler.AskedAlike` — two handlers after the same sequence of checks.
* `EventScanner.DefaultReorgHandler.Within` — the invariant between the two handlers.

## Main results

* `EventScanner.DefaultReorgHandler.commonAncestor_of_prefix` — the search through the newest of
  the blocks.
* `EventScanner.DefaultReorgHandler.AskedAlike.smaller_is_older` — a smaller capacity makes
  ancestors older and nothing else.

## Design

Each handler has its own log, since they make different numbers of calls; what the two share is the
chain of each check. The hash of a checked block determines its number, by a function `numberOf`: a
header contains its height. Without it a handler with an empty buffer would take a block in where
one that knows the hash does not.
-/

namespace EventScanner

open HashChain

variable {Hash : Type} [DecidableEq Hash]

namespace DefaultReorgHandler

/-- Two handlers after the same checks. Both handlers see the same chain during a check, which may
be any other one during the next. -/
inductive AskedAlike (numberOf : Hash → ℕ) (h₀ h₀' : DefaultReorgHandler Hash) :
    DefaultReorgHandler Hash → DefaultReorgHandler Hash → Prop
  /-- No check was made. -/
  | start : AskedAlike numberOf h₀ h₀' h₀ h₀'
  /-- One more check by each of the two. -/
  | check {h₁ h₁' h₂ h₂' : DefaultReorgHandler Hash} {chain : Chain Hash} {b : Block Hash}
      {log₁ log₂ log₁' log₂' : Log Hash} {answer answer' : Option (Block Hash)} :
      AskedAlike numberOf h₀ h₀' h₁ h₁' → b.number = numberOf b.hash →
      ChecksOn chain h₁ b log₁ answer h₂ log₂ → ChecksOn chain h₁' b log₁' answer' h₂' log₂' →
      AskedAlike numberOf h₀ h₀' h₂ h₂'

/-- The first handler has the newest blocks of the second one, and no greater capacity. -/
structure Within (numberOf : Hash → ℕ) (h h' : DefaultReorgHandler Hash) : Prop where
  /-- The buffered blocks of the first handler are the newest ones of the second. -/
  inner : h.buffer.inner <+: h'.buffer.inner
  /-- The capacities are ordered. -/
  capacity : h.buffer.capacity ≤ h'.buffer.capacity
  /-- The first buffer is not overfull. -/
  admits : h.buffer.capacity.Admits h.buffer.inner.length
  /-- Nor is the second. -/
  admits' : h'.buffer.capacity.Admits h'.buffer.inner.length
  /-- The hashes of buffered blocks determine their numbers. -/
  number_eq : ∀ c ∈ h'.buffer.inner, c.number = numberOf c.hash

/-- Both answers deny a reorg, or both find one; then the first ancestor is the second one or the
finalized block, and never higher. -/
def OlderAnswer (chain : Chain Hash) : Option (Block Hash) → Option (Block Hash) → Prop
  | none, none => True
  | some a, some a' => (a = a' ∨ chain.finalizedBlock = some a) ∧ a.number ≤ a'.number
  | _, _ => False

section CommonAncestor

variable (chain : Chain Hash) (f : Block Hash)

/-- The answer is not below the finalized block. -/
lemma le_commonAncestor (entries : List (Block Hash)) :
    f.number ≤ (commonAncestor chain f entries).1.number := by
  unfold commonAncestor
  split
  · exact Nat.le_refl _
  · split_ifs with hle
    · exact hle
    · exact Nat.le_refl _

/-- The search through the newest blocks: what it keeps are the newest of what the search through
all blocks keeps, and its answer is the same or the finalized block.

**Proof sketch.** Induction on the newest blocks. Until they are exhausted, both searches do the
same. -/
lemma commonAncestor_of_prefix {entries entries' : List (Block Hash)}
    (h : entries <+: entries') :
    (commonAncestor chain f entries).2 <+: (commonAncestor chain f entries').2 ∧
      ((commonAncestor chain f entries).1 = (commonAncestor chain f entries').1 ∨
        (commonAncestor chain f entries).1 = f) := by
  obtain ⟨rest, rfl⟩ := h
  induction entries with
  | nil => exact ⟨List.nil_prefix, Or.inr rfl⟩
  | cons c entries ih =>
    by_cases hc : chain.Canonical c
    · rw [List.cons_append, commonAncestor_cons_of_canonical hc,
        commonAncestor_cons_of_canonical hc]
      split_ifs
      · exact ⟨List.prefix_append (c :: entries) rest, Or.inl rfl⟩
      · exact ⟨List.prefix_refl _, Or.inl rfl⟩
    · rw [List.cons_append, commonAncestor_cons_of_not hc, commonAncestor_cons_of_not hc]
      exact ih

end CommonAncestor

namespace Within

variable {numberOf : Hash → ℕ} {h h' h₁ h₁' : DefaultReorgHandler Hash} {b : Block Hash}

/-- Both handlers remember a block. If only one of them takes it in, that is the first one, and the
block is the newest one of the second. -/
lemma remember_inner (hw : Within numberOf h h') (hb : b.number = numberOf b.hash) :
    (h.remember b).buffer.inner <+: (h'.remember b).buffer.inner := by
  obtain ⟨hinner, hcap, hadmits, hadmits', hnum⟩ := hw
  rw [DefaultReorgHandler.remember_inner hadmits, DefaultReorgHandler.remember_inner hadmits']
  by_cases hnew : h'.buffer.inner.head?.map Block.hash = some b.hash
  · rw [if_pos hnew]
    split_ifs with hsame
    · exact hinner
    · -- the first buffer is empty: otherwise both would have the same newest block
      obtain ⟨c, hc, hhash⟩ := Option.map_eq_some_iff.mp hnew
      obtain ⟨older, holder⟩ := List.head?_eq_some_iff.mp hc
      obtain rfl : c = b := by
        have hn := hnum c (holder ▸ List.mem_cons_self)
        rw [hhash, ← hb] at hn
        cases b
        cases c
        simp_all
      have hnil : h.buffer.inner = [] := by
        rw [holder] at hinner
        cases hold : h.buffer.inner with
        | nil => rfl
        | cons d rest =>
          rw [hold] at hinner hsame
          obtain ⟨rfl, -⟩ := List.cons_prefix_cons.mp hinner
          exact absurd rfl hsame
      rw [hnil, holder]
      exact (RingBufferCapacity.take_prefix_self _ [c]).trans (List.prefix_append [c] older)
  · rw [if_neg hnew, if_neg]
    · exact RingBufferCapacity.take_prefix hcap (List.cons_prefix_cons.mpr ⟨rfl, hinner⟩)
    · intro hsame
      obtain ⟨rest, hrest⟩ := hinner
      obtain ⟨c, hc, hhash⟩ := Option.map_eq_some_iff.mp hsame
      apply hnew
      rw [← hrest, List.head?_append_of_ne_nil _ (by rintro hnil; simp [hnil] at hc), hc]
      exact congrArg some hhash

omit [DecidableEq Hash] in
/-- Two handlers without any blocks. -/
lemma new {provider provider' : RobustProvider Hash} {capacity capacity' : RingBufferCapacity}
    (hle : capacity ≤ capacity') :
    Within numberOf (DefaultReorgHandler.new provider capacity)
      (DefaultReorgHandler.new provider' capacity') where
  inner := List.prefix_refl _
  capacity := hle
  admits := RingBufferCapacity.admits_zero capacity
  admits' := RingBufferCapacity.admits_zero capacity'
  number_eq := by simp [DefaultReorgHandler.new, RingBuffer.new]

/-- **One check by both handlers.** The invariant is kept, and the first answer is the second one
or an older one. -/
lemma check {chain : Chain Hash} {log log₁ log' log₁' : Log Hash}
    {answer answer' : Option (Block Hash)} (hw : Within numberOf h h')
    (hb : b.number = numberOf b.hash) (hc : ChecksOn chain h b log answer h₁ log₁)
    (hc' : ChecksOn chain h' b log' answer' h₁' log₁') :
    Within numberOf h₁ h₁' ∧ OlderAnswer chain answer answer' := by
  rcases hc.cases with ⟨hcan, rfl, rfl⟩ | ⟨hgone, -, hcap, f, a, hf, rfl, hsearch⟩ <;>
    rcases hc'.cases with ⟨hcan', rfl, rfl⟩ | ⟨hgone', -, hcap', f', a', hf', rfl, hsearch'⟩
  · refine ⟨⟨hw.remember_inner hb, ?_, ?_, ?_, ?_⟩, trivial⟩
    · rw [remember_capacity, remember_capacity]
      exact hw.capacity
    · rw [remember_capacity]
      exact admits_remember hw.admits b
    · rw [remember_capacity]
      exact admits_remember hw.admits' b
    · intro c hc
      rcases mem_of_mem_remember hc with rfl | hc
      · exact hb
      · exact hw.number_eq c hc
  · exact absurd hcan hgone'
  · exact absurd hcan' hgone
  · obtain rfl : f = f' := Option.some.inj (hf.symm.trans hf')
    obtain ⟨hinner, heq⟩ := commonAncestor_of_prefix chain f hw.inner
    have hle := le_commonAncestor chain f h'.buffer.inner
    have hkept := commonAncestor_suffix chain f h.buffer.inner
    have hkept' := commonAncestor_suffix chain f h'.buffer.inner
    rw [hsearch] at hinner heq hkept
    rw [hsearch'] at hinner heq hle hkept'
    refine ⟨⟨hinner, ?_, ?_, ?_, ?_⟩, ?_⟩
    · rw [hcap, hcap']
      exact hw.capacity
    · rw [hcap]
      exact hw.admits.mono hkept.length_le
    · rw [hcap']
      exact hw.admits'.mono hkept'.length_le
    · intro c hc
      exact hw.number_eq c (hkept'.subset hc)
    · rcases heq with rfl | rfl
      · exact ⟨Or.inl rfl, Nat.le_refl _⟩
      · exact ⟨Or.inr hf, hle⟩

end Within

/-- After the same checks, the handlers are still within each other. -/
lemma AskedAlike.within {numberOf : Hash → ℕ} {h₀ h₀' h h' : DefaultReorgHandler Hash}
    (halike : AskedAlike numberOf h₀ h₀' h h') (hw : Within numberOf h₀ h₀') :
    Within numberOf h h' := by
  induction halike with
  | start => exact hw
  | check _ hb hc hc' ih => exact (ih.check hb hc hc').1

/-- **A smaller capacity only makes ancestors older.** The buffer of the handler with the smaller
capacity contains the newest blocks of the other one; the two find the same blocks replaced; and
where the ancestors differ, the handler with the smaller capacity answers the finalized block, which
is no higher than the other ancestor. -/
theorem AskedAlike.smaller_is_older {numberOf : Hash → ℕ} {provider provider' : RobustProvider Hash}
    {capacity capacity' : RingBufferCapacity} {h h' : DefaultReorgHandler Hash}
    (hle : capacity ≤ capacity')
    (halike : AskedAlike numberOf (DefaultReorgHandler.new provider capacity)
      (DefaultReorgHandler.new provider' capacity') h h') :
    h.buffer.inner <+: h'.buffer.inner ∧
      ∀ {chain : Chain Hash} {b : Block Hash} {log log₁ log' log₁' : Log Hash}
        {answer answer' : Option (Block Hash)} {h₁ h₁' : DefaultReorgHandler Hash},
        b.number = numberOf b.hash → ChecksOn chain h b log answer h₁ log₁ →
        ChecksOn chain h' b log' answer' h₁' log₁' →
        h₁.buffer.inner <+: h₁'.buffer.inner ∧ OlderAnswer chain answer answer' := by
  have hw := halike.within (Within.new hle)
  refine ⟨hw.inner, ?_⟩
  intro chain b log log₁ log' log₁' answer answer' h₁ h₁' hb hc hc'
  obtain ⟨hw₁, holder⟩ := hw.check hb hc hc'
  exact ⟨hw₁.inner, holder⟩

/-- A node that replaces its newest block, of height `2`, after two calls. -/
def newestReplaced : RobustProvider ℕ :=
  .healthy (switchAt 2 (.ofHashes 0 [1, 2] 0) (.ofHashes 0 [1, 12] 0))

/-- The calls behind the checks of the blocks `1` and `2`, before the replacement. -/
def twoChecks : Log ℕ :=
  [.request (.blockByNumber (.number 2)), .request (.blockByNumber (.number 1))]

/-- Both blocks are checked before the newer one is replaced, which is then checked again. A handler
with room for one block has no other one to look at and answers the finalized block `0`, where one
with room for all finds block `1`. -/
theorem smaller_is_older_newestReplaced :
    OlderAnswer (.ofHashes 0 [1, 12] 0) (some (⟨0, 0⟩ : Block ℕ)) (some ⟨1, 1⟩) := by
  have hbefore : ∀ k, k < 2 → newestReplaced.view k = .ofHashes 0 [1, 2] 0 :=
    fun _ hk => if_pos hk
  have hafter : ∀ k, 2 ≤ k → newestReplaced.view k = .ofHashes 0 [1, 12] 0 :=
    fun _ hk => switchAt_of_le hk _ _
  -- the checks of the block `1`, then those of the block `2`, by the two handlers
  have hcheck₁ : ∀ capacity ∈ [RingBufferCapacity.limited 1, .infinite],
      ChecksOn (.ofHashes 0 [1, 2] 0) (new newestReplaced capacity) ⟨1, 1⟩ [] none
        ⟨newestReplaced, [⟨1, 1⟩], capacity⟩ twoChecks.tail := by
    intro capacity hcap
    refine ⟨?_, fun _ _ _ => rfl, fun k _ hk => hbefore k (hk.trans (by decide))⟩
    rcases List.mem_pair.mp hcap with rfl | rfl <;> rfl
  have hcheck₂ : ChecksOn (.ofHashes 0 [1, 2] 0) ⟨newestReplaced, [⟨1, 1⟩], .limited 1⟩ ⟨2, 2⟩
      twoChecks.tail none ⟨newestReplaced, [⟨2, 2⟩], .limited 1⟩ twoChecks :=
    ⟨rfl, fun _ _ _ => rfl, fun k _ hk => hbefore k hk⟩
  have hcheck₂' : ChecksOn (.ofHashes 0 [1, 2] 0) ⟨newestReplaced, [⟨1, 1⟩], .infinite⟩ ⟨2, 2⟩
      twoChecks.tail none ⟨newestReplaced, [⟨2, 2⟩, ⟨1, 1⟩], .infinite⟩ twoChecks :=
    ⟨rfl, fun _ _ _ => rfl, fun k _ hk => hbefore k hk⟩
  have halike : AskedAlike (fun hash => min hash 2) (new newestReplaced (.limited 1))
      (new newestReplaced .infinite) ⟨newestReplaced, [⟨2, 2⟩], .limited 1⟩
      ⟨newestReplaced, [⟨2, 2⟩, ⟨1, 1⟩], .infinite⟩ :=
    .check (.check .start rfl (hcheck₁ _ (by decide)) (hcheck₁ _ (by decide))) rfl hcheck₂ hcheck₂'
  -- the check of the replaced block
  have hlast : ChecksOn (.ofHashes 0 [1, 12] 0) ⟨newestReplaced, [⟨2, 2⟩], .limited 1⟩ ⟨2, 2⟩
      twoChecks (some ⟨0, 0⟩) (new newestReplaced (.limited 1))
      (.request (.blockByNumber .finalized) :: .request (.blockByNumber (.number 2)) ::
        .request (.blockByNumber (.number 2)) :: twoChecks) :=
    ⟨rfl, fun _ _ _ => rfl, fun k hk _ => hafter k hk⟩
  have hlast' : ChecksOn (.ofHashes 0 [1, 12] 0)
      ⟨newestReplaced, [⟨2, 2⟩, ⟨1, 1⟩], .infinite⟩ ⟨2, 2⟩ twoChecks (some ⟨1, 1⟩)
      ⟨newestReplaced, [⟨1, 1⟩], .infinite⟩
      (.request (.blockByNumber .finalized) :: .request (.blockByNumber (.number 1)) ::
        .request (.blockByNumber (.number 2)) :: .request (.blockByNumber (.number 2)) ::
        twoChecks) :=
    ⟨rfl, fun _ _ _ => rfl, fun k hk _ => hafter k hk⟩
  have hle : RingBufferCapacity.limited 1 ≤ .infinite := trivial
  exact ((AskedAlike.smaller_is_older hle halike).2 rfl hlast hlast').2

end DefaultReorgHandler

end EventScanner
