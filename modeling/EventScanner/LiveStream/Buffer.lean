import EventScanner.BlockRangeScanner.StableCheck
import EventScanner.LiveStream.Cursor

set_option relaxedAutoImplicit false
set_option autoImplicit false

/-!
# The buffered blocks of a live stream

While a live stream goes on, the blocks its reorg handler has buffered ascend from the oldest to the
newest one. So the newest buffered block that is still on the chain, where the search of the handler
ends, is the highest one.

## Main definitions

* `EventScanner.Stacked` — blocks, newest first, that descend from below a height.
* `EventScanner.LiveConfig.BufferOk` — the invariant.
* `EventScanner.FindsHighest` — the answer to a check is the highest block that survived.

## Main results

* `EventScanner.LiveConfig.bufferOk_step` — every step keeps the invariant.
* `EventScanner.LiveConfig.buffer_ordered` — the buffer is in order, and every check on one chain
  finds the highest block.

## Design

A block is only remembered when it stands above all buffered ones, or when its hash is the newest
one already. For the last block of a batch that was sent this is where the cursor stands
(`Stacked`); for the previous batch end it has to be carried from round to round (`Tops`).
-/

namespace EventScanner

open HashChain

variable {Hash : Type}

/-- The blocks, newest first, descend, and all of them are below the height `k`. -/
structure Stacked (entries : List (Block Hash)) (k : ℕ) : Prop where
  /-- Newer blocks are higher. -/
  descending : entries.Pairwise fun c d => d.number < c.number
  /-- The blocks are below `k`. -/
  lt : ∀ c ∈ entries, c.number < k

/-- The block can be remembered next: its hash is the newest one already, or the buffered blocks are
all below it. -/
def Tops (entries : List (Block Hash)) (b : Block Hash) : Prop :=
  (entries.head?.map Block.hash = some b.hash ∧ Stacked entries (b.number + 1)) ∨
    Stacked entries b.number

section Stacked

variable {entries kept older : List (Block Hash)} {k k' : ℕ} {a b : Block Hash}

/-- No blocks are in order. -/
lemma stacked_nil (k : ℕ) : Stacked ([] : List (Block Hash)) k := ⟨List.Pairwise.nil, by simp⟩

/-- The height may be raised. -/
lemma Stacked.mono (h : Stacked entries k) (hk : k ≤ k') : Stacked entries k' :=
  ⟨h.descending, fun c hc => (h.lt c hc).trans_le hk⟩

/-- Some of the blocks are in order as well. -/
lemma Stacked.of_sublist (h : Stacked entries k) (hs : kept.Sublist entries) : Stacked kept k :=
  ⟨h.descending.sublist hs, fun c hc => h.lt c (hs.subset hc)⟩

/-- The newest block is the highest one. -/
lemma Stacked.tops_head (h : Stacked (a :: older) k) : Tops (a :: older) a := by
  refine Or.inl ⟨rfl, h.descending, ?_⟩
  intro c hc
  rcases List.mem_cons.mp hc with rfl | hc
  · exact Nat.lt_succ_self _
  · exact ((List.pairwise_cons.mp h.descending).1 c hc).trans (Nat.lt_succ_self _)

/-- No buffered block is above one that can be remembered. -/
lemma Tops.stacked (h : Tops entries b) : Stacked entries (b.number + 1) := by
  rcases h with ⟨-, h⟩ | h
  · exact h
  · exact h.mono (Nat.le_succ _)

/-- A block above all others goes on top. -/
lemma Stacked.push (h : Stacked entries b.number) : Stacked (b :: entries) (b.number + 1) := by
  refine ⟨List.pairwise_cons.mpr ⟨h.lt, h.descending⟩, fun c hc => ?_⟩
  rcases List.mem_cons.mp hc with rfl | hc
  · exact Nat.lt_succ_self _
  · exact (h.lt c hc).trans (Nat.lt_succ_self _)

/-- Remembering a block above all others. -/
lemma Stacked.remember [DecidableEq Hash] {h : DefaultReorgHandler Hash}
    (hs : Stacked h.buffer.inner b.number) :
    Stacked (h.remember b).buffer.inner (b.number + 1) := by
  refine ⟨DefaultReorgHandler.pairwise_remember hs.descending hs.lt, fun c hc => ?_⟩
  rcases DefaultReorgHandler.mem_of_mem_remember hc with rfl | hc
  · exact Nat.lt_succ_self _
  · exact (hs.lt c hc).trans (Nat.lt_succ_self _)

/-- A block that can be remembered can be remembered again. -/
lemma Tops.remember [DecidableEq Hash] {h : DefaultReorgHandler Hash}
    (hadmits : h.buffer.capacity.Admits h.buffer.inner.length) (htops : Tops h.buffer.inner b) :
    Tops (h.remember b).buffer.inner b := by
  rw [DefaultReorgHandler.remember_inner hadmits]
  split_ifs with hsame
  · exact htops
  · have hstacked : Stacked h.buffer.inner b.number := by
      rcases htops with ⟨hsame', -⟩ | hstacked
      · exact absurd hsame' hsame
      · exact hstacked
    cases hcap : h.buffer.capacity with
    | infinite => exact Or.inl ⟨rfl, hstacked.push⟩
    | limited n =>
      cases n with
      | zero => exact Or.inr (stacked_nil _)
      | succ n => exact Or.inl ⟨rfl, hstacked.push.of_sublist (List.take_sublist _ _)⟩

end Stacked

namespace LiveConfig

variable (cfg : LiveConfig Hash)

/-- Where the stream stands, the buffered blocks are in order, and the next block that may be
remembered fits on top. -/
def InOrder (entries : List (Block Hash)) : LivePhase Hash → Prop
  | .starting => entries = []
  | .streaming (.ready iter last) _ =>
    Stacked entries iter.current ∧ ∀ b ∈ last, iter.stop < iter.current → Tops entries b
  | .streaming (.sent _ b) _ => Stacked entries b.number
  | .waiting ⟨_, some b⟩ => Tops entries b
  | .waiting ⟨batchStart, none⟩ => Stacked entries batchStart
  | .stopped => True

/-- The buffer of a live stream of the given capacity is in order. -/
structure BufferOk (capacity : RingBufferCapacity) (phase : LivePhase Hash)
    (buffer : RingBuffer (Block Hash)) : Prop where
  /-- The capacity does not change. -/
  capacity_eq : buffer.capacity = capacity
  /-- The buffer is not overfull. -/
  admits : capacity.Admits buffer.inner.length
  /-- The blocks are in order. -/
  inOrder : InOrder buffer.inner phase

variable {cfg} {capacity : RingBufferCapacity} {phase phase' : LivePhase Hash}
  {entries : List (Block Hash)} {n : ℕ} {b : Block Hash}

/-- Wherever the stream stands, blocks in order descend. -/
lemma InOrder.descending (h : InOrder entries phase) (hrunning : phase ≠ .stopped) :
    entries.Pairwise fun c d => d.number < c.number := by
  match phase, h with
  | .starting, h =>
    rw [show entries = [] from h]
    exact List.Pairwise.nil
  | .streaming (.ready _ _) _, h => exact h.1.descending
  | .streaming (.sent _ _) _, h => exact Stacked.descending h
  | .waiting ⟨_, some _⟩, h => exact (Tops.stacked h).descending
  | .waiting ⟨_, none⟩, h => exact Stacked.descending h
  | .stopped, _ => exact absurd rfl hrunning

/-- Blocks in order stay in order when the stream goes on up to the confirmed block of a header. -/
lemma inOrder_proceed {state : LiveStreamingState Hash} (h : Stacked entries state.batchStart)
    (hprev : ∀ b ∈ state.previousBatchEnd, Tops entries b) :
    InOrder entries (cfg.proceed n state) := by
  unfold proceed
  split_ifs
  · obtain ⟨batchStart, _ | b⟩ := state
    · exact h
    · exact hprev b rfl
  · exact ⟨h, by simp⟩

/-- The stream goes on behind the common ancestor that a check has answered. -/
lemma inOrder_afterReorg {a : Block Hash} (h : Tops entries a) :
    InOrder entries (cfg.proceed n (cfg.afterReorg a)) := by
  unfold afterReorg
  split_ifs with ha
  · exact inOrder_proceed (h.stacked.mono ha) (by simp)
  · refine inOrder_proceed h.stacked ?_
    rintro _ ⟨⟩
    exact h

variable [DecidableEq Hash] {h h' : DefaultReorgHandler Hash} {log reqs : Log Hash}

/-- A check with a common ancestor keeps the oldest blocks, with the ancestor on top, or none. -/
lemma stacked_search {a : Block Hash} {k : ℕ} (hs : Stacked h.buffer.inner k)
    (hcheck : (ReorgHandler.check h b).run log = (some (.ok (some a), h'), reqs ++ log)) :
    Stacked h'.buffer.inner k ∧ Tops h'.buffer.inner a ∧
      h'.buffer.inner.length ≤ h.buffer.inner.length := by
  obtain ⟨-, -, hsearch⟩ := DefaultReorgHandler.check_eq_ok_some hcheck
  obtain ⟨-, -, -, ⟨older, hkept, hsuffix, -⟩ | ⟨-, hkept⟩⟩ := hsearch.answer
  · have hs' := hs.of_sublist hsuffix.sublist
    refine ⟨hs', ?_, hsuffix.length_le⟩
    rw [hkept] at hs' ⊢
    exact hs'.tops_head
  · rw [hkept]
    exact ⟨stacked_nil _, Or.inr (stacked_nil _), Nat.zero_le _⟩

/-- Remembering a block keeps the capacity. -/
lemma BufferOk.remember (hok : BufferOk capacity phase h.buffer)
    (hord : InOrder (h.remember b).buffer.inner phase') :
    BufferOk capacity phase' (h.remember b).buffer := by
  obtain ⟨rfl, hadmits, -⟩ := hok
  exact ⟨DefaultReorgHandler.remember_capacity h b, DefaultReorgHandler.admits_remember hadmits b,
    hord⟩

/-- A search keeps the capacity. -/
lemma BufferOk.search {a : Block Hash} {k : ℕ} (hok : BufferOk capacity phase h.buffer)
    (hs : Stacked h.buffer.inner k)
    (hcheck : (ReorgHandler.check h b).run log = (some (.ok (some a), h'), reqs ++ log))
    (hord : Stacked h'.buffer.inner k → Tops h'.buffer.inner a →
      InOrder h'.buffer.inner phase') : BufferOk capacity phase' h'.buffer := by
  obtain ⟨hs', htops, hlen⟩ := stacked_search hs hcheck
  exact ⟨(DefaultReorgHandler.check_capacity hcheck).trans hok.capacity_eq,
    hok.admits.mono hlen, hord hs' htops⟩

variable {s t : LiveState Hash (DefaultReorgHandler Hash)}

/-- **The buffer stays in order**, whatever step the stream takes, as long as it goes on.

**Proof sketch.** Case split on the step. A clean check pushes the last block of a batch, which
ends right before the cursor, or finds the previous batch end on top; a search leaves the common
ancestor on top, and the cursor goes back behind it. -/
lemma bufferOk_step (hst : LiveStep cfg s t) (hcut : cfg.Cutting s)
    (hok : BufferOk capacity s.phase s.handler.buffer) (hrunning : t.phase ≠ .stopped) :
    BufferOk capacity t.phase t.handler.buffer := by
  have hord := hok.inOrder
  cases hst with
  | first hrel hnotice =>
    refine ⟨hok.capacity_eq, hok.admits, ?_, by simp⟩
    have hnil : _ = [] := hord
    rw [hnil]
    exact stacked_nil _
  | batch hb =>
    cases hb with
    | emit hnext hnum hsees =>
      obtain ⟨hstart, hle, -⟩ := hcut.1.next hnext
      exact ⟨hok.capacity_eq, hok.admits, hord.1.mono (by omega)⟩
    | clean hcheck hreqs =>
      obtain ⟨rfl, -⟩ := DefaultReorgHandler.check_eq_ok_none hcheck
      have htops : Tops _ _ := Tops.remember (hok.capacity_eq ▸ hok.admits) (Or.inr hord)
      refine hok.remember ⟨?_, ?_⟩
      · rw [hcut.2.2.2.1]
        exact htops.stacked
      · rintro _ ⟨⟩ -
        exact htops
    | reorg hcheck hreqs =>
      refine hok.search hord hcheck fun hs' htops => ⟨?_, ?_⟩
      · exact htops.stacked.mono (Nat.le_max_left _ _)
      · rintro _ ⟨⟩ -
        exact Or.inr hs'
  | batchesDone hnext =>
    exact ⟨hok.capacity_eq, hok.admits, hord.2 _ rfl (hcut.1.wf.next_eq_none.mp hnext)⟩
  | lagged | ignored => exact hok
  | header hh =>
    have htops : Tops _ _ := hord
    cases hh with
    | clean hcheck hreqs =>
      obtain ⟨rfl, -⟩ := DefaultReorgHandler.check_eq_ok_none hcheck
      have htops' := Tops.remember (hok.capacity_eq ▸ hok.admits) htops
      refine hok.remember (inOrder_proceed htops'.stacked ?_)
      rintro _ ⟨⟩
      exact htops'
    | reorg hcheck hreqs =>
      exact hok.search htops.stacked hcheck fun _ htops' => inOrder_afterReorg htops'
  | stop => exact absurd rfl hrunning

/-- In every run the buffer is in order until the stream stops. -/
lemma bufferOk_of_reach {provider : RobustProvider Hash} {log₀ : Log Hash}
    (hreach : (liveSystem cfg).Reach ⟨.starting, .new provider capacity, log₀⟩ t) :
    cfg.Cutting t ∧ (t.phase ≠ .stopped → BufferOk capacity t.phase t.handler.buffer) := by
  induction hreach with
  | refl =>
    exact ⟨trivial, fun _ => ⟨rfl, RingBufferCapacity.admits_zero capacity, rfl⟩⟩
  | tail _ hst ih =>
    obtain ⟨hcut, hok⟩ := ih
    refine ⟨cutting_step hst hcut, fun hrunning => ?_⟩
    refine bufferOk_step hst hcut (hok fun hstopped => hrunning ?_) hrunning
    cases hst <;> first | rfl | cases hstopped

end LiveConfig

/-! ### The answer to a check -/

section FindsHighest

variable [DecidableEq Hash]

/-- The highest of the blocks that are on the chain. -/
structure IsHighest (chain : Chain Hash) (entries : List (Block Hash)) (a : Block Hash) : Prop where
  /-- It is one of the blocks. -/
  mem : a ∈ entries
  /-- It is on the chain. -/
  canonical : chain.Canonical a
  /-- No other one is higher. -/
  le : ∀ c ∈ entries, chain.Canonical c → c.number ≤ a.number

/-- What a check of `b` has to answer on one chain, from one buffer to the next. -/
structure FindsHighest (chain : Chain Hash) (buffer : RingBuffer (Block Hash)) (b : Block Hash)
    (answer : Option (Block Hash)) (buffer' : RingBuffer (Block Hash)) : Prop where
  /-- No reorg is found exactly when the block is on the chain. -/
  eq_none_iff : answer = none ↔ chain.Canonical b
  /-- Such a block is pushed, unless its hash is the newest one. -/
  pushed : answer = none →
    buffer' = if buffer.back.map Block.hash = some b.hash then buffer else buffer.push b
  /-- A replaced block is answered with the highest buffered block that survived, which is then the
  newest one left; or, where there is none that is not below the finalized block, with the
  finalized block, and no block is left. -/
  found : ∀ a, answer = some a → ∃ f, chain.finalizedBlock = some f ∧
    ((IsHighest chain buffer.inner a ∧ f.number ≤ a.number ∧
        ∃ newer older, buffer.inner = newer ++ a :: older ∧
          buffer' = { buffer with inner := a :: older }) ∨
      (∀ c ∈ buffer.inner, chain.Canonical c → c.number < f.number) ∧ a = f ∧
        buffer' = buffer.clear)

variable {chain : Chain Hash} {entries : List (Block Hash)}

/-- The search through blocks in order ends at the highest block that survived.

**Proof sketch.** Induction on the blocks. The first one on the chain is above all that follow. -/
lemma commonAncestor_cases (chain : Chain Hash) (f : Block Hash)
    (h : entries.Pairwise fun c d => d.number < c.number) :
    (∃ a newer older, DefaultReorgHandler.commonAncestor chain f entries = (a, a :: older) ∧
        IsHighest chain entries a ∧ f.number ≤ a.number ∧ entries = newer ++ a :: older) ∨
      (∀ c ∈ entries, chain.Canonical c → c.number < f.number) ∧
        DefaultReorgHandler.commonAncestor chain f entries = (f, []) := by
  induction entries with
  | nil => exact Or.inr ⟨by simp, rfl⟩
  | cons c older ih =>
    obtain ⟨hc, holder⟩ := List.pairwise_cons.mp h
    by_cases hcan : chain.Canonical c
    · rw [DefaultReorgHandler.commonAncestor_cons_of_canonical hcan]
      have hle : ∀ d ∈ c :: older, d.number ≤ c.number := by
        intro d hd
        rcases List.mem_cons.mp hd with rfl | hd
        · exact Nat.le_refl _
        · exact (hc d hd).le
      split_ifs with hf
      · refine Or.inl ⟨c, [], older, rfl, ⟨List.mem_cons_self, hcan, fun d hd _ => ?_⟩, hf, rfl⟩
        exact hle d hd
      · exact Or.inr ⟨fun d hd _ => (hle d hd).trans_lt (Nat.lt_of_not_le hf), rfl⟩
    · rw [DefaultReorgHandler.commonAncestor_cons_of_not hcan]
      have hne : ∀ d ∈ c :: older, chain.Canonical d → d ∈ older := by
        intro d hd hd'
        rcases List.mem_cons.mp hd with rfl | hd
        · exact absurd hd' hcan
        · exact hd
      rcases ih holder with ⟨a, newer, older', heq, hhighest, hf, rfl⟩ | ⟨hlow, heq⟩
      · refine Or.inl ⟨a, c :: newer, older', heq, ⟨?_, hhighest.canonical, ?_⟩, hf, rfl⟩
        · exact List.mem_cons_of_mem c hhighest.mem
        · exact fun d hd hd' => hhighest.le d (hne d hd hd') hd'
      · exact Or.inr ⟨fun d hd hd' => hlow d (hne d hd hd') hd', heq⟩

/-- A check on one chain finds the highest block, if the buffer is in order. -/
lemma findsHighest_of_checksOn {h h' : DefaultReorgHandler Hash} {b : Block Hash}
    {log log' : Log Hash} {answer : Option (Block Hash)}
    (hord : h.buffer.inner.Pairwise fun c d => d.number < c.number)
    (hcheck : DefaultReorgHandler.ChecksOn chain h b log answer h' log') :
    FindsHighest chain h.buffer b answer h'.buffer := by
  rcases hcheck.cases with ⟨hcan, rfl, rfl⟩ | ⟨hgone, -, hcap, f, a, hf, rfl, heq⟩
  · refine ⟨by simp [hcan], fun _ => ?_, by simp⟩
    unfold DefaultReorgHandler.remember
    split_ifs <;> rfl
  · refine ⟨by simp [hgone], by simp, ?_⟩
    rintro _ ⟨⟩
    refine ⟨f, hf, ?_⟩
    obtain ⟨provider', inner', capacity'⟩ := h'
    obtain rfl : capacity' = h.buffer.capacity := hcap
    rcases commonAncestor_cases chain f hord with
      ⟨a', newer, older, heq', hhighest, hle, hsplit⟩ | ⟨hlow, heq'⟩
    all_goals
      obtain ⟨rfl, rfl⟩ := Prod.mk.inj (heq.symm.trans heq')
    · exact Or.inl ⟨hhighest, hle, newer, older, hsplit, rfl⟩
    · exact Or.inr ⟨hlow, rfl, rfl⟩

end FindsHighest

/-- **The buffer of a live stream is in order, and a check finds the highest block that survived.**
At any point of any run that has not stopped the buffered blocks ascend from the oldest to the
newest, and are no more than the capacity. Whatever block is then checked, by calls that succeed on
one chain, the answer is that of `FindsHighest`. -/
theorem LiveConfig.buffer_ordered [DecidableEq Hash] {cfg : LiveConfig Hash}
    {provider : RobustProvider Hash} {capacity : RingBufferCapacity} {log₀ : Log Hash}
    {t : LiveState Hash (DefaultReorgHandler Hash)}
    (hreach : (liveSystem cfg).Reach ⟨.starting, .new provider capacity, log₀⟩ t)
    (hrunning : t.phase ≠ .stopped) :
    (t.handler.buffer.inner.reverse.Pairwise fun c d => c.number < d.number) ∧
      capacity.Admits t.handler.buffer.inner.length ∧
      ∀ {chain : Chain Hash} {b : Block Hash} {log log' : Log Hash} {answer : Option (Block Hash)}
        {h' : DefaultReorgHandler Hash},
        DefaultReorgHandler.ChecksOn chain t.handler b log answer h' log' →
          FindsHighest chain t.handler.buffer b answer h'.buffer := by
  obtain ⟨-, hok⟩ := bufferOk_of_reach hreach
  obtain ⟨-, hadmits, hord⟩ := hok hrunning
  have hdesc := hord.descending hrunning
  exact ⟨List.pairwise_reverse.mpr hdesc, hadmits, findsHighest_of_checksOn hdesc⟩

/-! ### A buffer with two blocks -/

namespace LiveConfig

/-- A node that replaces its newest block, of height `2`, after four calls. -/
def replacedAfterCatchUp : RobustProvider ℕ :=
  .healthy (switchAt 4 (.ofHashes 0 [1, 2] 0) (.ofHashes 0 [1, 12] 0))

/-- A live stream from block `1` on, block by block. -/
def blockByBlock : LiveConfig ℕ where
  streamStart := 1
  blockConfirmations := 0
  maxBlockRange := ⟨1, by decide⟩
  sender := ⟨none⟩
  provider := replacedAfterCatchUp

/-- The log behind the catch-up to the header `2`. -/
def caughtUp : Log ℕ :=
  [.checked ⟨2, 2⟩ none, .request (.blockByNumber (.number 2)), .sent (dataItem ⟨2, 2⟩),
    .request (.blockByNumber (.number 2)), .checked ⟨1, 1⟩ none,
    .request (.blockByNumber (.number 1)), .sent (dataItem ⟨1, 1⟩),
    .request (.blockByNumber (.number 1)), .received (.ok 2)]

/-- Behind the catch-up to the header `2` both blocks are buffered. The check of the replaced block
`2` finds block `1`, which is left in the buffer. -/
theorem buffer_ordered_caughtUp :
    FindsHighest (.ofHashes 0 [1, 12] 0) ⟨[⟨2, 2⟩, ⟨1, 1⟩], .infinite⟩ (⟨2, 2⟩ : Block ℕ)
      (some ⟨1, 1⟩) ⟨[⟨1, 1⟩], .infinite⟩ := by
  have hfirst : (blockByBlock.initializeLiveStreamingState 3 2
      (DefaultReorgHandler.new replacedAfterCatchUp .infinite)).run [.received (.ok 2)] =
        (some (some ⟨1, some ⟨2, 2⟩⟩, ⟨replacedAfterCatchUp, [⟨2, 2⟩, ⟨1, 1⟩], .infinite⟩),
          caughtUp) := rfl
  have hreach := LoopTop.reach blockByBlock (.first (by decide) (Or.inl rfl) hfirst)
  have hcheck : DefaultReorgHandler.ChecksOn (.ofHashes 0 [1, 12] 0)
      ⟨replacedAfterCatchUp, [⟨2, 2⟩, ⟨1, 1⟩], .infinite⟩ ⟨2, 2⟩ caughtUp (some ⟨1, 1⟩)
      ⟨replacedAfterCatchUp, [⟨1, 1⟩], .infinite⟩
      (.request (.blockByNumber .finalized) :: .request (.blockByNumber (.number 1)) ::
        .request (.blockByNumber (.number 2)) :: .request (.blockByNumber (.number 2)) ::
        caughtUp) :=
    ⟨rfl, fun _ _ _ => rfl, fun _ hk _ => switchAt_of_le hk _ _⟩
  exact (buffer_ordered hreach (by simp)).2.2 hcheck

end LiveConfig

end EventScanner
