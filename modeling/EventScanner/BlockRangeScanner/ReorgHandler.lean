import EventScanner.BlockRangeScanner.RingBuffer
import EventScanner.Provider

set_option relaxedAutoImplicit false
set_option autoImplicit false

/-!
# The reorg handler

`ReorgHandler` and its implementation `DefaultReorgHandler` (`reorg_handler.rs`): a check
compares a block with the chain and, when the block was replaced, looks for a common ancestor
among the buffered blocks, with the finalized block as the fallback.

## Main definitions

* `EventScanner.ReorgHandler` — the trait: a handler checks blocks, and talks to nobody but the
  provider.
* `EventScanner.checkBlock` — a check as its callers see it, noted in the log.
* `EventScanner.DefaultReorgHandler` — the implementation, with `reorgDetected`,
  `returnCommonAncestor` and `check`.
* `EventScanner.DefaultReorgHandler.Search` — what the search for a common ancestor can do.

## Main results

* `EventScanner.DefaultReorgHandler.check_cases` — what a check can answer, and what it then
  leaves in the buffer.
-/

namespace EventScanner

open HashChain

/-- The trait `ReorgHandler`: a handler of type `R` checks a block against the chain and returns
the common ancestor if the block was replaced. -/
class ReorgHandler (Hash : outParam Type) (R : Type) where
  /-- Check if a block was reorged. -/
  check : R → Block Hash → Proc (Event Hash) (Except ScannerError (Option (Block Hash)) × R)
  /-- A check always returns, and makes provider calls only. -/
  check_quiet : ∀ (h : R) (b : Block Hash) (log : Log Hash), ∃ answer h' reqs,
    (check h b).run log = (some (answer, h'), reqs ++ log) ∧ ∀ e ∈ reqs, e.isRequest = true

variable {Hash R : Type}

/-- `reorg_handler.check(&block)` at its call sites: an `Ok` answer is noted in the log. -/
def checkBlock [ReorgHandler Hash R] (h : R) (b : Block Hash) :
    Proc (Event Hash) (Except ScannerError (Option (Block Hash)) × R) := do
  let result ← ReorgHandler.check h b
  match result.1 with
  | .ok commonAncestor =>
    Proc.emit (.checked b commonAncestor)
    pure result
  | .error _ => pure result

/-- The outcome of a noted check: either an error after some provider calls, or an answer, which
the newest event of the log then records. -/
lemma checkBlock_cases [ReorgHandler Hash R] (h : R) (b : Block Hash) (log : Log Hash) :
    ∃ h' reqs, (∀ e ∈ reqs, e.isRequest = true) ∧
      ((∃ e, (ReorgHandler.check h b).run log = (some (.error e, h'), reqs ++ log) ∧
          (checkBlock h b).run log = (some (.error e, h'), reqs ++ log)) ∨
        ∃ a, (ReorgHandler.check h b).run log = (some (.ok a, h'), reqs ++ log) ∧
          (checkBlock h b).run log = (some (.ok a, h'), .checked b a :: (reqs ++ log))) := by
  obtain ⟨answer, h', reqs, hrun, hreqs⟩ := ReorgHandler.check_quiet h b log
  refine ⟨h', reqs, hreqs, ?_⟩
  unfold checkBlock
  rw [Proc.run_bind_some hrun]
  cases answer with
  | error e => exact Or.inl ⟨e, hrun, rfl⟩
  | ok a => exact Or.inr ⟨a, hrun, rfl⟩

/-- The handler the scanner uses: a provider and a buffer of checked blocks. -/
structure DefaultReorgHandler (Hash : Type) where
  /-- The provider to ask. -/
  provider : RobustProvider Hash
  /-- The number and hash of the blocks that passed a check. -/
  buffer : RingBuffer (Block Hash)

namespace DefaultReorgHandler

/-- `DefaultReorgHandler::new`. -/
def new (provider : RobustProvider Hash) (capacity : RingBufferCapacity) :
    DefaultReorgHandler Hash := ⟨provider, RingBuffer.new capacity⟩

/-- The result of a check together with the handler after it. -/
abbrev CheckResult (Hash : Type) :=
  Except ScannerError (Option (Block Hash)) × DefaultReorgHandler Hash

section Code

variable [DecidableEq Hash]

/-- `DefaultReorgHandler::reorg_detected`. -/
def reorgDetected (self : DefaultReorgHandler Hash) (block : Block Hash) :
    Proc (Event Hash) (Except ScannerError Bool) := do
  match ← getBlockByNumber self.provider (.number block.number) with
  | .ok canonicalBlock => pure (.ok (decide (canonicalBlock.hash ≠ block.hash)))
  | .error .blockNotFound => pure (.ok true)
  | .error e => pure (.error (.ofProvider e))

/-- `DefaultReorgHandler::return_common_ancestor`: an ancestor below the finalized block gives
way to it, and the buffer is cleared. -/
def returnCommonAncestor (self : DefaultReorgHandler Hash) (commonAncestor : Block Hash) :
    Proc (Event Hash) (CheckResult Hash) := do
  match ← getBlockByNumber self.provider .finalized with
  | .error e => pure (.error (.ofProvider e), self)
  | .ok finalized =>
    if finalized.number ≤ commonAncestor.number then pure (.ok (some commonAncestor), self)
    else pure (.ok (some finalized), { self with buffer := self.buffer.clear })

/-- The `while let` loop of `check` over the buffer, newest entry first, and the fallback to the
finalized block behind it. -/
def searchBuffer (provider : RobustProvider Hash) (capacity : RingBufferCapacity) :
    List (Block Hash) → Proc (Event Hash) (CheckResult Hash)
  | [] => do
    match ← getBlockByNumber provider .finalized with
    | .ok finalized => pure (.ok (some finalized), ⟨provider, ⟨[], capacity⟩⟩)
    | .error e => pure (.error (.ofProvider e), ⟨provider, ⟨[], capacity⟩⟩)
  | candidate :: older => do
    match ← getBlockByNumber provider (.number candidate.number) with
    | .ok canonical =>
      if canonical.hash = candidate.hash then
        returnCommonAncestor ⟨provider, ⟨candidate :: older, capacity⟩⟩ canonical
      else searchBuffer provider capacity older
    | .error .blockNotFound => searchBuffer provider capacity older
    | .error e => pure (.error (.ofProvider e), ⟨provider, ⟨candidate :: older, capacity⟩⟩)

/-- Store a checked block for future reference, unless its hash is the newest one stored. -/
def remember (self : DefaultReorgHandler Hash) (block : Block Hash) : DefaultReorgHandler Hash :=
  if self.buffer.back.map Block.hash = some block.hash then self
  else { self with buffer := self.buffer.push block }

/-- `DefaultReorgHandler::check`. -/
def check (self : DefaultReorgHandler Hash) (block : Block Hash) :
    Proc (Event Hash) (CheckResult Hash) := do
  match ← self.reorgDetected block with
  | .error e => pure (.error e, self)
  | .ok false => pure (.ok none, self.remember block)
  | .ok true => searchBuffer self.provider self.buffer.capacity self.buffer.inner

end Code

/-! ### What a check can do -/

section Outcomes

variable {provider : RobustProvider Hash} {k : ℕ} {b f : Block Hash}

/-- The `k`-th call, asking for the number of `b`, returns `b`. -/
def Sees (provider : RobustProvider Hash) (k : ℕ) (b : Block Hash) : Prop :=
  provider.fault k = none ∧ (provider.view k).Canonical b

/-- The `k`-th call, asking for the number of `b`, finds another block or none. -/
def Misses (provider : RobustProvider Hash) (k : ℕ) (b : Block Hash) : Prop :=
  provider.fault k = some .blockNotFound ∨
    provider.fault k = none ∧ ¬(provider.view k).Canonical b

/-- A call does not miss the block that it returns. -/
lemma Misses.not_sees (h : Misses provider k b) : ¬Sees provider k b := by
  rintro ⟨hfault, hb⟩
  rcases h with hfail | ⟨-, hgone⟩
  · rw [hfault] at hfail
    cases hfail
  · exact hgone hb

/-- The `k`-th call, asking for the finalized block, returns `f`. -/
def SeesFinalized (provider : RobustProvider Hash) (k : ℕ) (f : Block Hash) : Prop :=
  provider.fault k = none ∧ (provider.view k).Canonical f ∧
    (provider.view k).finalized = some f.number

/-- The finalized block that a call sees is that of the chain. -/
lemma SeesFinalized.finalizedBlock_eq (h : SeesFinalized provider k f) :
    (provider.view k).finalizedBlock = some f := by
  obtain ⟨-, hf, hn⟩ := h
  unfold Chain.finalizedBlock
  rw [hn, Option.bind_some]
  exact ((provider.view k).blockAt_eq_some_iff f.number f).mpr ⟨rfl, hf⟩

/-- What the search for a common ancestor can do: from the buffered blocks and the log, to the
block it answers, the blocks left in the buffer and the log after it. -/
inductive Search (provider : RobustProvider Hash) :
    List (Block Hash) → Log Hash → Block Hash → List (Block Hash) → Log Hash → Prop
  /-- The newest buffered block is not canonical: it is dropped. -/
  | skip {c : Block Hash} {older : List (Block Hash)} {log : Log Hash} {a : Block Hash}
      {kept : List (Block Hash)} {log' : Log Hash} :
      Misses provider (clock log) c →
      Search provider older (.request (.blockByNumber (.number c.number)) :: log) a kept log' →
      Search provider (c :: older) log a kept log'
  /-- The newest buffered block is canonical, and not below the finalized one. -/
  | found {c : Block Hash} {older : List (Block Hash)} {log : Log Hash} {f : Block Hash} :
      Sees provider (clock log) c → SeesFinalized provider (clock log + 1) f →
      f.number ≤ c.number →
      Search provider (c :: older) log c (c :: older)
        (.request (.blockByNumber .finalized) ::
          .request (.blockByNumber (.number c.number)) :: log)
  /-- The newest buffered block is canonical, but below the finalized one. -/
  | tooOld {c : Block Hash} {older : List (Block Hash)} {log : Log Hash} {f : Block Hash} :
      Sees provider (clock log) c → SeesFinalized provider (clock log + 1) f →
      c.number < f.number →
      Search provider (c :: older) log f []
        (.request (.blockByNumber .finalized) ::
          .request (.blockByNumber (.number c.number)) :: log)
  /-- The buffer is exhausted. -/
  | exhausted {log : Log Hash} {f : Block Hash} :
      SeesFinalized provider (clock log) f →
      Search provider [] log f [] (.request (.blockByNumber .finalized) :: log)

/-- An answer to a call for a block number, when there is one, is the canonical block. -/
lemma answer_number_eq_ok {n : ℕ}
    (h : provider.answer k (provider.findTag k (.number n)) = .ok b) :
    b.number = n ∧ Sees provider k b := by
  simp only [RobustProvider.answer, RobustProvider.findTag] at h
  cases hf : provider.fault k with
  | some e => simp [hf] at h
  | none =>
    rw [hf] at h
    cases hb : (provider.view k).blockAt n with
    | none => simp [hb] at h
    | some b' =>
      simp only [hb, Except.ok.injEq] at h
      subst h
      obtain ⟨hn, hc⟩ := ((provider.view k).blockAt_eq_some_iff n _).mp hb
      exact ⟨hn, hf, hc⟩

/-- A block other than `b` at its number means that `b` is not canonical. -/
lemma misses_of_answer_ne {b' : Block Hash}
    (h : provider.answer k (provider.findTag k (.number b.number)) = .ok b')
    (hne : b'.hash ≠ b.hash) : Misses provider k b := by
  obtain ⟨hn, hf, hc⟩ := answer_number_eq_ok h
  exact Or.inr ⟨hf, fun hb => hne (congrArg Block.hash (hc.eq_of_number_eq hb hn))⟩

/-- `BlockNotFound` at the number of `b` means that `b` is not seen. -/
lemma misses_of_answer_blockNotFound
    (h : provider.answer k (provider.findTag k (.number b.number)) = .error .blockNotFound) :
    Misses provider k b := by
  simp only [RobustProvider.answer, RobustProvider.findTag] at h
  cases hf : provider.fault k with
  | some e =>
    rw [hf] at h
    simp only [Except.error.injEq] at h
    subst h
    exact Or.inl hf
  | none =>
    rw [hf] at h
    refine Or.inr ⟨hf, fun hb => ?_⟩
    rw [((provider.view k).blockAt_eq_some_iff _ b).mpr ⟨rfl, hb⟩] at h
    simp at h

/-- An answer to a call for the finalized block is the block at the finalized height. -/
lemma answer_finalized_eq_ok (h : provider.answer k (provider.findTag k .finalized) = .ok f) :
    SeesFinalized provider k f := by
  simp only [RobustProvider.answer, RobustProvider.findTag] at h
  cases hf : provider.fault k with
  | some e => simp [hf] at h
  | none =>
    rw [hf] at h
    cases hn : (provider.view k).finalized with
    | none => simp [hn] at h
    | some n =>
      cases hb : (provider.view k).blockAt n with
      | none => simp [hn, hb] at h
      | some b' =>
        simp only [hn, Option.bind_some, hb, Except.ok.injEq] at h
        subst h
        obtain ⟨rfl, hc⟩ := ((provider.view k).blockAt_eq_some_iff n _).mp hb
        exact ⟨hf, hc, hn⟩

/-- The last step of the search at a canonical buffered block: the answer is that block, or the
finalized one with the buffer cleared. -/
lemma returnCommonAncestor_cases (capacity : RingBufferCapacity) {c : Block Hash}
    (older : List (Block Hash)) {log : Log Hash} (hc : Sees provider (clock log) c) :
    ∃ result, (returnCommonAncestor ⟨provider, ⟨c :: older, capacity⟩⟩ c).run
          (.request (.blockByNumber (.number c.number)) :: log) =
        (some result, .request (.blockByNumber .finalized) ::
          .request (.blockByNumber (.number c.number)) :: log) ∧
      ((∃ e, result.1 = .error e) ∨
        ∃ a kept, result = (.ok (some a), ⟨provider, ⟨kept, capacity⟩⟩) ∧
          Search provider (c :: older) log a kept (.request (.blockByNumber .finalized) ::
            .request (.blockByNumber (.number c.number)) :: log)) := by
  unfold returnCommonAncestor getBlockByNumber
  rw [Proc.run_bind_some (run_call _ _ _ _), clock_request]
  cases ha : provider.answer (clock log + 1) (provider.findTag (clock log + 1) .finalized) with
  | error e => exact ⟨_, rfl, Or.inl ⟨_, rfl⟩⟩
  | ok f =>
    have hf := answer_finalized_eq_ok ha
    dsimp only
    split_ifs with hle
    · exact ⟨_, rfl, Or.inr ⟨c, c :: older, rfl, .found hc hf hle⟩⟩
    · exact ⟨_, rfl, Or.inr ⟨f, [], rfl, .tooOld hc hf (Nat.lt_of_not_le hle)⟩⟩

variable [DecidableEq Hash]

/-- The search for a common ancestor returns after provider calls only, and an `Ok` answer is one
`Search` allows. -/
lemma searchBuffer_cases (provider : RobustProvider Hash) (capacity : RingBufferCapacity)
    (entries : List (Block Hash)) (log : Log Hash) :
    ∃ result reqs, (searchBuffer provider capacity entries).run log = (some result, reqs ++ log) ∧
      (∀ e ∈ reqs, e.isRequest = true) ∧
      ((∃ e, result.1 = .error e) ∨
        ∃ a kept, result = (.ok (some a), ⟨provider, ⟨kept, capacity⟩⟩) ∧
          Search provider entries log a kept (reqs ++ log)) := by
  induction entries generalizing log with
  | nil =>
    simp only [searchBuffer, getBlockByNumber]
    rw [Proc.run_bind_some (run_call _ _ _ _)]
    cases ha : provider.answer (clock log) (provider.findTag (clock log) .finalized) with
    | error e => exact ⟨_, [_], rfl, by simp, Or.inl ⟨_, rfl⟩⟩
    | ok f =>
      exact ⟨_, [_], rfl, by simp,
        Or.inr ⟨f, [], rfl, .exhausted (answer_finalized_eq_ok ha)⟩⟩
  | cons c older ih =>
    have hskip : Misses provider (clock log) c → ∃ result reqs,
        (searchBuffer provider capacity older).run
            (.request (.blockByNumber (.number c.number)) :: log) = (some result, reqs ++ log) ∧
          (∀ e ∈ reqs, e.isRequest = true) ∧
          ((∃ e, result.1 = .error e) ∨
            ∃ a kept, result = (.ok (some a), ⟨provider, ⟨kept, capacity⟩⟩) ∧
              Search provider (c :: older) log a kept (reqs ++ log)) := by
      intro hmiss
      obtain ⟨result, reqs, hrun, hreqs, hres⟩ :=
        ih (.request (.blockByNumber (.number c.number)) :: log)
      refine ⟨result, reqs ++ [.request (.blockByNumber (.number c.number))], ?_, ?_, ?_⟩
      · simpa using hrun
      · intro e he
        rcases List.mem_append.mp he with he | he
        · exact hreqs e he
        · obtain rfl := List.mem_singleton.mp he
          rfl
      · rcases hres with herr | ⟨a, kept, hres, hs⟩
        · exact Or.inl herr
        · exact Or.inr ⟨a, kept, hres, by simpa using Search.skip hmiss hs⟩
    simp only [searchBuffer, getBlockByNumber]
    rw [Proc.run_bind_some (run_call _ _ _ _)]
    cases ha : provider.answer (clock log) (provider.findTag (clock log) (.number c.number)) with
    | ok canonical =>
      dsimp only
      split_ifs with heq
      · obtain ⟨hn, hsees⟩ := answer_number_eq_ok ha
        obtain rfl : canonical = c := by
          cases canonical
          cases c
          simp_all
        obtain ⟨result, hrun, hres⟩ := returnCommonAncestor_cases capacity older hsees
        exact ⟨result, [_, _], hrun, by simp, hres⟩
      · exact hskip (misses_of_answer_ne ha heq)
    | error e =>
      by_cases he : e = .blockNotFound
      · subst he
        exact hskip (misses_of_answer_blockNotFound ha)
      · cases e <;> first | exact absurd rfl he | exact ⟨_, [_], rfl, by simp, Or.inl ⟨_, rfl⟩⟩

/-- **What a check can do.** It returns after provider calls only, with an error, or with no
ancestor because the block is canonical (which is then remembered), or, the block being replaced,
with a block that `Search` finds. -/
theorem check_cases (self : DefaultReorgHandler Hash) (b : Block Hash) (log : Log Hash) :
    ∃ result reqs, (self.check b).run log = (some result, reqs ++ log) ∧
      (∀ e ∈ reqs, e.isRequest = true) ∧
      ((∃ e, result.1 = .error e) ∨
        (result = (.ok none, self.remember b) ∧ Sees self.provider (clock log) b ∧
          reqs = [.request (.blockByNumber (.number b.number))]) ∨
        ∃ a kept, result = (.ok (some a), ⟨self.provider, ⟨kept, self.buffer.capacity⟩⟩) ∧
          Misses self.provider (clock log) b ∧
          Search self.provider self.buffer.inner
            (.request (.blockByNumber (.number b.number)) :: log) a kept (reqs ++ log)) := by
  have hreorg : Misses self.provider (clock log) b → ∃ result reqs,
      (searchBuffer self.provider self.buffer.capacity self.buffer.inner).run
          (.request (.blockByNumber (.number b.number)) :: log) = (some result, reqs ++ log) ∧
        (∀ e ∈ reqs, e.isRequest = true) ∧
        ((∃ e, result.1 = .error e) ∨
          ∃ a kept, result = (.ok (some a), ⟨self.provider, ⟨kept, self.buffer.capacity⟩⟩) ∧
            Misses self.provider (clock log) b ∧
            Search self.provider self.buffer.inner
              (.request (.blockByNumber (.number b.number)) :: log) a kept (reqs ++ log)) := by
    intro hmiss
    obtain ⟨result, reqs, hrun, hreqs, hres⟩ := searchBuffer_cases self.provider
      self.buffer.capacity self.buffer.inner (.request (.blockByNumber (.number b.number)) :: log)
    refine ⟨result, reqs ++ [.request (.blockByNumber (.number b.number))], ?_, ?_, ?_⟩
    · simpa using hrun
    · intro e he
      rcases List.mem_append.mp he with he | he
      · exact hreqs e he
      · obtain rfl := List.mem_singleton.mp he
        rfl
    · rcases hres with herr | ⟨a, kept, hres, hs⟩
      · exact Or.inl herr
      · exact Or.inr ⟨a, kept, hres, hmiss, by simpa using hs⟩
  unfold check reorgDetected getBlockByNumber
  rw [Proc.run_bind_assoc, Proc.run_bind_some (run_call _ _ _ _)]
  cases ha : self.provider.answer (clock log)
      (self.provider.findTag (clock log) (.number b.number)) with
  | ok canonical =>
    obtain ⟨hn, hsees⟩ := answer_number_eq_ok ha
    by_cases heq : canonical.hash = b.hash
    · obtain rfl : canonical = b := by
        cases canonical
        cases b
        simp_all
      exact ⟨_, [_], by simp [Proc.run_bind_pure], by simp, Or.inr (Or.inl ⟨rfl, hsees, rfl⟩)⟩
    · obtain ⟨result, reqs, hrun, hreqs, hres⟩ := hreorg (misses_of_answer_ne ha heq)
      refine ⟨result, reqs, ?_, hreqs, hres.imp_right Or.inr⟩
      simpa [heq] using hrun
  | error e =>
    by_cases he : e = .blockNotFound
    · subst he
      obtain ⟨result, reqs, hrun, hreqs, hres⟩ := hreorg (misses_of_answer_blockNotFound ha)
      exact ⟨result, reqs, hrun, hreqs, hres.imp_right Or.inr⟩
    · cases e <;> first | exact absurd rfl he | exact ⟨_, [_], rfl, by simp, Or.inl ⟨_, rfl⟩⟩

instance : ReorgHandler Hash (DefaultReorgHandler Hash) where
  check := check
  check_quiet self b log := by
    obtain ⟨⟨answer, h'⟩, reqs, hrun, hreqs, -⟩ := self.check_cases b log
    exact ⟨answer, h', reqs, hrun, hreqs⟩

omit [DecidableEq Hash] in
/-- A call that sees a block answers with it. -/
lemma answer_eq_ok_of_sees (h : Sees provider k b) :
    provider.answer k (provider.findTag k (.number b.number)) = .ok b := by
  obtain ⟨hfault, hb⟩ := h
  unfold RobustProvider.answer RobustProvider.findTag
  rw [hfault]
  dsimp only
  rw [(Chain.blockAt_eq_some_iff _ _ b).mpr ⟨rfl, hb⟩]

/-- A check makes a provider call, whatever comes of it. -/
lemma request_suffix_check (self : DefaultReorgHandler Hash) (b : Block Hash) (log : Log Hash) :
    .request (.blockByNumber (.number b.number)) :: log <:+
      ((ReorgHandler.check self b).run log).2 := by
  change _ <:+ ((self.check b).run log).2
  unfold check reorgDetected getBlockByNumber
  rw [Proc.run_bind_assoc, Proc.run_bind_some (run_call _ _ _ _)]
  exact Proc.grows _ _

/-- A block that the first call of a check sees passes the check. -/
lemma run_check_of_sees {self : DefaultReorgHandler Hash} {log : Log Hash}
    (h : Sees self.provider (clock log) b) :
    (ReorgHandler.check self b).run log =
      (some (.ok none, self.remember b), .request (.blockByNumber (.number b.number)) :: log) := by
  change (self.check b).run log = _
  unfold check reorgDetected getBlockByNumber
  rw [Proc.run_bind_assoc, Proc.run_bind_some (run_call _ _ _ _), answer_eq_ok_of_sees h]
  simp

/-! ### The answers, as the callers use them -/

variable {self self' : DefaultReorgHandler Hash} {log reqs : Log Hash}

/-- What the answer "no reorg" means: the block is canonical, and is remembered. -/
lemma check_eq_ok_none
    (h : (ReorgHandler.check self b).run log = (some (.ok none, self'), reqs ++ log)) :
    self' = self.remember b ∧ Sees self.provider (clock log) b ∧
      reqs = [.request (.blockByNumber (.number b.number))] := by
  obtain ⟨result, reqs', hrun, -, hres⟩ := self.check_cases b log
  have heq := h.symm.trans hrun
  simp only [Prod.mk.injEq, Option.some.injEq, List.append_cancel_right_eq] at heq
  obtain ⟨rfl, rfl⟩ := heq
  rcases hres with ⟨e, he⟩ | ⟨hself, hsees, hreqs⟩ | ⟨a, kept, hself, -⟩
  · simp at he
  · exact ⟨(Prod.mk.inj hself).2, hsees, hreqs⟩
  · simp at hself

/-- What an answer with a common ancestor means: the block was replaced, and the ancestor is what
the search finds. -/
lemma check_eq_ok_some {a : Block Hash}
    (h : (ReorgHandler.check self b).run log = (some (.ok (some a), self'), reqs ++ log)) :
    self'.provider = self.provider ∧ Misses self.provider (clock log) b ∧
      Search self.provider self.buffer.inner
        (.request (.blockByNumber (.number b.number)) :: log) a self'.buffer.inner
        (reqs ++ log) := by
  obtain ⟨result, reqs', hrun, -, hres⟩ := self.check_cases b log
  have heq := h.symm.trans hrun
  simp only [Prod.mk.injEq, Option.some.injEq, List.append_cancel_right_eq] at heq
  obtain ⟨rfl, rfl⟩ := heq
  rcases hres with ⟨e, he⟩ | ⟨hself, -⟩ | ⟨a, kept, hself, hmiss, hsearch⟩
  · simp at he
  · simp at hself
  · simp only [Prod.mk.injEq, Except.ok.injEq, Option.some.injEq] at hself
    obtain ⟨rfl, rfl⟩ := hself
    exact ⟨rfl, hmiss, hsearch⟩

end Outcomes

section Search

variable {provider : RobustProvider Hash} {a : Block Hash} {entries kept : List (Block Hash)}
  {log log' : Log Hash}

/-- The search ends with a look at the finalized block `f`. Its answer is either a buffered block
not below `f`, canonical right before that, and the blocks above it are dropped from the
buffer; or it is `f`, and the buffer is emptied. -/
lemma Search.answer (h : Search provider entries log a kept log') :
    clock log < clock log' ∧ ∃ f, SeesFinalized provider (clock log' - 1) f ∧
      ((∃ older, kept = a :: older ∧ kept <:+ entries ∧ f.number ≤ a.number ∧
          clock log + 1 < clock log' ∧ Sees provider (clock log' - 2) a) ∨
        a = f ∧ kept = []) := by
  induction h with
  | skip _ _ ih =>
    obtain ⟨hclock, f, hf, hans⟩ := ih
    rw [clock_request] at hclock
    refine ⟨by omega, f, hf, hans.imp_left ?_⟩
    rintro ⟨older, rfl, hsuffix, hle, hlt, hsees⟩
    rw [clock_request] at hlt
    exact ⟨older, rfl, hsuffix.trans (List.suffix_cons _ _), hle, by omega, hsees⟩
  | @found c older log f hsees hf hle =>
    simp only [clock_request]
    exact ⟨by omega, f, hf, Or.inl ⟨older, rfl, List.suffix_refl _, hle, by omega, hsees⟩⟩
  | tooOld hsees hf hlt =>
    simp only [clock_request]
    exact ⟨by omega, _, hf, Or.inr ⟨rfl, trivial⟩⟩
  | exhausted hf =>
    simp only [clock_request]
    exact ⟨by omega, _, hf, Or.inr ⟨rfl, trivial⟩⟩

end Search

section Remember

variable [DecidableEq Hash] {self : DefaultReorgHandler Hash} {b c : Block Hash}

@[simp] lemma remember_provider (self : DefaultReorgHandler Hash) (b : Block Hash) :
    (self.remember b).provider = self.provider := by
  unfold remember
  split_ifs <;> rfl

@[simp] lemma remember_capacity (self : DefaultReorgHandler Hash) (b : Block Hash) :
    (self.remember b).buffer.capacity = self.buffer.capacity := by
  unfold remember
  split_ifs
  · rfl
  · exact RingBuffer.push_capacity _ _

/-- A remembered block becomes the newest one, if there is room for any, unless its hash already is
the newest one. -/
lemma remember_inner (h : self.buffer.capacity.Admits self.buffer.inner.length) (b : Block Hash) :
    (self.remember b).buffer.inner =
      if self.buffer.inner.head?.map Block.hash = some b.hash then self.buffer.inner
      else self.buffer.capacity.take (b :: self.buffer.inner) := by
  unfold remember RingBuffer.back
  split_ifs
  · rfl
  · exact RingBuffer.push_inner h b

/-- Remembering does not overfill the buffer. -/
lemma admits_remember (h : self.buffer.capacity.Admits self.buffer.inner.length) (b : Block Hash) :
    self.buffer.capacity.Admits (self.remember b).buffer.inner.length := by
  rw [remember_inner h]
  split_ifs
  · exact h
  · exact RingBufferCapacity.admits_take _ _

/-- Behind its remembering a block is the newest one, if there is room for any. -/
lemma back_remember (h : self.buffer.capacity.Admits self.buffer.inner.length)
    (hone : self.buffer.capacity.Admits 1) (b : Block Hash) :
    (self.remember b).buffer.back.map Block.hash = some b.hash := by
  unfold RingBuffer.back
  rw [remember_inner h]
  split_ifs with hsame
  · exact hsame
  · cases hcap : self.buffer.capacity with
    | infinite => rfl
    | limited n =>
      rw [hcap] at hone
      obtain ⟨m, rfl⟩ : ∃ m, n = m + 1 := ⟨n - 1, by have : 1 ≤ n := hone; omega⟩
      rfl

/-- The buffer gains no block but the remembered one. -/
lemma mem_of_mem_remember (h : c ∈ (self.remember b).buffer.inner) :
    c = b ∨ c ∈ self.buffer.inner := by
  unfold remember at h
  split_ifs at h
  · exact Or.inr h
  · exact RingBuffer.mem_of_mem_push h

/-- Remembering keeps the buffer in order, when the block may stand before all others. -/
lemma pairwise_remember {r : Block Hash → Block Hash → Prop} (h : self.buffer.inner.Pairwise r)
    (hb : ∀ x ∈ self.buffer.inner, r b x) : (self.remember b).buffer.inner.Pairwise r := by
  unfold remember
  split_ifs
  · exact h
  · exact RingBuffer.pairwise_push h hb

/-- A check that is answered leaves the handler with its provider. -/
lemma check_provider {self' : DefaultReorgHandler Hash} {answer : Option (Block Hash)}
    {log reqs : Log Hash}
    (h : (ReorgHandler.check self b).run log = (some (.ok answer, self'), reqs ++ log)) :
    self'.provider = self.provider := by
  cases answer with
  | none =>
    obtain ⟨rfl, -⟩ := check_eq_ok_none h
    exact remember_provider self b
  | some a => exact (check_eq_ok_some h).1

/-- A check leaves the capacity of the buffer as it is. -/
lemma check_capacity {self' : DefaultReorgHandler Hash} {answer : Option (Block Hash)}
    {log reqs : Log Hash}
    (h : (ReorgHandler.check self b).run log = (some (.ok answer, self'), reqs ++ log)) :
    self'.buffer.capacity = self.buffer.capacity := by
  obtain ⟨result, reqs', hrun, -, hres⟩ := self.check_cases b log
  have heq := h.symm.trans hrun
  simp only [Prod.mk.injEq, Option.some.injEq, List.append_cancel_right_eq] at heq
  obtain ⟨rfl, rfl⟩ := heq
  rcases hres with ⟨e, he⟩ | ⟨hself, -⟩ | ⟨a, kept, hself, -⟩
  · simp at he
  · rw [(Prod.mk.inj hself).2]
    exact remember_capacity self b
  · rw [(Prod.mk.inj hself).2]

/-- A check does not overfill the buffer. -/
lemma check_admits {self' : DefaultReorgHandler Hash} {answer : Option (Block Hash)}
    {log reqs : Log Hash} (hadmits : self.buffer.capacity.Admits self.buffer.inner.length)
    (h : (ReorgHandler.check self b).run log = (some (.ok answer, self'), reqs ++ log)) :
    self.buffer.capacity.Admits self'.buffer.inner.length := by
  cases answer with
  | none =>
    obtain ⟨rfl, -⟩ := check_eq_ok_none h
    exact admits_remember hadmits b
  | some a =>
    obtain ⟨-, -, hsearch⟩ := check_eq_ok_some h
    obtain ⟨-, -, -, ⟨older, -, hsuffix, -⟩ | ⟨-, hkept⟩⟩ := hsearch.answer
    · exact hadmits.mono hsuffix.length_le
    · rw [hkept]
      exact RingBufferCapacity.admits_zero _

end Remember

end DefaultReorgHandler

end EventScanner
