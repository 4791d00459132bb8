import EventScanner.BlockRangeScanner.ReorgHandler

set_option relaxedAutoImplicit false
set_option autoImplicit false

/-!
# A reorg check on an unchanged chain

While the chain stays the same and no call fails, a check is a function of the chain and the buffer:
the block is on the chain, or the answer is the newest buffered block that is, with the finalized
block as the lower bound and the fallback.

## Main definitions

* `EventScanner.RobustProvider.AnswersFrom` — the calls of a run succeed on one chain.
* `EventScanner.DefaultReorgHandler.ChecksOn` — a check that is answered on one chain.
* `EventScanner.DefaultReorgHandler.commonAncestor` — the answer to a replaced block, and the blocks
  that stay buffered.

## Main results

* `EventScanner.DefaultReorgHandler.ChecksOn.cases` — what such a check does.
* `EventScanner.DefaultReorgHandler.ChecksOn.of_run` — every check on a chain with a finalized block
  is such a check.
-/

namespace EventScanner

open HashChain

variable {Hash : Type} [DecidableEq Hash]

/-- The calls between two logs do not fail, and all of them are answered from the chain. -/
structure RobustProvider.AnswersFrom (provider : RobustProvider Hash) (chain : Chain Hash)
    (log log' : Log Hash) : Prop where
  /-- No call fails. -/
  fault_eq : ∀ k, clock log ≤ k → k < clock log' → provider.fault k = none
  /-- The chain does not change. -/
  view_eq : ∀ k, clock log ≤ k → k < clock log' → provider.view k = chain

section AnswersFrom

variable {provider : RobustProvider Hash} {chain : Chain Hash} {log log₁ log₂ log' : Log Hash}

omit [DecidableEq Hash] in
/-- A part of such a run. -/
lemma RobustProvider.AnswersFrom.mono (h : provider.AnswersFrom chain log log') (hs : log <:+ log₁)
    (hs' : log₂ <:+ log') : provider.AnswersFrom chain log₁ log₂ :=
  have hle := clock_le_of_suffix hs
  have hle' := clock_le_of_suffix hs'
  ⟨fun k hk hlt => h.fault_eq k (hle.trans hk) (hlt.trans_le hle'),
    fun k hk hlt => h.view_eq k (hle.trans hk) (hlt.trans_le hle')⟩

omit [DecidableEq Hash] in
/-- The part of a run behind some of its events. -/
lemma RobustProvider.AnswersFrom.of_suffix (h : provider.AnswersFrom chain log log')
    (hs : log <:+ log₁) : provider.AnswersFrom chain log₁ log' := h.mono hs (List.suffix_refl _)

omit [DecidableEq Hash] in
/-- A call for a block at the start of such a run. -/
lemma RobustProvider.AnswersFrom.run_getBlockByNumber {α : Type} {tag : BlockNumberOrTag}
    {f : Except RobustProviderError (Block Hash) → Proc (Event Hash) α} {res : Option α}
    (h : provider.AnswersFrom chain log log')
    (hrun : (getBlockByNumber provider tag >>= f).run log = (res, log')) :
    (f ((provider.findTag (clock log) tag chain).elim (.error .blockNotFound) .ok)).run
        (.request (.blockByNumber tag) :: log) = (res, log') ∧
      provider.AnswersFrom chain (.request (.blockByNumber tag) :: log) log' := by
  have hsuffix : .request (.blockByNumber tag) :: log <:+ log' := by
    have hgrows : ((getBlockByNumber provider tag).run log).2 <:+ _ := Proc.suffix_run_bind _ f
    rw [hrun] at hgrows
    exact hgrows
  have hlt := clock_le_of_suffix hsuffix
  rw [clock_request] at hlt
  refine ⟨?_, h.of_suffix (List.suffix_cons _ _)⟩
  rw [← hrun]
  conv_rhs => unfold getBlockByNumber
  rw [Proc.run_bind_some (run_call _ _ _ _)]
  unfold RobustProvider.answer
  rw [h.fault_eq _ (Nat.le_refl _) (by omega), h.view_eq _ (Nat.le_refl _) (by omega)]
  cases provider.findTag (clock log) tag chain <;> rfl

end AnswersFrom

namespace DefaultReorgHandler

/-- The check of a block is answered; its calls do not fail, and all of them see the chain. -/
structure ChecksOn (chain : Chain Hash) (h : DefaultReorgHandler Hash) (b : Block Hash)
    (log : Log Hash) (answer : Option (Block Hash)) (h' : DefaultReorgHandler Hash)
    (log' : Log Hash) : Prop where
  /-- The run of the check. -/
  run_eq : (ReorgHandler.check h b).run log = (some (.ok answer, h'), log')
  /-- The chain does not change, and no call fails. -/
  answersFrom : h.provider.AnswersFrom chain log log'

/-- The newest of the buffered blocks that is on the chain, if it is not below the finalized block
`f`, and the blocks up to it; else `f`, and no block. -/
def commonAncestor (chain : Chain Hash) (f : Block Hash) (entries : List (Block Hash)) :
    Block Hash × List (Block Hash) :=
  match entries.dropWhile fun c => decide ¬chain.Canonical c with
  | [] => (f, [])
  | a :: older => if f.number ≤ a.number then (a, a :: older) else (f, [])

section CommonAncestor

variable {chain : Chain Hash} {f a c : Block Hash} {entries entries' older kept : List (Block Hash)}

/-- A block that was replaced is dropped. -/
lemma commonAncestor_cons_of_not (h : ¬chain.Canonical c) :
    commonAncestor chain f (c :: older) = commonAncestor chain f older := by
  unfold commonAncestor
  rw [List.dropWhile_cons_of_pos (by simpa using h)]

/-- The search ends at a block on the chain. -/
lemma commonAncestor_cons_of_canonical (h : chain.Canonical c) :
    commonAncestor chain f (c :: older) =
      if f.number ≤ c.number then (c, c :: older) else (f, []) := by
  unfold commonAncestor
  rw [List.dropWhile_cons_of_neg (by simpa using h)]

/-- On one chain, the search is `commonAncestor`.

**Proof sketch.** Induction on the search; each call sees the chain. -/
lemma Search.eq_commonAncestor {provider : RobustProvider Hash} {log log' : Log Hash}
    (h : Search provider entries log a kept log') (hfrom : provider.AnswersFrom chain log log') :
    ∃ f, chain.finalizedBlock = some f ∧ commonAncestor chain f entries = (a, kept) := by
  induction h with
  | @skip c older log a kept log' hmiss hsearch ih =>
    have hclock := hsearch.answer.1
    rw [clock_request] at hclock
    obtain ⟨f, hf, heq⟩ := ih (hfrom.of_suffix (List.suffix_cons _ _))
    have hgone : ¬chain.Canonical c := by
      rcases hmiss with hfail | ⟨-, hgone⟩
      · rw [hfrom.fault_eq _ (Nat.le_refl _) (by omega)] at hfail
        cases hfail
      · rwa [hfrom.view_eq _ (Nat.le_refl _) (by omega)] at hgone
    exact ⟨f, hf, (commonAncestor_cons_of_not hgone).trans heq⟩
  | @found c older log f hsees hf hle =>
    have hview := hfrom.view_eq
    simp only [clock_request] at hview
    have hcan := hsees.2
    have hfinal := hf.finalizedBlock_eq
    rw [hview _ (Nat.le_refl _) (by omega)] at hcan
    rw [hview _ (by omega) (by omega)] at hfinal
    refine ⟨f, hfinal, ?_⟩
    rw [commonAncestor_cons_of_canonical hcan, if_pos hle]
  | @tooOld c older log f hsees hf hlt =>
    have hview := hfrom.view_eq
    simp only [clock_request] at hview
    have hcan := hsees.2
    have hfinal := hf.finalizedBlock_eq
    rw [hview _ (Nat.le_refl _) (by omega)] at hcan
    rw [hview _ (by omega) (by omega)] at hfinal
    refine ⟨f, hfinal, ?_⟩
    rw [commonAncestor_cons_of_canonical hcan, if_neg (Nat.not_le_of_lt hlt)]
  | @exhausted log f hf =>
    have hview := hfrom.view_eq
    simp only [clock_request] at hview
    have hfinal := hf.finalizedBlock_eq
    rw [hview _ (Nat.le_refl _) (by omega)] at hfinal
    exact ⟨f, hfinal, rfl⟩

/-- The blocks that stay buffered are the oldest ones. -/
lemma commonAncestor_suffix (chain : Chain Hash) (f : Block Hash) (entries : List (Block Hash)) :
    (commonAncestor chain f entries).2 <:+ entries := by
  have hdrop : entries.dropWhile _ <:+ entries :=
    List.dropWhile_suffix fun c => decide ¬chain.Canonical c
  unfold commonAncestor
  split
  · exact List.nil_suffix
  · rename_i heq
    rw [heq] at hdrop
    split_ifs
    · exact hdrop
    · exact List.nil_suffix

end CommonAncestor

section ChecksOn

variable {chain : Chain Hash} {self self' : DefaultReorgHandler Hash} {b : Block Hash}
  {log log' : Log Hash} {answer : Option (Block Hash)}

/-- **What a check on one chain does.** A block on the chain is remembered; for another one, the
buffered blocks are searched. -/
theorem ChecksOn.cases (h : ChecksOn chain self b log answer self' log') :
    (chain.Canonical b ∧ answer = none ∧ self' = self.remember b) ∨
      ¬chain.Canonical b ∧ self'.provider = self.provider ∧
        self'.buffer.capacity = self.buffer.capacity ∧
        ∃ f a, chain.finalizedBlock = some f ∧ answer = some a ∧
          commonAncestor chain f self.buffer.inner = (a, self'.buffer.inner) := by
  obtain ⟨hrun, hfrom⟩ := h
  obtain ⟨_, _, reqs, hquiet, -⟩ := ReorgHandler.check_quiet self b log
  obtain rfl : log' = reqs ++ log := congrArg Prod.snd (hrun.symm.trans hquiet)
  cases answer with
  | none =>
    obtain ⟨rfl, hsees, rfl⟩ := DefaultReorgHandler.check_eq_ok_none hrun
    have hcan := hsees.2
    rw [hfrom.view_eq _ (Nat.le_refl _) (by simp)] at hcan
    exact Or.inl ⟨hcan, rfl, rfl⟩
  | some a =>
    obtain ⟨hprov, hmiss, hsearch⟩ := DefaultReorgHandler.check_eq_ok_some hrun
    have hclock := hsearch.answer.1
    rw [clock_request] at hclock
    obtain ⟨f, hf, heq⟩ := hsearch.eq_commonAncestor
      (hfrom.of_suffix (List.suffix_cons _ _))
    refine Or.inr ⟨?_, hprov, check_capacity hrun, f, a, hf, rfl, heq⟩
    rcases hmiss with hfail | ⟨-, hgone⟩
    · rw [hfrom.fault_eq _ (Nat.le_refl _) (by omega)] at hfail
      cases hfail
    · rwa [hfrom.view_eq _ (Nat.le_refl _) (by omega)] at hgone

end ChecksOn

section Answered

variable {provider : RobustProvider Hash} {chain : Chain Hash}
  {self self' : DefaultReorgHandler Hash} {log log' : Log Hash}
  {r : Except ScannerError (Option (Block Hash))}

omit [DecidableEq Hash] in
/-- On a chain with a finalized block the last step of the search is answered. -/
lemma returnCommonAncestor_answered {a : Block Hash} (hf : chain.finalizedBlock.isSome)
    (hfrom : self.provider.AnswersFrom chain log log')
    (hrun : (self.returnCommonAncestor a).run log = (some (r, self'), log')) :
    ∃ answer, r = .ok answer := by
  obtain ⟨f, hf⟩ := Option.isSome_iff_exists.mp hf
  have hfind : self.provider.findTag (clock log) .finalized chain = some f := hf
  obtain ⟨hrun, -⟩ := hfrom.run_getBlockByNumber hrun
  rw [hfind] at hrun
  dsimp only [Option.elim_some] at hrun
  split_ifs at hrun <;> cases hrun <;> exact ⟨_, rfl⟩

/-- On a chain with a finalized block the search is answered.

**Proof sketch.** Induction on the buffered blocks. The search itself deals with blocks that are
not found. -/
lemma searchBuffer_answered {capacity : RingBufferCapacity} {entries : List (Block Hash)}
    (hf : chain.finalizedBlock.isSome) (hfrom : provider.AnswersFrom chain log log')
    (hrun : (searchBuffer provider capacity entries).run log = (some (r, self'), log')) :
    ∃ answer, r = .ok answer := by
  induction entries generalizing log with
  | nil =>
    obtain ⟨f, hf⟩ := Option.isSome_iff_exists.mp hf
    have hfind : provider.findTag (clock log) .finalized chain = some f := hf
    obtain ⟨hrun, -⟩ := hfrom.run_getBlockByNumber hrun
    rw [hfind] at hrun
    cases hrun
    exact ⟨_, rfl⟩
  | cons c older ih =>
    obtain ⟨hrun, hfrom'⟩ := hfrom.run_getBlockByNumber hrun
    cases hfind : provider.findTag (clock log) (.number c.number) chain with
    | none =>
      rw [hfind] at hrun
      exact ih hfrom' hrun
    | some canonical =>
      rw [hfind] at hrun
      dsimp only [Option.elim_some] at hrun
      split_ifs at hrun
      · exact returnCommonAncestor_answered hf hfrom' hrun
      · exact ih hfrom' hrun

/-- **A check on one chain is answered**, when the chain has a finalized block: no other call can
fail. -/
theorem ChecksOn.of_run {b : Block Hash} (hf : chain.finalizedBlock.isSome)
    (hfrom : self.provider.AnswersFrom chain log log')
    (hrun : (ReorgHandler.check self b).run log = (some (r, self'), log')) :
    ∃ answer, ChecksOn chain self b log answer self' log' := by
  suffices h : ∃ answer, r = .ok answer by
    obtain ⟨answer, rfl⟩ := h
    exact ⟨answer, hrun, hfrom⟩
  change (self.check b).run log = _ at hrun
  unfold check reorgDetected at hrun
  rw [Proc.run_bind_assoc] at hrun
  obtain ⟨hrun, hfrom'⟩ := hfrom.run_getBlockByNumber hrun
  cases hfind : self.provider.findTag (clock log) (.number b.number) chain with
  | none =>
    rw [hfind] at hrun
    simp only [Option.elim_none, Proc.run_bind_pure] at hrun
    exact searchBuffer_answered hf hfrom' hrun
  | some canonical =>
    rw [hfind] at hrun
    simp only [Option.elim_some, Proc.run_bind_pure] at hrun
    by_cases hsame : canonical.hash = b.hash
    · simp only [hsame, ne_eq, not_true_eq_false, decide_false] at hrun
      cases hrun
      exact ⟨_, rfl⟩
    · simp only [hsame, ne_eq, not_false_eq_true, decide_true] at hrun
      exact searchBuffer_answered hf hfrom' hrun

end Answered

end DefaultReorgHandler

end EventScanner
