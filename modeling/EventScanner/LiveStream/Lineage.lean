import EventScanner.LiveStream.Cursor

set_option relaxedAutoImplicit false
set_option autoImplicit false

/-!
# The lineage of the live stream

The live stream remembers one block, the last one it checked, and relies on it for all blocks it
has sent: they should all lie on the chain of that block. This file has the invariant that says
so, and the two conditions on the chain under which it is kept: the stream sends nothing on a
chain that has lost the remembered block, and the finalized block, when a check falls back to
it, lies on the chain of the checked block.

## Main definitions

* `EventScanner.LiveConfig.StreamsOnVouched`, `EventScanner.LiveConfig.FinalizedOnCheckedChain` —
  the two conditions.
* `EventScanner.Standing` — a block was sent, and no reorg reported since withdraws it.
* `EventScanner.LiveConfig.LineageAt`, `EventScanner.LiveConfig.Lineage` — the invariant.

## Main results

* `EventScanner.LiveConfig.lineage_step` — one step keeps the invariant.
-/

namespace EventScanner

open HashChain EventLog

variable {Hash : Type}

/-! ### Standing blocks -/

/-- The block `n` was sent when the log was `before`, and no reorg reported since withdraws it. -/
def Standing (log : Log Hash) (n : ℕ) (before : Log Hash) : Prop :=
  ∃ news r, log = news ++ .sent (dataItem r) :: before ∧ r.Contains n ∧
    ∀ a, .sent (reorgItem a) ∈ news → n ≤ a

/-- What an event does to the standing blocks: a range adds its blocks, a reorg withdraws the
blocks above the ancestor. -/
lemma standing_cons_iff {e : Event Hash} {log before : Log Hash} {n : ℕ} :
    Standing (e :: log) n before ↔
      (∃ r, e = .sent (dataItem r) ∧ r.Contains n ∧ before = log) ∨
        Standing log n before ∧ ∀ a, e = .sent (reorgItem a) → n ≤ a := by
  constructor
  · rintro ⟨news, r, heq, hn, ha⟩
    cases news with
    | nil =>
      obtain ⟨rfl, rfl⟩ := List.cons.inj heq
      exact Or.inl ⟨r, rfl, hn, rfl⟩
    | cons e' news =>
      obtain ⟨rfl, rfl⟩ := List.cons.inj heq
      refine Or.inr ⟨⟨news, r, rfl, hn, fun a h => ha a (List.mem_cons_of_mem _ h)⟩, ?_⟩
      rintro a rfl
      exact ha a List.mem_cons_self
  · rintro (⟨r, rfl, hn, rfl⟩ | ⟨⟨news, r, rfl, hn, ha⟩, he⟩)
    · exact ⟨[], r, rfl, hn, by simp⟩
    · refine ⟨e :: news, r, rfl, hn, ?_⟩
      intro a h
      rcases List.mem_cons.mp h with h | h
      · exact he a h.symm
      · exact ha a h

lemma not_standing_nil {before : Log Hash} {n : ℕ} : ¬Standing [] n before := by
  rintro ⟨news, r, heq, -⟩
  simp at heq

/-- A silent event adds no standing blocks. -/
lemma Standing.of_cons {e : Event Hash} {log before : Log Hash} {n : ℕ} (he : e.Silent)
    (h : Standing (e :: log) n before) : Standing log n before := by
  rcases standing_cons_iff.mp h with ⟨r, rfl, -⟩ | ⟨h, -⟩
  · exact absurd he id
  · exact h

/-- Silent events add no standing blocks. -/
lemma Standing.of_append {new log before : Log Hash} {n : ℕ} (hnew : SilentLog new)
    (h : Standing (new ++ log) n before) : Standing log n before := by
  induction new with
  | nil => exact h
  | cons e new ih =>
    obtain ⟨he, hnew⟩ := silentLog_cons.mp hnew
    exact ih hnew (h.of_cons he)

namespace LiveConfig

variable (cfg : LiveConfig Hash)

/-! ### The conditions -/

/-- When a range is sent, the block that was vouched for is still canonical. -/
def StreamsOnVouched : Event Hash → Log Hash → Prop
  | .sent (.ok (.data _)), past => ∀ v ∈ lastVouched past, (cfg.provider.current past).Canonical v
  | _, _ => True

/-- When a check finds a block replaced, the finalized block of that moment lies on the chain of
the checked block. -/
def FinalizedOnCheckedChain : Event Hash → Log Hash → Prop
  | .checked b (some _), past =>
    ∀ f ∈ (cfg.provider.current past).finalizedBlock, IsAncestor cfg.provider.view f b
  | _, _ => True

instance [DecidableEq Hash] (e : Event Hash) (past : Log Hash) :
    Decidable (cfg.StreamsOnVouched e past) :=
  match e with
  | .sent (.ok (.data _)) =>
    inferInstanceAs (Decidable (∀ v ∈ lastVouched past, (cfg.provider.current past).Canonical v))
  | .sent (.ok (.notification _)) | .sent (.error _) | .request _ | .received _ | .checked _ _ =>
    .isTrue trivial

instance [∀ a b, Decidable (IsAncestor cfg.provider.view a b)] (e : Event Hash)
    (past : Log Hash) : Decidable (cfg.FinalizedOnCheckedChain e past) :=
  match e with
  | .checked b (some _) =>
    inferInstanceAs (Decidable (∀ f ∈ (cfg.provider.current past).finalizedBlock,
      IsAncestor cfg.provider.view f b))
  | .checked _ none | .sent _ | .request _ | .received _ => .isTrue trivial

/-! ### The invariant -/

/-- All standing blocks lie on the chain of `tip`, as they were when they were sent. -/
def Backed (tip : Option (Block Hash)) (log : Log Hash) : Prop :=
  ∀ n before, Standing log n before → ∃ v ∈ tip, ∃ hash,
    (cfg.provider.current before).hashAt n = some hash ∧ IsAncestor cfg.provider.view ⟨n, hash⟩ v

/-- What is streamed and buffered lies on the chain of `tip`. -/
structure LineageAt (h : DefaultReorgHandler Hash) (log : Log Hash)
    (tip : Option (Block Hash)) : Prop where
  /-- The handler and the stream share the provider. -/
  provider_eq : h.provider = cfg.provider
  /-- The buffered blocks are on one chain. -/
  pairwise : h.buffer.inner.Pairwise fun newer older => IsAncestor cfg.provider.view older newer
  /-- The buffered blocks are on the chain of the tip. -/
  buffer : ∀ c ∈ h.buffer.inner, ∃ v ∈ tip, IsAncestor cfg.provider.view c v
  /-- So are the standing blocks. -/
  backed : cfg.Backed tip log

/-- The invariant: everything lies on the chain of the block the stream remembers. -/
def Lineage (s : LiveState Hash (DefaultReorgHandler Hash)) : Prop :=
  match s.phase with
  | .starting => lastVouched s.log = none ∧ cfg.LineageAt s.handler s.log none
  | .streaming (.ready iter last) _ =>
    cfg.LineageAt s.handler s.log (lastVouched s.log) ∧
      (∀ v ∈ lastVouched s.log, v.number < iter.current) ∧
      ∀ b ∈ last, ∃ v ∈ lastVouched s.log, v = b ∨
        IsAncestor cfg.provider.view v b ∧
          iter.current = max (v.number + 1) cfg.minCommonAncestor
  | .streaming (.sent _ b) _ => cfg.LineageAt s.handler s.log (some b)
  | .waiting ⟨_, some b⟩ =>
    lastVouched s.log = some b ∧ cfg.LineageAt s.handler s.log (some b)
  | .waiting ⟨_, none⟩ | .stopped => True

section Backed

variable {cfg} {tip : Option (Block Hash)} {log new : Log Hash} {b v a : Block Hash}
  {r : RangeInclusive}

/-- Silent events change nothing. -/
lemma Backed.append (h : cfg.Backed tip log) (hnew : SilentLog new) :
    cfg.Backed tip (new ++ log) :=
  fun n before hs => h n before (hs.of_append hnew)

/-- The tip may move up on its own chain. -/
lemma Backed.trans (hl : Linked cfg.provider.view) (h : cfg.Backed tip log)
    (hb : ∀ v ∈ tip, IsAncestor cfg.provider.view v b) : cfg.Backed (some b) log := by
  intro n before hs
  obtain ⟨v, hv, hash, hhash, hanc⟩ := h n before hs
  exact ⟨b, rfl, hash, hhash, hanc.trans hl (hb v hv)⟩

/-- A range read from a chain with its last block `b` is backed by `b`. -/
lemma Backed.emit (h : cfg.Backed (some b) log) (hnum : b.number = r.stop)
    (hb : (cfg.provider.current log).Canonical b) :
    cfg.Backed (some b) (.sent (dataItem r) :: log) := by
  intro n before hs
  rcases standing_cons_iff.mp hs with ⟨r', heq, hn, rfl⟩ | ⟨hs, -⟩
  · obtain rfl : r = r' := by simpa using heq
    have hle : n ≤ b.number := hnum ▸ hn.2
    obtain ⟨hash, hhash⟩ := hb.exists_hashAt hle
    exact ⟨b, rfl, hash, hhash, isAncestor_of_canonical hhash hb hle⟩
  · exact h n before hs

/-- A reorg withdraws the blocks above the ancestor; the others are backed by it. -/
lemma Backed.reorg (hl : Linked cfg.provider.view) (h : cfg.Backed (some b) log)
    (ha : IsAncestor cfg.provider.view a b) :
    cfg.Backed (some a) (.sent (reorgItem a.number) :: log) := by
  intro n before hs
  rcases standing_cons_iff.mp hs with ⟨r, heq, -⟩ | ⟨hs, hle⟩
  · simp at heq
  · obtain ⟨v, hv, hash, hhash, hanc⟩ := h n before hs
    obtain rfl : b = v := by simpa using hv
    exact ⟨a, rfl, hash, hhash, hanc.of_number_le hl ha (hle a.number rfl)⟩

end Backed

section Checks

variable {cfg} {h h' : DefaultReorgHandler Hash} {log reqs new : Log Hash} {b a : Block Hash}
  {tip : Option (Block Hash)} {r : RangeInclusive}

lemma LineageAt.append (hI : cfg.LineageAt h log tip) (hnew : SilentLog new) :
    cfg.LineageAt h (new ++ log) tip :=
  ⟨hI.provider_eq, hI.pairwise, hI.buffer, hI.backed.append hnew⟩

lemma LineageAt.cons {e : Event Hash} (hI : cfg.LineageAt h log tip) (he : e.Silent) :
    cfg.LineageAt h (e :: log) tip :=
  hI.append (silentLog_cons.mpr ⟨he, silentLog_nil⟩)

/-- A range that is sent on a chain with the old tip makes its last block the new tip. -/
lemma LineageAt.emit (hl : Linked cfg.provider.view) (hI : cfg.LineageAt h log tip)
    (hnum : b.number = r.stop) (hb : (cfg.provider.current log).Canonical b)
    (htip : ∀ v ∈ tip, (cfg.provider.current log).Canonical v ∧ v.number ≤ b.number) :
    cfg.LineageAt h (.sent (dataItem r) :: log) (some b) := by
  have hanc : ∀ v ∈ tip, IsAncestor cfg.provider.view v b := by
    intro v hv
    obtain ⟨hcan, hle⟩ := htip v hv
    exact isAncestor_of_canonical hcan hb hle
  refine ⟨hI.provider_eq, hI.pairwise, ?_, (hI.backed.trans hl hanc).emit hnum hb⟩
  intro c hc
  obtain ⟨v, hv, hcv⟩ := hI.buffer c hc
  exact ⟨b, rfl, hcv.trans hl (hanc v hv)⟩

variable [DecidableEq Hash]

/-- A check without a reorg keeps the lineage; the checked block was canonical at its call. -/
lemma LineageAt.clean (hI : cfg.LineageAt h log (some b))
    (hcheck : (ReorgHandler.check h b).run log = (some (.ok none, h'), reqs ++ log))
    (hreqs : ∀ e ∈ reqs, e.isRequest = true) :
    cfg.LineageAt h' (.checked b none :: (reqs ++ log)) (some b) ∧
      ∃ k, clock log ≤ k ∧ k < clock (reqs ++ log) ∧ (cfg.provider.view k).Canonical b := by
  obtain ⟨rfl, ⟨-, hsees⟩, hrun⟩ := DefaultReorgHandler.check_eq_ok_none hcheck
  rw [hI.provider_eq] at hsees
  have hself : IsAncestor cfg.provider.view b b :=
    isAncestor_of_canonical hsees hsees (Nat.le_refl _)
  have hbuf : ∀ c ∈ h.buffer.inner, IsAncestor cfg.provider.view c b := by
    intro c hc
    obtain ⟨v, hv, hcv⟩ := hI.buffer c hc
    obtain rfl : b = v := by simpa using hv
    exact hcv
  refine ⟨⟨?_, DefaultReorgHandler.pairwise_remember hI.pairwise hbuf, ?_, ?_⟩,
    clock log, Nat.le_refl _, by simp [hrun], hsees⟩
  · rw [DefaultReorgHandler.remember_provider, hI.provider_eq]
  · intro c hc
    rcases DefaultReorgHandler.mem_of_mem_remember hc with rfl | hc
    · exact ⟨c, rfl, hself⟩
    · exact ⟨b, rfl, hbuf c hc⟩
  · have hsilent : SilentLog (.checked b none :: reqs) := by
      simp [silentLog_of_isRequest hreqs]
    exact hI.backed.append hsilent

/-- A check that reports a reorg reports an ancestor of the checked block, which was canonical at
one of its calls, and leaves the lineage of that ancestor. -/
lemma LineageAt.reorg (hl : Linked cfg.provider.view) (hI : cfg.LineageAt h log (some b))
    (hcheck : (ReorgHandler.check h b).run log = (some (.ok (some a), h'), reqs ++ log))
    (hreqs : ∀ e ∈ reqs, e.isRequest = true)
    (hF : (cfg.provider.current (reqs ++ log)).finalizedBlock = some a →
      IsAncestor cfg.provider.view a b) :
    IsAncestor cfg.provider.view a b ∧
      cfg.LineageAt h' (.sent (reorgItem a.number) :: .checked b (some a) :: (reqs ++ log))
        (some a) ∧
      ∃ k, clock log ≤ k ∧ k < clock (reqs ++ log) ∧ (cfg.provider.view k).Canonical a := by
  obtain ⟨hprov, -, hsearch⟩ := DefaultReorgHandler.check_eq_ok_some hcheck
  have hbuf : ∀ c ∈ h.buffer.inner, IsAncestor cfg.provider.view c b := by
    intro c hc
    obtain ⟨v, hv, hcv⟩ := hI.buffer c hc
    obtain rfl : b = v := by simpa using hv
    exact hcv
  obtain ⟨hclock, f, hf, hans⟩ := hsearch.answer
  rw [hI.provider_eq] at hf hans
  rw [clock_request] at hclock hans
  have hanc : IsAncestor cfg.provider.view a b := by
    rcases hans with ⟨older, hkept, hsuffix, -⟩ | ⟨rfl, -⟩
    · refine hbuf a (hsuffix.subset ?_)
      rw [hkept]
      exact List.mem_cons_self
    · exact hF hf.finalizedBlock_eq
  have hsilent : SilentLog (.checked b (some a) :: reqs) := by
    simp [silentLog_of_isRequest hreqs]
  have hbacked := (hI.backed.append hsilent).reorg hl hanc
  refine ⟨hanc, ⟨hprov.trans hI.provider_eq, ?_, ?_, hbacked⟩, ?_⟩
  · rcases hans with ⟨older, hkept, hsuffix, -⟩ | ⟨-, hkept⟩
    · exact hI.pairwise.sublist hsuffix.sublist
    · rw [hkept]
      exact List.Pairwise.nil
  · intro c hc
    rcases hans with ⟨older, hkept, hsuffix, -, -, -, hsees⟩ | ⟨-, hkept⟩
    · have hpw := hI.pairwise.sublist hsuffix.sublist
      rw [hkept] at hpw hc
      rcases List.mem_cons.mp hc with rfl | hc
      · exact ⟨c, rfl, isAncestor_of_canonical hsees hsees (Nat.le_refl _)⟩
      · exact ⟨a, rfl, (List.pairwise_cons.mp hpw).1 c hc⟩
    · rw [hkept] at hc
      simp at hc
  · rcases hans with ⟨older, -, -, -, hlt, hsees⟩ | ⟨rfl, -⟩
    · exact ⟨_, by omega, by omega, hsees.2⟩
    · exact ⟨_, by omega, by omega, hf.2.1⟩

end Checks

section Steps

variable {cfg} {h : DefaultReorgHandler Hash} {log : Log Hash} {n : ℕ}

/-- What is streamed for a header keeps the lineage of the previous batch end. -/
lemma lineage_proceed {batchStart : ℕ} {b : Block Hash} (hI : cfg.LineageAt h log (some b))
    (hb : lastVouched log = some b) (hlt : b.number < batchStart) :
    cfg.Lineage ⟨cfg.proceed n ⟨batchStart, some b⟩, h, log⟩ := by
  unfold proceed
  split_ifs
  · exact ⟨hb, hI⟩
  · refine ⟨hb.symm ▸ hI, ?_, by simp⟩
    intro v hv
    obtain rfl : b = v := by simpa [hb] using hv
    exact hlt

/-- What is streamed behind a reorg found by the main loop keeps the lineage of the ancestor. -/
lemma lineage_afterReorg {a : Block Hash} (hI : cfg.LineageAt h log (some a))
    (ha : lastVouched log = some a) :
    cfg.Lineage ⟨cfg.proceed n (cfg.afterReorg a), h, log⟩ := by
  unfold afterReorg
  split_ifs with hlt
  · unfold proceed
    split_ifs
    · trivial
    · refine ⟨ha.symm ▸ hI, ?_, by simp⟩
      intro v hv
      obtain rfl : a = v := by simpa [ha] using hv
      exact hlt
  · exact lineage_proceed hI ha (Nat.lt_succ_self _)

variable [DecidableEq Hash] {s t : LiveState Hash (DefaultReorgHandler Hash)}

/-- **One step keeps the lineage.**

**Proof sketch.** By cases on the step. A range is sent on a chain that still has the remembered
block, so its last block descends from it. A clean check keeps the tip, and a reorg moves it
back to an ancestor, while the blocks above the ancestor are withdrawn. When the batch loop
ends right behind a reorg, the ancestor is the checked block itself, since the cursor has
passed the end of the range. -/
lemma lineage_step (hl : Linked cfg.provider.view) (hst : LiveStep cfg s t)
    (hW : Always cfg.StreamsOnVouched t.log) (hF : Always cfg.FinalizedOnCheckedChain t.log)
    (hcut : cfg.Cutting s) (hI : cfg.Lineage s) : cfg.Lineage t := by
  cases hst with
  | @first n h log notice hrel hnotice =>
    obtain ⟨hvouched, hI⟩ := hI
    dsimp only at hvouched hI
    have hsilent : SilentLog (notice ++ [.received (.ok n)]) := by
      rcases hnotice with rfl | rfl <;> simp
    have hvouched' : lastVouched (notice ++ .received (.ok n) :: log) = none := by
      rcases hnotice with rfl | rfl <;> simp [hvouched]
    have hI' := hI.append hsilent
    rw [List.append_assoc, List.singleton_append] at hI'
    exact ⟨hvouched'.symm ▸ hI', by simp [hvouched'], by simp⟩
  | batch hb =>
    cases hb with
    | @emit iter iter' last _ log batch b hnext hnum hsees =>
      obtain ⟨hI, hcur, -⟩ := hI
      obtain ⟨hstart, hle, -⟩ := hcut.1.next hnext
      have hrequest : (.request (.blockByNumber (.number batch.stop)) : Event Hash).Silent :=
        trivial
      refine (hI.cons hrequest).emit hl hnum ?_ ?_
      · rw [RobustProvider.current, clock_request]
        exact hsees.2
      · intro v hv
        refine ⟨hW.1 v hv, ?_⟩
        have hlt := hcur v hv
        omega
    | clean hcheck hreqs =>
      obtain ⟨hI', -⟩ := LineageAt.clean hI hcheck hreqs
      refine ⟨hI', ?_, ?_⟩
      · rintro v ⟨⟩
        have := hcut.2.2.2.1
        omega
      · rintro b ⟨⟩
        exact ⟨_, rfl, Or.inl rfl⟩
    | reorg hcheck hreqs =>
      obtain ⟨hanc, hI', -⟩ := LineageAt.reorg hl hI hcheck hreqs (hF.2.1 _)
      refine ⟨hI', ?_, ?_⟩
      · rintro v ⟨⟩
        rw [RangeIterator.resetTo_current]
        omega
      · rintro b ⟨⟩
        exact ⟨_, rfl, Or.inr ⟨hanc, rfl⟩⟩
  | @batchesDone iter b resume h log hnext =>
    obtain ⟨hI, -, hlast⟩ := hI
    obtain ⟨v, hv, heq⟩ := hlast b rfl
    have hvb : v = b := by
      rcases heq with rfl | ⟨hanc, hcur⟩
      · rfl
      · have hstop := (hcut.1.wf.next_eq_none).mp hnext
        have hstart := hcut.1.start_le_stop
        have hb := (hcut.2 b rfl).2
        unfold minCommonAncestor at hcur
        exact hanc.eq_of_le (by omega)
    subst hvb
    dsimp only at hv hI
    rw [Option.mem_def] at hv
    rw [hv] at hI
    exact ⟨hv, hI⟩
  | @lagged state _ _ _ =>
    obtain ⟨batchStart, _ | b⟩ := state
    · trivial
    · exact ⟨hI.1, hI.2.cons (Event.silent_received _)⟩
  | ignored => trivial
  | header hh =>
    cases hh with
    | clean hcheck hreqs =>
      obtain ⟨hI', -⟩ := (hI.2.cons (Event.silent_received _)).clean hcheck hreqs
      exact lineage_proceed hI' rfl (Nat.lt_succ_self _)
    | reorg hcheck hreqs =>
      obtain ⟨-, hI', -⟩ := (hI.2.cons (Event.silent_received _)).reorg hl hcheck hreqs (hF.2.1 _)
      exact lineage_afterReorg hI' rfl
  | stop hextra => trivial

end Steps

end LiveConfig

end EventScanner
