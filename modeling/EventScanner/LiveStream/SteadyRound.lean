import EventScanner.LiveStream.Lineage

set_option relaxedAutoImplicit false
set_option autoImplicit false

/-!
# A round of the live stream on one chain

While the chain does not change, whatever the live stream sends, checks and remembers is on that
chain. A round that begins with the check of a remembered block therefore leaves nothing standing
that is not, if the checks fall back to a finalized block only where it lies on the chain of the
checked block.

## Main definitions

* `EventScanner.RobustProvider.ShowsOnly` — the chain does not change between two moments.
* `EventScanner.QuietSince` — no reorg was reported while the chain was the same.
* `EventScanner.FallbackOnCheckedChain` — the condition on the finalized block.
* `EventScanner.LiveConfig.OnChain`, `EventScanner.LiveConfig.Steady` — the invariant of a round.

## Main results

* `EventScanner.LiveConfig.steady_header` — the check at the beginning of a round.
* `EventScanner.LiveConfig.steady_step` — every step keeps the invariant.
* `EventScanner.LiveConfig.steady_of_iteration`,
  `EventScanner.LiveConfig.steady_of_firstRound` — what a round leaves behind.
* `EventScanner.LiveConfig.quiet_of_firstRound` — the first round reports no reorg.
-/

namespace EventScanner

open HashChain EventLog

variable {Hash : Type}

/-- All calls between two moments see the hashes of one chain. -/
def RobustProvider.ShowsOnly (provider : RobustProvider Hash) (chain : Chain Hash)
    (log log' : Log Hash) : Prop :=
  ∀ k, clock log ≤ k → k < clock log' → (provider.view k).hashes = chain.hashes

/-- A check that finds its block replaced and answers with the finalized block answers with an
ancestor of the checked block. -/
def FallbackOnCheckedChain (provider : RobustProvider Hash) : Event Hash → Log Hash → Prop
  | .checked b (some a), past =>
    (provider.current past).finalizedBlock = some a → IsAncestor provider.view a b
  | _, _ => True

instance [DecidableEq Hash] (provider : RobustProvider Hash)
    [∀ a b, Decidable (IsAncestor provider.view a b)] (e : Event Hash) (past : Log Hash) :
    Decidable (FallbackOnCheckedChain provider e past) :=
  match e with
  | .checked b (some a) => inferInstanceAs (Decidable
      ((provider.current past).finalizedBlock = some a → IsAncestor provider.view a b))
  | .checked _ none | .sent _ | .request _ | .received _ => .isTrue trivial

lemma RobustProvider.ShowsOnly.mono {provider : RobustProvider Hash} {chain : Chain Hash}
    {log₁ log₂ log₃ log₄ : Log Hash} (h : provider.ShowsOnly chain log₁ log₄) (h₁ : log₁ <:+ log₂)
    (h₂ : log₃ <:+ log₄) : provider.ShowsOnly chain log₂ log₃ :=
  fun k hk hlt => h k ((clock_le_of_suffix h₁).trans hk) (hlt.trans_le (clock_le_of_suffix h₂))

/-- Before the only change of its history a node shows the first chain. -/
lemma RobustProvider.showsOnly_before {k : ℕ} {c c' : Chain Hash} {log log' : Log Hash}
    (h : clock log' ≤ k) : (healthy (switchAt k c c')).ShowsOnly c log log' := by
  intro i _ hi
  have hview : switchAt k c c' i = c := if_pos (hi.trans_le h)
  exact congrArg Chain.hashes hview

/-- From the change on it shows the second chain. -/
lemma RobustProvider.showsOnly_behind {k : ℕ} {c c' : Chain Hash} {log log' : Log Hash}
    (h : k ≤ clock log) : (healthy (switchAt k c c')).ShowsOnly c' log log' :=
  fun _ hi _ => congrArg Chain.hashes (switchAt_of_le (h.trans hi) c c')

/-! ### Reports on one chain -/

/-- Since `log₀` no reorg was reported, if the chain was `chain` all the time. -/
structure QuietSince (provider : RobustProvider Hash) (chain : Chain Hash) (log₀ log : Log Hash) :
    Prop where
  /-- The log has grown. -/
  grows : log₀ <:+ log
  /-- No reorg was reported. -/
  quiet : provider.ShowsOnly chain log₀ log →
    ∀ news a, log = news ++ log₀ → .sent (reorgItem a) ∉ news

section QuietSince

variable {provider : RobustProvider Hash} {chain : Chain Hash} {log₀ log : Log Hash}

lemma quietSince_refl : QuietSince provider chain log log := by
  refine ⟨List.suffix_refl _, fun _ news a heq => ?_⟩
  obtain rfl : news = [] := List.self_eq_append_left.mp heq
  exact List.not_mem_nil

/-- An event that is no reorg, or that comes when the chain has not been the same. -/
lemma QuietSince.cons {e : Event Hash} (h : QuietSince provider chain log₀ log)
    (he : provider.ShowsOnly chain log₀ log → ∀ a, e ≠ .sent (reorgItem a)) :
    QuietSince provider chain log₀ (e :: log) := by
  refine ⟨h.grows.trans (List.suffix_cons _ _), fun hview news a heq hmem => ?_⟩
  have hview' := hview.mono (List.suffix_refl _) (List.suffix_cons e log)
  cases news with
  | nil => exact absurd hmem List.not_mem_nil
  | cons e' news =>
    obtain ⟨rfl, rfl⟩ := List.cons.inj heq
    rcases List.mem_cons.mp hmem with heq | hmem
    · exact he hview' a heq.symm
    · exact h.quiet hview' news a rfl hmem

/-- Silent events are no reorgs. -/
lemma QuietSince.append {new : Log Hash} (h : QuietSince provider chain log₀ log)
    (hnew : SilentLog new) : QuietSince provider chain log₀ (new ++ log) := by
  induction new with
  | nil => exact h
  | cons e new ih =>
    obtain ⟨he, hnew⟩ := silentLog_cons.mp hnew
    refine (ih hnew).cons fun _ a => ?_
    rintro rfl
    exact he

/-- The call that is made next sees the chain. -/
lemma QuietSince.canonical {b : Block Hash} {r : Request Hash}
    (h : QuietSince provider chain log₀ log) (hb : (provider.view (clock log)).Canonical b)
    (hview : provider.ShowsOnly chain log₀ (.request r :: log)) : chain.Canonical b := by
  have hsame := hview (clock log) (clock_le_of_suffix h.grows) (by simp)
  unfold Chain.Canonical Chain.hashAt at hb ⊢
  rwa [← hsame]

end QuietSince

namespace LiveConfig

variable (cfg : LiveConfig Hash)

/-- The block was seen on the chain. -/
def SeenOn (chain : Chain Hash) (b : Block Hash) : Prop :=
  ∃ k, (cfg.provider.view k).hashes = chain.hashes ∧ (cfg.provider.view k).Canonical b

/-- What is buffered and what stands is on the chain, below the block `k`. -/
structure OnChain (chain : Chain Hash) (k : ℕ) (h : DefaultReorgHandler Hash) (log : Log Hash) :
    Prop where
  /-- The handler and the stream share the provider. -/
  provider_eq : h.provider = cfg.provider
  /-- The buffered blocks. -/
  buffered : ∀ c ∈ h.buffer.inner, chain.Canonical c ∧ c.number < k
  /-- Newer blocks of the buffer are not below older ones. -/
  descending : h.buffer.inner.Pairwise fun newer older => older.number ≤ newer.number
  /-- The standing blocks are as they were when they were sent. -/
  standing : ∀ n before, Standing log n before →
    n < k ∧ chain.hashAt n = (cfg.provider.current before).hashAt n

/-- The invariant of a round: everything is on the chain, and so is what the stream remembers. -/
def Steady (chain : Chain Hash) (s : LiveState Hash (DefaultReorgHandler Hash)) : Prop :=
  match s.phase with
  | .starting => cfg.OnChain chain cfg.streamStart s.handler s.log
  | .streaming (.ready iter last) _ =>
    cfg.OnChain chain iter.current s.handler s.log ∧
      ∀ b ∈ last, cfg.SeenOn chain b ∧ cfg.LineageAt s.handler s.log (some b)
  | .streaming (.sent _ b) _ => cfg.SeenOn chain b ∧ cfg.LineageAt s.handler s.log (some b)
  | .waiting state =>
    (∀ n before, Standing s.log n before →
        chain.hashAt n = (cfg.provider.current before).hashAt n) ∧
      ∀ b ∈ state.previousBatchEnd, cfg.SeenOn chain b ∧ cfg.LineageAt s.handler s.log (some b)
  | .stopped => True

variable {cfg} {chain : Chain Hash} {h h' : DefaultReorgHandler Hash} {log log' new : Log Hash}
  {a b : Block Hash} {k n : ℕ}

/-! ### Blocks of the chain -/

lemma SeenOn.canonical (hb : cfg.SeenOn chain b) : chain.Canonical b := by
  obtain ⟨k, hk, hb⟩ := hb
  unfold Chain.Canonical Chain.hashAt at hb ⊢
  rwa [← hk]

/-- A block of the chain that is not above a block seen on it is an ancestor. -/
lemma SeenOn.isAncestor (hb : cfg.SeenOn chain b) (ha : chain.Canonical a)
    (hle : a.number ≤ b.number) : IsAncestor cfg.provider.view a b := by
  obtain ⟨k, hk, hb⟩ := hb
  refine isAncestor_of_canonical (i := k) ?_ hb hle
  unfold Chain.Canonical Chain.hashAt at ha ⊢
  rwa [hk]

/-- The ancestors of a block seen on the chain have been seen on it. -/
lemma SeenOn.of_isAncestor (hl : Linked cfg.provider.view) (hb : cfg.SeenOn chain b)
    (ha : IsAncestor cfg.provider.view a b) : cfg.SeenOn chain a := by
  obtain ⟨k, hk, hb⟩ := hb
  exact ⟨k, hk, ha.canonical hl hb⟩

/-- What a call sees while the chain is `chain` is seen on it. -/
lemma seenOn_of_showsOnly (hview : cfg.provider.ShowsOnly chain log log') (hk : clock log ≤ k)
    (hlt : k < clock log') (hb : (cfg.provider.view k).Canonical b) : cfg.SeenOn chain b :=
  ⟨k, hview k hk hlt, hb⟩

/-! ### The invariant at a tip -/

/-- Silent events change nothing. -/
lemma OnChain.append (hI : cfg.OnChain chain k h log) (hnew : SilentLog new) :
    cfg.OnChain chain k h (new ++ log) where
  provider_eq := hI.provider_eq
  buffered := hI.buffered
  descending := hI.descending
  standing n before hs := hI.standing n before (hs.of_append hnew)

/-- A block seen on the chain that is not below anything else may be remembered. -/
lemma OnChain.lineageAt (hl : Linked cfg.provider.view) (hI : cfg.OnChain chain k h log)
    (hb : cfg.SeenOn chain b) (hk : k ≤ b.number + 1) : cfg.LineageAt h log (some b) := by
  have hbuf : ∀ c ∈ h.buffer.inner, IsAncestor cfg.provider.view c b := by
    intro c hc
    obtain ⟨hcan, hlt⟩ := hI.buffered c hc
    exact hb.isAncestor hcan (by omega)
  refine ⟨hI.provider_eq, ?_, fun c hc => ⟨b, rfl, hbuf c hc⟩, ?_⟩
  · refine hI.descending.imp_of_mem fun hnewer holder hle => ?_
    exact (hbuf _ holder).of_number_le hl (hbuf _ hnewer) hle
  · intro n before hs
    obtain ⟨hlt, hsame⟩ := hI.standing n before hs
    have hle : n ≤ b.number := by omega
    obtain ⟨hash, hhash⟩ := hb.canonical.exists_hashAt hle
    exact ⟨b, rfl, hash, hsame.symm.trans hhash, hb.isAncestor hhash hle⟩

/-- Behind a remembered block seen on the chain everything is on the chain. -/
lemma LineageAt.onChain (hl : Linked cfg.provider.view) (hI : cfg.LineageAt h log (some b))
    (hb : cfg.SeenOn chain b) (hk : b.number < k) : cfg.OnChain chain k h log := by
  refine ⟨hI.provider_eq, fun c hc => ?_, hI.pairwise.imp fun hanc => hanc.1,
    fun n before hs => ?_⟩
  · obtain ⟨v, hv, hanc⟩ := hI.buffer c hc
    obtain rfl : b = v := by simpa using hv
    exact ⟨(hb.of_isAncestor hl hanc).canonical, hanc.1.trans_lt hk⟩
  · obtain ⟨v, hv, hash, hhash, hanc⟩ := hI.backed n before hs
    obtain rfl : b = v := by simpa using hv
    exact ⟨hanc.1.trans_lt hk, (hb.of_isAncestor hl hanc).canonical.trans hhash.symm⟩

/-- The remembered block may move up on its own chain. -/
lemma LineageAt.trans (hl : Linked cfg.provider.view) (hI : cfg.LineageAt h log (some a))
    (hanc : IsAncestor cfg.provider.view a b) : cfg.LineageAt h log (some b) := by
  refine ⟨hI.provider_eq, hI.pairwise, fun c hc => ⟨b, rfl, ?_⟩, hI.backed.trans hl ?_⟩
  · obtain ⟨v, hv, hcv⟩ := hI.buffer c hc
    obtain rfl : a = v := by simpa using hv
    exact hcv.trans hl hanc
  · intro v hv
    obtain rfl : a = v := by simpa using hv
    exact hanc

/-! ### The rounds -/

/-- What is streamed behind a block seen on the chain, or behind the start of the stream above
it. -/
lemma steady_proceed (hl : Linked cfg.provider.view) {state : LiveStreamingState Hash}
    (hI : cfg.LineageAt h log (some b)) (hb : cfg.SeenOn chain b)
    (hstart : b.number < state.batchStart) (hprev : ∀ v ∈ state.previousBatchEnd, v = b) :
    cfg.Steady chain ⟨cfg.proceed n state, h, log⟩ := by
  have hon := hI.onChain hl hb hstart
  unfold proceed
  split_ifs
  · refine ⟨fun n before hs => (hon.standing n before hs).2, ?_⟩
    intro v hv
    obtain rfl := hprev v hv
    exact ⟨hb, hI⟩
  · exact ⟨hon, by simp⟩

variable [DecidableEq Hash]

/-- **The check at the beginning of a round**: it finds the remembered block on the chain, or an
ancestor of it, and nothing that was replaced is left standing. -/
lemma steady_header {state : LiveStreamingState Hash} (hl : Linked cfg.provider.view)
    (hh : HeaderStep cfg n b h log state h' log') (hview : cfg.provider.ShowsOnly chain log log')
    (hF : Always (FallbackOnCheckedChain cfg.provider) log')
    (hI : cfg.LineageAt h log (some b)) :
    cfg.Steady chain ⟨cfg.proceed n state, h', log'⟩ := by
  cases hh with
  | clean hcheck hreqs =>
    obtain ⟨hI', k, hk, hlt, hb⟩ := (hI.cons (Event.silent_received _)).clean hcheck hreqs
    rw [clock_received] at hk
    have hseen := seenOn_of_showsOnly hview hk (by simpa using hlt) hb
    exact steady_proceed hl hI' hseen (Nat.lt_succ_self _) (by simp)
  | reorg hcheck hreqs =>
    obtain ⟨-, hI', k, hk, hlt, ha⟩ :=
      (hI.cons (Event.silent_received _)).reorg hl hcheck hreqs hF.2.1
    rw [clock_received] at hk
    have hseen := seenOn_of_showsOnly hview hk (by simpa using hlt) ha
    unfold afterReorg
    split_ifs with hlow
    · exact steady_proceed hl hI' hseen hlow (by simp)
    · exact steady_proceed hl hI' hseen (Nat.lt_succ_self _) (by simp)

variable {s t : LiveState Hash (DefaultReorgHandler Hash)}

/-- **One step keeps everything on the chain**, as long as the chain does not change.

**Proof sketch.** By cases on the step. A range that is sent ends in a block seen on the chain,
above everything else. A check keeps that block, or goes back to an ancestor of it, which is on
the chain as well; what is above the ancestor is withdrawn. -/
lemma steady_step (hl : Linked cfg.provider.view) (hst : LiveStep cfg s t)
    (hview : cfg.provider.ShowsOnly chain s.log t.log)
    (hF : Always (FallbackOnCheckedChain cfg.provider) t.log) (hcut : cfg.Cutting s)
    (hI : cfg.Steady chain s) : cfg.Steady chain t := by
  cases hst with
  | @first n h log notice hrel hnotice =>
    have hsilent : SilentLog (notice ++ [.received (.ok n)]) := by
      rcases hnotice with rfl | rfl <;> simp
    have hI' := OnChain.append hI hsilent
    rw [List.append_assoc, List.singleton_append] at hI'
    exact ⟨hI', by simp⟩
  | @batch _ _ _ _ _ log _ hb =>
    cases hb with
    | @emit _ _ _ _ _ batch b hnext hnum hsees =>
      obtain ⟨hstart, hle, -⟩ := hcut.1.next hnext
      have hrequest : (.request (.blockByNumber (.number batch.stop)) : Event Hash).Silent :=
        trivial
      have hseen : cfg.SeenOn chain b :=
        seenOn_of_showsOnly hview (Nat.le_refl _) (by simp) hsees.2
      have hcurrent : (cfg.provider.current
          (.request (.blockByNumber (.number batch.stop)) :: log)).Canonical b := by
        rw [RobustProvider.current, clock_request]
        exact hsees.2
      have hbehind := (hI.1.lineageAt hl hseen (by omega)).cons hrequest
      refine ⟨hseen, hbehind.emit hl hnum hcurrent ?_⟩
      rintro v ⟨⟩
      exact ⟨hcurrent, Nat.le_refl _⟩
    | clean hcheck hreqs =>
      obtain ⟨hseen, hI⟩ := hI
      obtain ⟨hI', -⟩ := hI.clean hcheck hreqs
      have hcur := hcut.2.2.2.1
      refine ⟨hI'.onChain hl hseen (by omega), ?_⟩
      rintro b ⟨⟩
      exact ⟨hseen, hI'⟩
    | reorg hcheck hreqs =>
      obtain ⟨hseen, hI⟩ := hI
      obtain ⟨hanc, hI', -⟩ := hI.reorg hl hcheck hreqs hF.2.1
      refine ⟨hI'.onChain hl (hseen.of_isAncestor hl hanc) ?_, ?_⟩
      · rw [RangeIterator.resetTo_current]
        omega
      · rintro b ⟨⟩
        exact ⟨hseen, hI'.trans hl hanc⟩
  | batchesDone hnext => exact ⟨fun n before hs => (hI.1.standing n before hs).2, hI.2⟩
  | lagged | ignored =>
    refine ⟨fun n before hs => hI.1 n before (hs.of_cons (Event.silent_received _)), ?_⟩
    intro b hb
    exact (hI.2 b hb).imp_right fun hI => hI.cons (Event.silent_received _)
  | header hh => exact steady_header hl hh hview hF (hI.2 _ rfl).2
  | stop hextra => trivial

/-- Every run of steps keeps everything on the chain, as long as the chain does not change. -/
lemma steady_of_reach (hl : Linked cfg.provider.view) (hr : (liveSystem cfg).Reach s t)
    (hview : cfg.provider.ShowsOnly chain s.log t.log)
    (hF : Always (FallbackOnCheckedChain cfg.provider) t.log) (hcut : cfg.Cutting s)
    (hI : cfg.Steady chain s) : cfg.Cutting t ∧ cfg.Steady chain t := by
  have hinv := LoggedSystem.invariant
    (I := fun u => s.log <:+ u.log ∧ cfg.Cutting u ∧
      (cfg.provider.ShowsOnly chain s.log u.log → cfg.Steady chain u))
    (fun u v hst hF hI => by
      obtain ⟨hlog, hcut, hsteady⟩ := hI
      have hgrows : u.log <:+ v.log := (liveSystem cfg).log_suffix hst
      refine ⟨hlog.trans hgrows, cutting_step hst hcut, fun hview => ?_⟩
      exact steady_step hl hst (hview.mono hlog (List.suffix_refl _)) hF hcut
        (hsteady (hview.mono (List.suffix_refl _) hgrows)))
    hr ⟨List.suffix_refl _, hcut, fun _ => hI⟩ hF
  exact ⟨hinv.2.1, hinv.2.2 hview⟩

variable {fuel : ℕ} {state : LiveStreamingState Hash}

variable (cfg) in
/-- **A round of the main loop** with a remembered block leaves everything on the chain. -/
theorem steady_of_iteration (hl : Linked cfg.provider.view) {batchStart : ℕ}
    (hrun : (cfg.liveIteration fuel (.ok n) ⟨batchStart, some b⟩ h).run log =
      (some (some (state, h')), log'))
    (hview : cfg.provider.ShowsOnly chain log log')
    (hF : Always (FallbackOnCheckedChain cfg.provider) log')
    (hcut : cfg.Cutting ⟨.waiting ⟨batchStart, some b⟩, h, log⟩)
    (hI : cfg.LineageAt h log (some b)) :
    cfg.Cutting ⟨.waiting state, h', log'⟩ ∧ cfg.Steady chain ⟨.waiting state, h', log'⟩ := by
  rcases cfg.run_liveIteration_header fuel n batchStart b h log with
    ⟨state₁, h₁, log₁, hh, heq⟩ | ⟨extra, -, heq⟩
  · have hst : LiveStep cfg ⟨.waiting ⟨batchStart, some b⟩, h, log⟩
        ⟨cfg.proceed n state₁, h₁, log₁⟩ := .header hh
    have hgrows : log <:+ log₁ := (liveSystem cfg).log_suffix hst
    obtain ⟨t, ht, -, hend⟩ := cfg.streamUpTo_reach fuel n state₁ h₁ log₁
    rw [← heq, hrun] at hend
    rw [hend state h' rfl] at ht
    have hgrows' : log₁ <:+ log' := LoggedSystem.Reach.log_suffix ht
    have hsteady := steady_header hl hh (hview.mono (List.suffix_refl _) hgrows')
      (hF.of_suffix hgrows') hI
    exact steady_of_reach hl ht (hview.mono hgrows (List.suffix_refl _)) hF (cutting_step hst hcut)
      hsteady
  · rw [heq] at hrun
    simp at hrun

variable (cfg) in
/-- **The first round of the live phase** keeps everything on the chain. -/
theorem steady_of_firstRound (hl : Linked cfg.provider.view)
    (hrun : (cfg.initializeLiveStreamingState fuel n h).run (.received (.ok n) :: log) =
      (some (some state, h'), log'))
    (hrel : cfg.streamStart ≤ cfg.confirmed n) (hview : cfg.provider.ShowsOnly chain log log')
    (hF : Always (FallbackOnCheckedChain cfg.provider) log')
    (hI : cfg.OnChain chain cfg.streamStart h log) :
    cfg.Cutting ⟨.waiting state, h', log'⟩ ∧ cfg.Steady chain ⟨.waiting state, h', log'⟩ := by
  obtain ⟨t, ht, -, hend⟩ := cfg.initializeLiveStreamingState_reach fuel n h
    (.received (.ok n) :: log)
  rw [hrun] at hend
  rw [hend state h' rfl] at ht
  have hr : (liveSystem cfg).Reach ⟨.starting, h, log⟩ ⟨.waiting state, h', log'⟩ :=
    .head (LiveStep.first hrel (Or.inl rfl)) ht
  exact steady_of_reach hl hr hview hF trivial hI

/-! ### The first round reports nothing -/

variable (cfg chain) in
/-- Where the batch loop stands before it has found a reorg: the block that is checked next was
read on the chain. -/
structure Unchallenged (log₀ : Log Hash) (u : BatchState Hash (DefaultReorgHandler Hash)) :
    Prop where
  /-- The handler and the stream share the provider. -/
  provider_eq : u.handler.provider = cfg.provider
  /-- No reorg was reported. -/
  quiet : QuietSince cfg.provider chain log₀ u.log
  /-- The block of the next check. -/
  canonical : ∀ iter b, u.phase = .sent iter b →
    cfg.provider.ShowsOnly chain log₀ u.log → chain.Canonical b

variable {log₀ : Log Hash}

/-- One step of the batch loop reports no reorg: the block it checks was read on the same chain. -/
lemma unchallenged_step (hfault : ∀ k, cfg.provider.fault k ≠ some .blockNotFound)
    {u v : BatchState Hash (DefaultReorgHandler Hash)}
    (hst : BatchStep cfg.provider cfg.minCommonAncestor u v) (hI : cfg.Unchallenged chain log₀ u) :
    cfg.Unchallenged chain log₀ v := by
  obtain ⟨hprov, hquiet, hcan⟩ := hI
  cases hst with
  | emit hnext hnum hsees =>
    refine ⟨hprov, (hquiet.cons (by simp)).cons (by simp), ?_⟩
    rintro iter b' ⟨⟩ hview
    exact hquiet.canonical hsees.2 (hview.mono (List.suffix_refl _) (List.suffix_cons _ _))
  | clean hcheck hreqs =>
    have hreqs' := hquiet.append (silentLog_of_isRequest hreqs)
    refine ⟨(DefaultReorgHandler.check_provider hcheck).trans hprov, hreqs'.cons (by simp), ?_⟩
    rintro iter b' ⟨⟩
  | @reorg iter b a h h' log reqs hcheck hreqs =>
    have hreqs' := hquiet.append (silentLog_of_isRequest hreqs)
    refine ⟨(DefaultReorgHandler.check_provider hcheck).trans hprov, ?_, ?_⟩
    · refine (hreqs'.cons (by simp)).cons fun hview => ?_
      -- on the same chain the check finds its block
      exfalso
      obtain ⟨-, hmiss, hsearch⟩ := DefaultReorgHandler.check_eq_ok_some hcheck
      obtain ⟨hclock, -⟩ := hsearch.answer
      rw [clock_request] at hclock
      dsimp only at hprov hquiet hcan hview
      rw [hprov] at hmiss
      rcases hmiss with hmiss | ⟨-, hmiss⟩
      · exact hfault _ hmiss
      · have hsame := hview (clock log) (clock_le_of_suffix hquiet.grows)
          (by rw [clock_checked]; omega)
        have hb := hcan iter b rfl (hview.mono (List.suffix_refl _)
          ((List.suffix_append _ _).trans (List.suffix_cons _ _)))
        unfold Chain.Canonical Chain.hashAt at hb hmiss
        exact hmiss (hsame ▸ hb)
    · rintro iter b' ⟨⟩

variable (cfg) in
/-- **The first round of the live phase reports no reorg** as long as the chain does not change. -/
theorem quiet_of_firstRound (hfault : ∀ k, cfg.provider.fault k ≠ some .blockNotFound)
    (hprov : h.provider = cfg.provider)
    (hrun : (cfg.initializeLiveStreamingState fuel n h).run (.received (.ok n) :: log) =
      (some (some state, h'), log')) :
    QuietSince cfg.provider chain log log' := by
  have hinv (u : BatchState Hash (DefaultReorgHandler Hash))
      (hr : (batchSystem cfg.provider cfg.minCommonAncestor).Reach
        ⟨.ready (.forward cfg.streamStart (cfg.confirmed n) cfg.maxBlockRange) none, h,
          .received (.ok n) :: log⟩ u) : cfg.Unchallenged chain log u := by
    induction hr with
    | refl =>
      refine ⟨hprov, quietSince_refl.cons (by simp), ?_⟩
      rintro iter b ⟨⟩
    | tail _ hst ih => exact unchallenged_step hfault hst ih
  have hb := streamBatches_reach cfg.provider cfg.minCommonAncestor cfg.sender fuel
    (.forward cfg.streamStart (cfg.confirmed n) cfg.maxBlockRange) none h (.received (.ok n) :: log)
  obtain ⟨u, hu, hend⟩ := hb
  have hlog : ((streamBatches cfg.sender cfg.provider cfg.minCommonAncestor fuel
      (.forward cfg.streamStart (cfg.confirmed n) cfg.maxBlockRange) none h).run
        (.received (.ok n) :: log)).2 = log' := by
    have hsnd := congrArg Prod.snd hrun
    rw [run_initializeLiveStreamingState] at hsnd
    rcases hstream : (streamBatches cfg.sender cfg.provider cfg.minCommonAncestor fuel
      (.forward cfg.streamStart (cfg.confirmed n) cfg.maxBlockRange) none h).run
        (.received (.ok n) :: log) with ⟨_ | ⟨_ | b, h''⟩, log''⟩ <;> rw [hstream] at hsnd <;>
      exact hsnd
  rw [hlog] at hend
  rcases hend with ⟨-, -, -, -, -, rfl⟩ | ⟨-, extra, hextra, rfl⟩
  · exact (hinv u hu).quiet
  · exact (hinv u hu).quiet.append hextra

end LiveConfig

end EventScanner
