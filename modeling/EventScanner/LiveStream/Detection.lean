import EventScanner.LiveStream.Lineage

set_option relaxedAutoImplicit false
set_option autoImplicit false

/-!
# The live stream misses no reorg

When a block that was sent is replaced later, a reorg that withdraws it is reported by the end
of the first round of the main loop during which the chain does not change. This holds in every
run that sends nothing on a chain that has lost the remembered block, that falls back to the
finalized block only where it lies on the chain of the checked block, and that is not left
without a remembered block while blocks still stand.

## Main definitions

* `EventScanner.LiveConfig.AllWithdrawnWhenStuck` — the third condition.
* `EventScanner.LiveConfig.StableDuring` — the chain does not change between two moments.
* `EventScanner.LiveConfig.Detected` — what was replaced before a round is reported by its end.

## Main results

* `EventScanner.LiveConfig.replaced_detected` — no reorg is missed, in every run that meets the
  conditions.
* `EventScanner.LiveConfig.not_detected_betweenCheckAndFetch` — a run that misses a reorg.
-/

namespace EventScanner

open HashChain EventLog

variable {Hash : Type}

/-- A standing block is in a range that was sent. -/
lemma Standing.emitted {log before : Log Hash} {n : ℕ} (h : Standing log n before) :
    Emitted log n := by
  obtain ⟨news, r, rfl, hn, -⟩ := h
  refine ⟨r, ?_, hn⟩
  rw [sentRanges_append]
  exact List.mem_append_right _ List.mem_cons_self

/-- A block that stood and stands no longer was withdrawn in between. -/
lemma Standing.exists_reorg {news log before : Log Hash} {n : ℕ} (h : Standing log n before)
    (hnot : ¬Standing (news ++ log) n before) :
    ∃ a, .sent (reorgItem a) ∈ news ∧ a < n := by
  by_contra hall
  apply hnot
  obtain ⟨news', r, rfl, hn, ha⟩ := h
  refine ⟨news ++ news', r, by rw [List.append_assoc], hn, ?_⟩
  intro a hmem
  rcases List.mem_append.mp hmem with hmem | hmem
  · by_contra hlt
    exact hall ⟨a, hmem, by omega⟩
  · exact ha a hmem

namespace LiveConfig

variable (cfg : LiveConfig Hash)

/-- When a header confirmed before the start of the stream reveals a reorg back to a block before
the start, which leaves the main loop without a remembered block, all blocks sent so far are
above the ancestor. -/
def AllWithdrawnWhenStuck : Event Hash → Log Hash → Prop
  | .checked _ (some a), past =>
    ∀ n ∈ checkedHeader past, cfg.confirmed n < cfg.streamStart → a.number < cfg.streamStart →
      ∀ r ∈ sentRanges past, a.number < r.start
  | _, _ => True

instance (e : Event Hash) (past : Log Hash) : Decidable (cfg.AllWithdrawnWhenStuck e past) :=
  match e with
  | .checked _ (some a) =>
    inferInstanceAs (Decidable (∀ n ∈ checkedHeader past, cfg.confirmed n < cfg.streamStart →
      a.number < cfg.streamStart → ∀ r ∈ sentRanges past, a.number < r.start))
  | .checked _ none | .sent _ | .request _ | .received _ => .isTrue trivial

/-- The chain does not change between the moments `i` and `j`. -/
def StableDuring (i j : ℕ) : Prop :=
  ∀ k l, i ≤ k → k < j → i ≤ l → l < j → (cfg.provider.view k).hashes = (cfg.provider.view l).hashes

/-- Every block that was replaced before a round of the main loop, which starts with `log` and
ends with `log'`, is withdrawn by the end of the round: if the block `n`, sent with the log
`before`, still stands in the log `at`, and from then on every call sees another hash at its
height, or none, then a reorg with an ancestor below `n` is reported after `at`. -/
def Detected (log log' : Log Hash) : Prop :=
  ∀ n before changed, changed <:+ log → Standing changed n before →
    (∀ k, clock changed ≤ k → k < clock log' →
      (cfg.provider.view k).hashAt n ≠ (cfg.provider.current before).hashAt n) →
    ∃ news a, log' = news ++ changed ∧ .sent (reorgItem a) ∈ news ∧ a < n

/-- Nothing that was sent still stands. -/
def NothingStands (log : Log Hash) : Prop := ∀ n before, ¬Standing log n before

/-- When the main loop has no remembered block, nothing stands. -/
def WithdrawnWhenStuck (s : LiveState Hash (DefaultReorgHandler Hash)) : Prop :=
  match s.phase with
  | .waiting ⟨_, none⟩ => NothingStands s.log
  | _ => True

/-- The block was canonical at a call since the moment `k₀`. -/
def SeenSince (k₀ : ℕ) (log : Log Hash) (b : Block Hash) : Prop :=
  ∃ k, k₀ ≤ k ∧ k < clock log ∧ (cfg.provider.view k).Canonical b

/-- The block the stream remembers was canonical at a call since the moment `k₀`. -/
def Fresh (k₀ : ℕ) (s : LiveState Hash (DefaultReorgHandler Hash)) : Prop :=
  match s.phase with
  | .streaming (.ready _ _) _ | .waiting _ =>
    ∃ v ∈ lastVouched s.log, cfg.SeenSince k₀ s.log v
  | .streaming (.sent _ b) _ => cfg.SeenSince k₀ s.log b
  | .starting => False
  | .stopped => True

variable {cfg} {s t : LiveState Hash (DefaultReorgHandler Hash)} {log log' : Log Hash}
  {h h' : DefaultReorgHandler Hash} {b : Block Hash} {n k₀ : ℕ}

lemma NothingStands.cons {e : Event Hash} (h : NothingStands log) (he : e.Silent) :
    NothingStands (e :: log) :=
  fun n before hs => h n before (hs.of_cons he)

lemma SeenSince.mono (h : cfg.SeenSince k₀ log b) (hlog : log <:+ log') :
    cfg.SeenSince k₀ log' b := by
  obtain ⟨k, hk₀, hk, hb⟩ := h
  exact ⟨k, hk₀, Nat.lt_of_lt_of_le hk (clock_le_of_suffix hlog), hb⟩

/-- A new tip of the main loop is remembered. -/
lemma fresh_proceed {state : LiveStreamingState Hash} {v : Block Hash}
    (hv : lastVouched log = some v) (hseen : cfg.SeenSince k₀ log v) :
    cfg.Fresh k₀ ⟨cfg.proceed n state, h, log⟩ := by
  unfold proceed
  split_ifs
  · exact ⟨v, hv, hseen⟩
  · exact ⟨v, hv, hseen⟩

variable (cfg) in
/-- The invariants together. -/
def Tracked (s : LiveState Hash (DefaultReorgHandler Hash)) : Prop :=
  cfg.Cutting s ∧ cfg.Lineage s ∧ WithdrawnWhenStuck s

/-- When the remembered block is canonical on an unchanged chain, every standing block has the
hash it was sent with. -/
lemma standing_unchanged (hl : Linked cfg.provider.view) {state : LiveStreamingState Hash}
    (hI : cfg.Tracked ⟨.waiting state, h, log⟩)
    (hfresh : state.previousBatchEnd = none ∨ cfg.Fresh k₀ ⟨.waiting state, h, log⟩)
    (hstable : cfg.StableDuring k₀ (clock log)) {before : Log Hash} (hs : Standing log n before) :
    k₀ < clock log ∧
      (cfg.provider.view (clock log - 1)).hashAt n = (cfg.provider.current before).hashAt n := by
  obtain ⟨-, hlin, hstuck⟩ := hI
  obtain ⟨batchStart, _ | b⟩ := state
  · exact absurd hs (hstuck n before)
  · obtain ⟨hvouched, hlin⟩ := hlin
    dsimp only at hvouched hlin
    obtain ⟨v, hv, k, hk₀, hk, hb⟩ := hfresh.resolve_left (by simp)
    dsimp only at hv hk
    obtain rfl : b = v := by simpa [hvouched] using hv
    obtain ⟨v, hv, hash, hhash, hanc⟩ := hlin.backed n before hs
    obtain rfl : b = v := by simpa using hv
    have hcan : (cfg.provider.view k).hashAt n = some hash := hanc.canonical hl hb
    have hsame := hstable (clock log - 1) k (by omega) (by omega) hk₀ hk
    refine ⟨by omega, ?_⟩
    rw [hhash, ← hcan]
    simp only [Chain.hashAt, hsame]

variable [DecidableEq Hash]

/-- A header makes the remembered block fresh. -/
lemma fresh_header {state : LiveStreamingState Hash} (hl : Linked cfg.provider.view)
    (hh : HeaderStep cfg n b h log state h' log') (hk₀ : k₀ ≤ clock log)
    (hF : Always cfg.FinalizedOnCheckedChain log') (hI : cfg.LineageAt h log (some b)) :
    cfg.Fresh k₀ ⟨cfg.proceed n state, h', log'⟩ := by
  cases hh with
  | clean hcheck hreqs =>
    obtain ⟨-, k, hk, hlt, hb⟩ := (hI.cons (Event.silent_received _)).clean hcheck hreqs
    rw [clock_received] at hk
    exact fresh_proceed rfl ⟨k, by omega, by simpa using hlt, hb⟩
  | reorg hcheck hreqs =>
    obtain ⟨-, -, k, hk, hlt, ha⟩ :=
      (hI.cons (Event.silent_received _)).reorg hl hcheck hreqs (hF.2.1 _)
    rw [clock_received] at hk
    exact fresh_proceed rfl ⟨k, by omega, by simpa using hlt, ha⟩

/-- One step keeps the remembered block fresh. -/
lemma fresh_step (hl : Linked cfg.provider.view) (hst : LiveStep cfg s t)
    (hF : Always cfg.FinalizedOnCheckedChain t.log) (hcut : cfg.Cutting s) (hI : cfg.Lineage s)
    (h : cfg.Fresh k₀ s) : cfg.Fresh k₀ t := by
  have hsuffix : s.log <:+ t.log := (liveSystem cfg).log_suffix hst
  cases hst with
  | first hrel hnotice => exact absurd h id
  | batch hb =>
    cases hb with
    | emit hnext hnum hsees =>
      obtain ⟨v, -, k, hk₀, hk, -⟩ := h
      exact ⟨_, by dsimp only at hk; omega, by simp, hsees.2⟩
    | clean hcheck hreqs =>
      obtain ⟨k, hk₀, hk, hb⟩ := h
      exact ⟨_, rfl, SeenSince.mono ⟨k, hk₀, hk, hb⟩ hsuffix⟩
    | reorg hcheck hreqs =>
      obtain ⟨k, hk₀, hk, -⟩ := h
      obtain ⟨-, -, k', hk', hlt, ha⟩ := LineageAt.reorg hl hI hcheck hreqs (hF.2.1 _)
      dsimp only at hk hk' hlt
      exact ⟨_, rfl, k', by omega, by simpa using hlt, ha⟩
  | batchesDone hnext => exact h
  | lagged | ignored =>
    obtain ⟨v, hv, hseen⟩ := h
    exact ⟨v, hv, hseen.mono hsuffix⟩
  | header hh =>
    obtain ⟨v, hv, k, hk₀, hk, -⟩ := h
    dsimp only at hk
    exact fresh_header hl hh (by omega) hF hI.2
  | stop hextra => trivial

/-- One step leaves nothing standing when it leaves the main loop without a remembered block. -/
lemma withdrawnWhenStuck_step (hst : LiveStep cfg s t)
    (hN : Always cfg.AllWithdrawnWhenStuck t.log) (h : WithdrawnWhenStuck s) :
    WithdrawnWhenStuck t := by
  cases hst with
  | first hrel hnotice => trivial
  | batch hb => trivial
  | batchesDone hnext => trivial
  | @lagged state _ _ _ =>
    obtain ⟨batchStart, _ | b⟩ := state
    · exact NothingStands.cons h (Event.silent_received _)
    · trivial
  | ignored => exact NothingStands.cons h (Event.silent_received _)
  | header hh =>
    cases hh with
    | clean hcheck hreqs =>
      unfold proceed
      split_ifs <;> trivial
    | @reorg a _ _ _ _ hcheck hreqs =>
      unfold afterReorg
      split_ifs with ha
      · unfold proceed
        split_ifs with hn
        · have hrange := hN.2.1 _ (checkedHeader_append hreqs _ _) hn ha
          intro m before hs
          rcases standing_cons_iff.mp hs with ⟨r, heq, -⟩ | ⟨hs, hle⟩
          · simp at heq
          · obtain ⟨r, hr, hm, -⟩ := (hs.of_cons (Event.silent_checked _ _)).emitted
            have hlt := hrange r hr
            have hle := hle a.number rfl
            omega
        · trivial
      · unfold proceed
        split_ifs <;> trivial
  | stop hextra => trivial

variable (cfg) in
/-- The conditions together. -/
def DetectionConditions (e : Event Hash) (past : Log Hash) : Prop :=
  cfg.StreamsOnVouched e past ∧ cfg.FinalizedOnCheckedChain e past ∧
    cfg.AllWithdrawnWhenStuck e past

lemma tracked_step (hl : Linked cfg.provider.view) (hst : LiveStep cfg s t)
    (hC : Always cfg.DetectionConditions t.log) (hI : cfg.Tracked s) : cfg.Tracked t := by
  obtain ⟨hW, hC⟩ := always_and.mp hC
  obtain ⟨hF, hN⟩ := always_and.mp hC
  obtain ⟨hcut, hlin, hstuck⟩ := hI
  exact ⟨cutting_step hst hcut, lineage_step hl hst hW hF hcut hlin,
    withdrawnWhenStuck_step hst hN hstuck⟩

/-- The invariants hold at the tops of the main loop. -/
lemma tracked_of_loopTop (hl : Linked cfg.provider.view) {capacity : RingBufferCapacity}
    {state : LiveStreamingState Hash}
    (htop : LoopTop cfg (DefaultReorgHandler.new cfg.provider capacity) state h log)
    (hC : Always cfg.DetectionConditions log) : cfg.Tracked ⟨.waiting state, h, log⟩ := by
  have hnothing : cfg.Backed none [] := fun n before hs => absurd hs not_standing_nil
  have hstart : cfg.Tracked ⟨.starting, DefaultReorgHandler.new cfg.provider capacity, []⟩ :=
    ⟨trivial, ⟨rfl, rfl, List.Pairwise.nil, by simp [DefaultReorgHandler.new, RingBuffer.new],
      hnothing⟩, trivial⟩
  exact LoggedSystem.invariant (I := cfg.Tracked) (fun _ _ hst hC hI => tracked_step hl hst hC hI)
    htop.reach hstart hC

/-- At the end of a round that processed a header, the remembered block was canonical at a call of
the round. -/
lemma fresh_of_round (hl : Linked cfg.provider.view) {fuel : ℕ}
    {state state' : LiveStreamingState Hash} (hI : cfg.Tracked ⟨.waiting state, h, log⟩)
    (hrun : (cfg.liveIteration fuel (.ok n) state h).run log = (some (some (state', h')), log'))
    (hC : Always cfg.DetectionConditions log') :
    state'.previousBatchEnd = none ∨ cfg.Fresh (clock log) ⟨.waiting state', h', log'⟩ := by
  obtain ⟨batchStart, _ | b⟩ := state
  · simp only [liveIteration, Proc.run_bind_emit, Proc.run_pure, Prod.mk.injEq,
      Option.some.injEq] at hrun
    obtain ⟨⟨rfl, -⟩, -⟩ := hrun
    exact Or.inl rfl
  · rcases cfg.run_liveIteration_header fuel n batchStart b h log with
      ⟨state₁, h₁, log₁, hh, heq⟩ | ⟨extra, -, heq⟩
    · have hst : LiveStep cfg ⟨.waiting ⟨batchStart, some b⟩, h, log⟩
          ⟨cfg.proceed n state₁, h₁, log₁⟩ := .header hh
      obtain ⟨t, ht, -, hend⟩ := cfg.streamUpTo_reach fuel n state₁ h₁ log₁
      rw [← heq, hrun] at hend
      rw [hend state' h' rfl] at ht
      have hC₁ := hC.of_suffix (LoggedSystem.Reach.log_suffix ht)
      have hF₁ := (always_and.mp (always_and.mp hC₁).2).1
      have hI₁ := tracked_step hl hst hC₁ hI
      have hfresh₁ := fresh_header hl hh (Nat.le_refl _) hF₁ hI.2.1.2
      have hboth := LoggedSystem.invariant (I := fun s => cfg.Tracked s ∧ cfg.Fresh (clock log) s)
        (fun s t hst hC hI => ⟨tracked_step hl hst hC hI.1,
          fresh_step hl hst (always_and.mp (always_and.mp hC).2).1 hI.1.1 hI.1.2.1 hI.2⟩)
        ht ⟨hI₁, hfresh₁⟩ hC
      exact Or.inr hboth.2
    · rw [heq] at hrun
      simp at hrun

/-- **No reorg is missed.**

**Proof sketch.** The check at the start of the round sees the remembered block or an ancestor of
it as canonical, and from then on the remembered block is always one that was canonical at a
call of the round. As the chain does not change, it is canonical at the end of the round.
All standing blocks lie on its chain as they were when they were sent, so none of them has
another hash now; a block that has one was withdrawn. -/
theorem replaced_detected (hl : Linked cfg.provider.view) (capacity : RingBufferCapacity)
    {fuel : ℕ} {state state' : LiveStreamingState Hash}
    (htop : LoopTop cfg (DefaultReorgHandler.new cfg.provider capacity) state h log)
    (hrun : (cfg.liveIteration fuel (.ok n) state h).run log = (some (some (state', h')), log'))
    (hstable : cfg.StableDuring (clock log) (clock log'))
    (hW : Always cfg.StreamsOnVouched log') (hF : Always cfg.FinalizedOnCheckedChain log')
    (hN : Always cfg.AllWithdrawnWhenStuck log') : cfg.Detected log log' := by
  have hC : Always cfg.DetectionConditions log' := always_and.mpr ⟨hW, always_and.mpr ⟨hF, hN⟩⟩
  have hsuffix : log <:+ log' := by
    have := (cfg.liveIteration fuel (.ok n) state h).grows log
    rwa [hrun] at this
  have hI := tracked_of_loopTop hl htop (hC.of_suffix hsuffix)
  have hI' := tracked_of_loopTop hl (htop.next hrun) hC
  have hfresh := fresh_of_round hl hI hrun hC
  intro m before changed hchanged hs hdiff
  obtain ⟨news, rfl⟩ := hchanged.trans hsuffix
  have hnot : ¬Standing (news ++ changed) m before := by
    intro hstands
    obtain ⟨hlt, hsame⟩ := standing_unchanged hl hI' hfresh hstable hstands
    have hle := clock_le_of_suffix hchanged
    exact hdiff _ (by omega) (by omega) hsame
  obtain ⟨a, ha, hlt⟩ := hs.exists_reorg hnot
  exact ⟨news, a, rfl, ha, hlt⟩

/-! ### A change between a check and the next fetch -/

/-- Blocks `2` and `3` are replaced before the provider call `k`. -/
def changeAt (k : ℕ) : RobustProvider ℕ :=
  .healthy (switchAt k (.ofHashes 0 [1, 2, 3, 4] 0) (.ofHashes 0 [1, 12, 13, 14, 15] 0))

/-- The live stream over that chain, from block `1` on. -/
def changeAtConfig (k : ℕ) : LiveConfig ℕ where
  streamStart := 1
  blockConfirmations := 0
  maxBlockRange := defaultMaxBlockRange
  sender := ⟨none⟩
  provider := changeAt k

/-- The handler of that stream, with the given blocks in its buffer. -/
abbrev changeAtHandler (k : ℕ) (blocks : List (Block ℕ)) : DefaultReorgHandler ℕ :=
  ⟨changeAt k, ⟨blocks, .infinite⟩⟩

/-- From the change on nothing changes. -/
lemma stableDuring_changeAt {k i : ℕ} (h : k ≤ i) (j : ℕ) :
    (changeAtConfig k).StableDuring i j := by
  intro l m hl _ hm _
  have hviews (x : ℕ) (hx : k ≤ x) : (changeAtConfig k).provider.view x = _ :=
    switchAt_of_le hx _ _
  rw [hviews l (by omega), hviews m (by omega)]

instance (k : ℕ) (a b : Block ℕ) : Decidable (IsAncestor (changeAtConfig k).provider.view a b) :=
  inferInstanceAs (Decidable (IsAncestor (switchAt k _ _) a b))

/-- The log behind the header `3`: the range `1..=3` was sent, and block `3` was checked. -/
def changeAtFirst : Log ℕ :=
  [.checked ⟨3, 3⟩ none, .request (.blockByNumber (.number 3)), .sent (dataItem ⟨1, 3⟩),
    .request (.blockByNumber (.number 3)), .received (.ok 3)]

/-- A change between two headers: the header `5` finds block `3` replaced and goes back to the
finalized block `0`. -/
def changeAtDetected : Log ℕ :=
  [.checked ⟨5, 15⟩ none, .request (.blockByNumber (.number 5)), .sent (dataItem ⟨1, 5⟩),
    .request (.blockByNumber (.number 5)), .sent (reorgItem 0), .checked ⟨3, 3⟩ (some ⟨0, 0⟩),
    .request (.blockByNumber .finalized), .request (.blockByNumber (.number 3)),
    .request (.blockByNumber (.number 3)), .received (.ok 5)] ++ changeAtFirst

/-- A change between two headers is detected. -/
theorem replaced_detected_changeAt : (changeAtConfig 2).Detected changeAtFirst changeAtDetected :=
  have hfirst : ((changeAtConfig 2).initializeLiveStreamingState 3 3 (changeAtHandler 2 [])).run
      [.received (.ok 3)] =
        (some (some ⟨1, some ⟨3, 3⟩⟩, changeAtHandler 2 [⟨3, 3⟩]), changeAtFirst) := rfl
  have hround : ((changeAtConfig 2).liveIteration 3 (.ok 5) ⟨1, some ⟨3, 3⟩⟩
      (changeAtHandler 2 [⟨3, 3⟩])).run changeAtFirst =
        (some (some (⟨6, some ⟨5, 15⟩⟩, changeAtHandler 2 [⟨5, 15⟩])), changeAtDetected) := rfl
  replaced_detected (linked_switchAt (by decide)) .infinite
    (.first (by decide) (Or.inl rfl) hfirst) hround (stableDuring_changeAt (by decide) _)
    (by decide) (by decide) (by decide)

/-- A change between the check of block `3` and the fetch of block `4`: the next range is sent on
the new fork, and its last block is remembered. -/
def changeAtMissed : Log ℕ :=
  [.checked ⟨4, 14⟩ none, .request (.blockByNumber (.number 4)), .sent (dataItem ⟨4, 4⟩),
    .request (.blockByNumber (.number 4)), .checked ⟨3, 3⟩ none,
    .request (.blockByNumber (.number 3)), .received (.ok 4)] ++ changeAtFirst

/-- The round of the header `5` behind it, without a change. -/
def changeAtMissedNext : Log ℕ :=
  [.checked ⟨5, 15⟩ none, .request (.blockByNumber (.number 5)), .sent (dataItem ⟨5, 5⟩),
    .request (.blockByNumber (.number 5)), .checked ⟨4, 14⟩ none,
    .request (.blockByNumber (.number 4)), .received (.ok 5)] ++ changeAtMissed

/-- That change is not detected: blocks `2` and `3` stay replaced, and no reorg is reported by the
end of the next round, during which the chain does not change. -/
theorem not_detected_betweenCheckAndFetch :
    FinalityKept (changeAt 3).view ∧ Linked (changeAt 3).view ∧
      ∃ state h state' h', LoopTop (changeAtConfig 3) (changeAtHandler 3 []) state h
          changeAtMissed ∧
        ((changeAtConfig 3).liveIteration 3 (.ok 5) state h).run changeAtMissed =
          (some (some (state', h')), changeAtMissedNext) ∧
        (changeAtConfig 3).StableDuring (clock changeAtMissed) (clock changeAtMissedNext) ∧
        ¬(changeAtConfig 3).Detected changeAtMissed changeAtMissedNext := by
  have hfirst : ((changeAtConfig 3).initializeLiveStreamingState 3 3 (changeAtHandler 3 [])).run
      [.received (.ok 3)] =
        (some (some ⟨1, some ⟨3, 3⟩⟩, changeAtHandler 3 [⟨3, 3⟩]), changeAtFirst) := rfl
  have hround : ((changeAtConfig 3).liveIteration 3 (.ok 4) ⟨1, some ⟨3, 3⟩⟩
      (changeAtHandler 3 [⟨3, 3⟩])).run changeAtFirst =
        (some (some (⟨5, some ⟨4, 14⟩⟩, changeAtHandler 3 [⟨4, 14⟩, ⟨3, 3⟩])), changeAtMissed) :=
    rfl
  refine ⟨finalityKept_switchAt (by decide), linked_switchAt (by decide), _, _, _, _,
    .next (.first (by decide) (Or.inl rfl) hfirst) hround, rfl,
    stableDuring_changeAt (by decide) _, ?_⟩
  intro hdetected
  have hstands : Standing changeAtMissed 3
      [.request (.blockByNumber (.number 3)), .received (.ok 3)] :=
    ⟨changeAtMissed.take 9, ⟨1, 3⟩, rfl, by decide, by simp [changeAtMissed, changeAtFirst]⟩
  obtain ⟨news, a, heq, hmem, -⟩ := hdetected 3 _ changeAtMissed (List.suffix_refl _) hstands
    (by
      intro k hk _
      have hview : (changeAtConfig 3).provider.view k = _ :=
        switchAt_of_le (Nat.le_trans (by decide) hk) _ _
      rw [hview]
      decide)
  have hreorg : .sent (reorgItem a) ∈ changeAtMissedNext := by
    rw [heq]
    exact List.mem_append_left _ hmem
  simp [changeAtMissedNext, changeAtMissed, changeAtFirst] at hreorg

end LiveConfig

end EventScanner
