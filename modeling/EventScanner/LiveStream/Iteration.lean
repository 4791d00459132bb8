import EventScanner.LiveStream.Buffer
import EventScanner.LiveStream.Progress

set_option relaxedAutoImplicit false
set_option autoImplicit false

/-!
# A round of the main loop meets its specification

What the live stream does for one header while the chain does not change and the calls succeed: it
reports a reorg of the previous batch end, if there is one, and then streams the blocks from behind
that block, or from behind the common ancestor, up to the confirmed block.

## Main definitions

* `EventScanner.LiveConfig.Undisturbed` — the assumptions on the calls and the channel.
* `EventScanner.LiveConfig.RoundStart` — what the check at the beginning of a round decides.
* `EventScanner.LiveConfig.RoundMeets` — the specification of a round.

## Main results

* `EventScanner.LiveConfig.liveIteration_meets` — every round of every live stream meets it.
-/

namespace EventScanner

open HashChain

variable {Hash : Type}

namespace LiveConfig

variable (cfg : LiveConfig Hash)

/-- Nothing disturbs the run between two logs: the chain does not change, no call fails, which the
stream would report, and the receiver is still there at the end. -/
structure Undisturbed (chain : Chain Hash) (log log' : Log Hash) : Prop where
  /-- The calls are answered from the chain. -/
  answersFrom : cfg.provider.AnswersFrom chain log log'
  /-- No error is streamed. -/
  noError : ∀ new e, log' = new ++ log → .sent (.error e) ∉ new
  /-- The consumer still listens. -/
  isOpen : cfg.sender.isOpen log' = true

variable {cfg} {chain : Chain Hash} {log log₁ log' : Log Hash}

/-- The part of a run behind some of its events. -/
lemma Undisturbed.of_suffix (h : cfg.Undisturbed chain log log') (hs : log <:+ log₁) :
    cfg.Undisturbed chain log₁ log' where
  answersFrom := h.answersFrom.of_suffix hs
  noError := by
    obtain ⟨between, rfl⟩ := hs
    rintro new e rfl hmem
    exact h.noError (new ++ between) e (List.append_assoc ..).symm (List.mem_append_left _ hmem)
  isOpen := h.isOpen

/-- Such a run succeeds. -/
lemma Undisturbed.succeeds (h : cfg.Undisturbed chain log log') :
    cfg.Succeeds log log' chain.hashes where
  fault_eq := h.answersFrom.fault_eq
  hashes_eq k hk hlt := congrArg Chain.hashes (h.answersFrom.view_eq k hk hlt)
  isOpen := h.isOpen

/-- An undisturbed run has not streamed an error. -/
lemma Undisturbed.not_sent_error {e : ScannerError} (h : cfg.Undisturbed chain log log')
    (hs : log <:+ log₁) (hsent : .sent (.error e) :: log₁ <:+ log') : False := by
  obtain ⟨between, rfl⟩ := hs
  obtain ⟨behind, rfl⟩ := hsent
  refine h.noError (behind ++ .sent (.error e) :: between) e ?_ ?_
  · simp
  · simp

/-- An undisturbed run does not stream an error as long as the receiver is there. -/
lemma Undisturbed.not_tryStream_error {α : Type} {e : ScannerError}
    {f : ChannelState → Proc (Event Hash) α}
    (h : cfg.Undisturbed chain log ((tryStream cfg.sender (.error e) >>= f).run log₁).2)
    (hs : log <:+ log₁) : False := by
  have hgrows := Proc.grows (tryStream cfg.sender (.error e) >>= f) log₁
  have hopen := Sender.isOpen_of_suffix hgrows h.isOpen
  have hsend := run_tryStream cfg.sender (.error e) log₁
  rw [if_pos hopen] at hsend
  rw [Proc.run_bind_some hsend] at h
  exact h.not_sent_error hs (Proc.grows _ _)

variable [DecidableEq Hash] {h : DefaultReorgHandler Hash} {fuel : ℕ}
  {iter : RangeIterator .forward} {last : Option (Block Hash)}

/-- An undisturbed batch loop has read the last block of its range, so the chain is that high.

**Proof sketch.** Induction on the fuel. A round that could not read the last block of its batch
would stream an error. -/
lemma Undisturbed.stop_lt (hprov : h.provider = cfg.provider) (hwf : iter.Wf)
    (hu : cfg.Undisturbed chain log ((streamBatches cfg.sender cfg.provider cfg.minCommonAncestor
      fuel iter last h).run log).2)
    (hle : iter.current ≤ iter.stop) (hfuel : iter.stop < fuel + iter.current) :
    iter.stop < chain.hashes.length := by
  induction fuel generalizing iter last h log with
  | zero => omega
  | succ fuel ih =>
    obtain ⟨batch, iter', hnext⟩ := hwf.exists_next hle
    obtain ⟨-, hbatch, hcur, hstop', -, hwf'⟩ := hwf.next_eq_some hnext
    have hbatchStop : iter.current ≤ batch.stop ∧ batch.stop ≤ iter.stop := by
      rw [hbatch]
      dsimp only
      omega
    by_cases hheight : batch.stop < chain.hashes.length
    · obtain ⟨b, -, -, hrun⟩ := run_round_of_succeeds hprov hnext hheight hu.succeeds
      rw [hrun] at hu
      by_cases hend : iter.stop ≤ batch.stop
      · omega
      · rw [← hstop']
        exact ih ((DefaultReorgHandler.remember_provider h b).trans hprov) hwf'
          (hu.of_suffix (List.suffix_append [_, _, _, _] log)) (by omega) (by omega)
    · simp only [streamBatches, hnext] at hu
      generalize hres : Proc.run _ log = out at hu
      obtain ⟨hfetch, -⟩ := hu.answersFrom.run_getBlockByNumber hres
      have hfind : cfg.provider.findTag (clock log) (.number batch.stop) chain = none :=
        Chain.blockAt_eq_none (Nat.le_of_not_lt hheight)
      rw [hfind] at hfetch
      dsimp only [Option.elim_none] at hfetch
      rw [← congrArg Prod.snd hfetch] at hu
      exact (hu.not_tryStream_error (List.suffix_cons _ log)).elim

/-- The check at the beginning of an undisturbed round is answered. -/
lemma Undisturbed.exists_checksOn {n batchStart : ℕ} {p : Block Hash}
    (hprov : h.provider = cfg.provider)
    (hu : cfg.Undisturbed chain log
      ((cfg.liveIteration fuel (.ok n) ⟨batchStart, some p⟩ h).run log).2) :
    ∃ answer h₁ log₁,
      DefaultReorgHandler.ChecksOn chain h p (.received (.ok n) :: log) answer h₁ log₁ := by
  have hsuffix := check_suffix_liveIteration cfg fuel n batchStart p h log
  have hfrom : h.provider.AnswersFrom chain (.received (.ok n) :: log)
      ((checkBlock h p).run (.received (.ok n) :: log)).2 := by
    rw [hprov]
    exact hu.answersFrom.mono (List.suffix_cons _ _) hsuffix
  obtain ⟨h', reqs, -, ⟨e, -, hrun⟩ | ⟨a, hcheck, hrun⟩⟩ := checkBlock_cases h p
    (.received (.ok n) :: log)
  · unfold liveIteration at hu
    rw [Proc.run_bind_emit] at hu
    dsimp only at hu
    rw [Proc.run_bind_some hrun] at hu
    refine (hu.not_tryStream_error ?_).elim
    exact (List.suffix_cons _ _).trans (List.suffix_append _ _)
  · rw [hrun] at hfrom
    exact ⟨a, h', _, hcheck, hfrom.mono (List.suffix_refl _) (List.suffix_cons _ _)⟩

/-! ### Buffered blocks were seen -/

variable (cfg) in
/-- The handler asks the same node as the stream, where all its blocks have been on the chain. -/
structure HasSeen (h : DefaultReorgHandler Hash) : Prop where
  /-- The handler and the stream share the provider. -/
  provider_eq : h.provider = cfg.provider
  /-- The buffered blocks have been on the chain. -/
  seen : ∀ c ∈ h.buffer.inner, ∃ k, (cfg.provider.view k).Canonical c

/-- A check only takes in the checked block, and only when it is on the chain. -/
lemma HasSeen.check {h' : DefaultReorgHandler Hash} {b : Block Hash} {reqs : Log Hash}
    {answer : Option (Block Hash)} (hI : cfg.HasSeen h)
    (hcheck : (ReorgHandler.check h b).run log = (some (.ok answer, h'), reqs ++ log)) :
    cfg.HasSeen h' := by
  obtain ⟨hprov, hseen⟩ := hI
  refine ⟨(DefaultReorgHandler.check_provider hcheck).trans hprov, fun c hc => ?_⟩
  cases answer with
  | none =>
    obtain ⟨rfl, hsees, -⟩ := DefaultReorgHandler.check_eq_ok_none hcheck
    rcases DefaultReorgHandler.mem_of_mem_remember hc with rfl | hc
    · exact ⟨_, hprov ▸ hsees.2⟩
    · exact hseen c hc
  | some a =>
    obtain ⟨-, -, hsearch⟩ := DefaultReorgHandler.check_eq_ok_some hcheck
    obtain ⟨-, -, -, ⟨older, -, hsuffix, -⟩ | ⟨-, hkept⟩⟩ := hsearch.answer
    · exact hseen c (hsuffix.subset hc)
    · rw [hkept] at hc
      exact absurd hc List.not_mem_nil

omit [DecidableEq Hash] in
/-- The newest block of a buffer is known by its hash. -/
lemma HasSeen.exists_newest {b : Block Hash} {k : ℕ} (hI : cfg.HasSeen h)
    (hback : h.buffer.back.map Block.hash = some b.hash) (hb : (cfg.provider.view k).Canonical b) :
    ∃ e ∈ h.buffer.back, e.hash = b.hash ∧ (HashesDistinct cfg.provider.view → e = b) := by
  obtain ⟨e, he, hhash⟩ := Option.map_eq_some_iff.mp hback
  refine ⟨e, he, hhash, fun hdistinct => ?_⟩
  obtain ⟨i, hi⟩ := hI.seen e (List.mem_of_mem_head? he)
  exact hdistinct i k e b hi hb hhash

/-- In every run the buffered blocks have been on the chain, until the stream stops. -/
lemma hasSeen_of_reach {capacity : RingBufferCapacity} {log₀ : Log Hash}
    {t : LiveState Hash (DefaultReorgHandler Hash)}
    (hreach : (liveSystem cfg).Reach ⟨.starting, .new cfg.provider capacity, log₀⟩ t) :
    t.phase ≠ .stopped → cfg.HasSeen t.handler := by
  induction hreach with
  | refl => exact fun _ => ⟨rfl, by simp [DefaultReorgHandler.new, RingBuffer.new]⟩
  | tail _ hst ih =>
    intro hrunning
    cases hst with
    | first | batchesDone | lagged | ignored => exact ih (by simp)
    | batch hb =>
      have hI := ih (by simp)
      cases hb with
      | emit => exact hI
      | clean hcheck => exact hI.check hcheck
      | reorg hcheck => exact hI.check hcheck
    | header hh =>
      have hI := ih (by simp)
      cases hh with
      | clean hcheck => exact hI.check hcheck
      | reorg hcheck => exact hI.check hcheck
    | stop => exact absurd rfl hrunning

/-! ### The specification -/

/-- What the check of the previous batch end `p` decides on one chain: the messages it sends, and
where the stream goes on. -/
inductive RoundStart (cfg : LiveConfig Hash) (chain : Chain Hash) (entries : List (Block Hash))
    (p : Block Hash) : List BlockScannerResult → LiveStreamingState Hash → Prop
  /-- The block is still there: nothing is reported. -/
  | clean : chain.Canonical p → RoundStart cfg chain entries p [] ⟨p.number + 1, some p⟩
  /-- The block was replaced: the common ancestor is reported, and remembered unless it lies before
  the start of the stream. -/
  | reorg {f a : Block Hash} {kept : List (Block Hash)} : ¬chain.Canonical p →
      chain.finalizedBlock = some f →
      DefaultReorgHandler.commonAncestor chain f entries = (a, kept) →
      RoundStart cfg chain entries p [reorgItem a.number]
        ⟨max (a.number + 1) cfg.streamStart, if cfg.streamStart ≤ a.number then some a else none⟩

/-- **The specification of a round** for the header `n` from the previous batch end `p` on. The
round ends at the top of the loop. It sends the messages of the check and then, from where the
stream goes on, the batches up to the confirmed block. If there is no batch, the check has decided
the state, and without a reorg the check was the only call. If there is one, the previous batch end
is now the confirmed block, and its hash is the newest one in the buffer. -/
def RoundMeets (cfg : LiveConfig Hash) (chain : Chain Hash) (fuel n batchStart : ℕ) (p : Block Hash)
    (h : DefaultReorgHandler Hash) (log : Log Hash) : Prop :=
  ∃ notices resume rs state' h' log',
    cfg.RoundStart chain h.buffer.inner p notices resume ∧
    (cfg.liveIteration fuel (.ok n) ⟨batchStart, some p⟩ h).run log =
      (some (some (state', h')), log') ∧
    RangeInclusive.Chunks cfg.maxBlockRange resume.batchStart (cfg.confirmed n) rs ∧
    messages log' = messages log ++ (notices ++ rs.map dataItem) ∧
    (rs = [] → state' = resume ∧ (chain.Canonical p → log' = .checked p none ::
      .request (.blockByNumber (.number p.number)) :: .received (.ok n) :: log)) ∧
    (rs ≠ [] → ∃ b, state' = ⟨cfg.confirmed n + 1, some b⟩ ∧ b.number = cfg.confirmed n ∧
      chain.Canonical b ∧ (h.buffer.capacity.Admits 1 → ∃ e ∈ h'.buffer.back, e.hash = b.hash ∧
        (HashesDistinct cfg.provider.view → e = b)))

section Round

variable {capacity : RingBufferCapacity} {log₀ : Log Hash} {batchStart : ℕ} {p : Block Hash}

/-- Where the stream goes on behind a check on one chain, and what the check sends. -/
lemma roundStart_of_checksOn {h₁ : DefaultReorgHandler Hash} {log₁ : Log Hash}
    {answer : Option (Block Hash)}
    (hcheck : DefaultReorgHandler.ChecksOn chain h p log answer h₁ log₁) :
    cfg.RoundStart chain h.buffer.inner p (messages (reorgNotice answer))
      (cfg.afterCheck p answer) := by
  rcases hcheck.cases with ⟨hcan, rfl, -⟩ | ⟨hgone, -, -, f, a, hf, rfl, heq⟩
  · exact .clean hcan
  · have hresume : cfg.afterCheck p (some a) = ⟨max (a.number + 1) cfg.streamStart,
        if cfg.streamStart ≤ a.number then some a else none⟩ := by
      change cfg.afterReorg a = _
      unfold afterReorg
      by_cases ha : a.number < cfg.streamStart
      · rw [if_pos ha, if_neg (Nat.not_le_of_lt ha), Nat.max_eq_right ha]
      · rw [if_neg ha, if_pos (Nat.le_of_not_lt ha), Nat.max_eq_left (by omega)]
    rw [hresume]
    exact .reorg hgone hf heq

/-- Behind the report, an undisturbed round streams up to the confirmed block, which the chain
has. -/
lemma Undisturbed.confirmed_lt {n : ℕ} {state : LiveStreamingState Hash}
    (hprov : h.provider = cfg.provider) (hle : state.batchStart ≤ cfg.confirmed n)
    (hu : cfg.Undisturbed chain log ((cfg.streamUpTo fuel n state h).run log).2)
    (hfuel : cfg.confirmed n + 2 ≤ fuel) : cfg.confirmed n < chain.hashes.length := by
  rw [cfg.streamUpTo_log hle] at hu
  exact hu.stop_lt hprov (RangeIterator.wf_forward ..) hle
    (by dsimp only [RangeIterator.forward]; omega)

/-- **Every round of a live stream meets its specification**, in which nothing disturbs it.

**Proof sketch.** The check decides from where the round goes on. If that is above the confirmed
block, nothing else happens; otherwise the batch loop sends all batches, and the last check of the
loop has made the confirmed block the newest one in the buffer. -/
theorem liveIteration_meets
    (hreach : (liveSystem cfg).Reach ⟨.starting, .new cfg.provider capacity, log₀⟩
      ⟨.waiting ⟨batchStart, some p⟩, h, log⟩)
    {n : ℕ} (hfuel : cfg.confirmed n + 2 ≤ fuel)
    (hu : cfg.Undisturbed chain log
      ((cfg.liveIteration fuel (.ok n) ⟨batchStart, some p⟩ h).run log).2) :
    cfg.RoundMeets chain fuel n batchStart p h log := by
  have hseen : cfg.HasSeen h := hasSeen_of_reach hreach (by simp)
  have hok : BufferOk capacity _ h.buffer := (bufferOk_of_reach hreach).2 (by simp)
  obtain ⟨answer, h₁, log₁, hcheck⟩ := hu.exists_checksOn hseen.provider_eq
  obtain ⟨_, _, reqs, hquiet, hreqs⟩ := ReorgHandler.check_quiet h p (.received (.ok n) :: log)
  obtain rfl : log₁ = reqs ++ .received (.ok n) :: log :=
    congrArg Prod.snd (hcheck.run_eq.symm.trans hquiet)
  have hrun := run_liveIteration_of_check hcheck.run_eq hu.isOpen
  have hsuffix := suffix_reorgNotice p answer reqs n log
  set log₂ := reorgNotice answer ++ .checked p answer :: (reqs ++ .received (.ok n) :: log)
  have hmessages : messages log₂ = messages log ++ messages (reorgNotice answer) := by
    rw [messages_append, messages_checked, messages_append, messages_of_isRequest hreqs,
      messages_received, List.append_nil]
  by_cases hlt : cfg.confirmed n < (cfg.afterCheck p answer).batchStart
  · rw [cfg.run_streamUpTo_of_lt hlt] at hrun
    refine ⟨_, _, [], _, _, _, roundStart_of_checksOn hcheck, hrun, hlt, by simpa using hmessages,
      fun _ => ⟨rfl, fun hcan => ?_⟩, by simp⟩
    rcases hcheck.cases with ⟨-, rfl, -⟩ | ⟨hgone, -⟩
    · obtain ⟨-, -, rfl⟩ := DefaultReorgHandler.check_eq_ok_none hcheck.run_eq
      rfl
    · exact absurd hcan hgone
  · have hle := Nat.le_of_not_lt hlt
    have hprov₁ := (DefaultReorgHandler.check_provider hcheck.run_eq).trans hseen.provider_eq
    have hu₂ := hu.of_suffix hsuffix
    rw [hrun] at hu₂
    obtain ⟨rs, b, h', log', hchunks, hnum, hhash, hnewest, hrun', -, hsent⟩ :=
      run_streamUpTo_of_succeeds hprov₁ hle hu₂.succeeds (hu₂.confirmed_lt hprov₁ hle hfuel) hfuel
    have hne : rs ≠ [] := by
      rintro rfl
      exact Nat.not_lt_of_le hle hchunks
    rw [hrun'] at hrun
    refine ⟨_, _, rs, _, _, _, roundStart_of_checksOn hcheck, hrun, hchunks, ?_,
      fun hnil => absurd hnil hne, fun _ => ⟨b, rfl, hnum, hhash, fun hone => ?_⟩⟩
    · rw [hsent, hmessages, List.append_assoc]
    · have hcapacity := DefaultReorgHandler.check_capacity hcheck.run_eq
      have hadmits₁ := DefaultReorgHandler.check_admits (hok.capacity_eq ▸ hok.admits) hcheck.run_eq
      have hback := hnewest (hcapacity ▸ hadmits₁) (hcapacity ▸ hone)
      obtain ⟨t, ht, -, hend⟩ := cfg.liveIteration_reach fuel (.ok n) ⟨batchStart, some p⟩ h log
      rw [hrun] at hend
      rw [hend _ _ rfl] at ht
      have hlast : cfg.HasSeen h' := hasSeen_of_reach (hreach.trans ht) (by simp)
      -- the chain was seen by the first call of the round
      have hcall := clock_le_of_suffix (h.request_suffix_check p (.received (.ok n) :: log))
      rw [hcheck.run_eq, clock_request, clock_received] at hcall
      dsimp only at hcall
      have hview := hcheck.answersFrom.view_eq (clock log) (by simp) (by omega)
      rw [hseen.provider_eq] at hview
      exact hlast.exists_newest hback (hview ▸ hhash)

end Round

/-! ### A round behind a reorg -/

/-- The log behind a second header `2`: block `2` was replaced, block `1` is the common ancestor,
and the new block `2` is sent. -/
def caughtUpAgain : Log ℕ :=
  [.checked ⟨2, 12⟩ none, .request (.blockByNumber (.number 2)), .sent (dataItem ⟨2, 2⟩),
    .request (.blockByNumber (.number 2)), .sent (reorgItem 1), .checked ⟨2, 2⟩ (some ⟨1, 1⟩),
    .request (.blockByNumber .finalized), .request (.blockByNumber (.number 1)),
    .request (.blockByNumber (.number 2)), .request (.blockByNumber (.number 2)),
    .received (.ok 2)] ++ caughtUp

/-- A round with a reorg, in the stream of which block `2` is replaced behind the catch-up. -/
theorem liveIteration_meets_caughtUp :
    RoundMeets blockByBlock (.ofHashes 0 [1, 12] 0) 4 2 1 (⟨2, 2⟩ : Block ℕ)
      ⟨replacedAfterCatchUp, [⟨2, 2⟩, ⟨1, 1⟩], .infinite⟩ caughtUp := by
  have hfirst : (blockByBlock.initializeLiveStreamingState 3 2
      (DefaultReorgHandler.new replacedAfterCatchUp .infinite)).run [.received (.ok 2)] =
        (some (some ⟨1, some ⟨2, 2⟩⟩, ⟨replacedAfterCatchUp, [⟨2, 2⟩, ⟨1, 1⟩], .infinite⟩),
          caughtUp) := rfl
  have hround : ((blockByBlock.liveIteration 4 (.ok 2) ⟨1, some ⟨2, 2⟩⟩
      (⟨replacedAfterCatchUp, [⟨2, 2⟩, ⟨1, 1⟩], .infinite⟩ :
        DefaultReorgHandler ℕ)).run caughtUp).2 = caughtUpAgain := rfl
  refine liveIteration_meets (LoopTop.reach blockByBlock (.first (by decide) (Or.inl rfl) hfirst))
    (by decide) ⟨⟨fun _ _ _ => rfl, fun _ hk _ => switchAt_of_le hk _ _⟩, ?_, rfl⟩
  rw [hround]
  intro new e hnew hmem
  have hsent : .sent (.error e) ∈ caughtUpAgain := hnew ▸ List.mem_append_left caughtUp hmem
  simp [caughtUpAgain, caughtUp] at hsent

end LiveConfig

end EventScanner
