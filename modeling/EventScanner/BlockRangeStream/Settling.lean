import EventScanner.BlockRangeScanner.LiveRun
import EventScanner.BlockRangeStream.Termination
import EventScanner.SyncStream.Phases

set_option relaxedAutoImplicit false
set_option autoImplicit false

/-!
# Streams over a chain that settles

From some provider call on the chain does not change any more. Before that call each reorg that a
stream reports has taken a call of its own, and behind it a check can only find blocks replaced that
were fetched before. There is one such block at most; it may be reported twice, by the batch it ends
and by the next header. So the stream reports no more than two reorgs on top of the calls before the
chain settled, and hence it returns.

## Main definitions

* `EventScanner.RobustProvider.SettlesAt` — the chain does not change from a call on.
* `EventScanner.ReorgsLe` — the reorgs reported so far are few, given the calls made.
* `EventScanner.FetchedBlock`, `EventScanner.HeldBlock` — what is known of a block before its check
  and behind it.

## Main results

* `EventScanner.LiveConfig.calm_step` — the steps of the live stream keep this.
* `EventScanner.BlockRangeScanner.stream_returns` — the streams return.
-/

namespace EventScanner

open HashChain EventLog DefaultReorgHandler

variable {Hash R : Type}

/-- From the `T`-th call on the chain does not change, and a block is not missed by accident. -/
structure RobustProvider.SettlesAt (provider : RobustProvider Hash) (T : ℕ) : Prop where
  /-- The chain does not change. -/
  view : ∀ k, T ≤ k → provider.view k = provider.view T
  /-- No call fails as if a block were missing. -/
  fault : ∀ k, T ≤ k → provider.fault k ≠ some .blockNotFound

/-- Only a reported reorg counts. -/
lemma reorgs_cons_of_silent {e : Event Hash} (he : e.Silent) (log : Log Hash) :
    reorgs (e :: log) = reorgs log := by
  match e with
  | .request _ | .received _ | .checked _ _ => rfl
  | .sent (.error _) | .sent (.ok (.notification .switchingToLive))
  | .sent (.ok (.notification .noPastLogsFound)) =>
    unfold reorgs
    rw [messages_sent, List.countP_append]
    rfl
  | .sent (.ok (.data _)) | .sent (.ok (.notification (.reorgDetected _))) => exact absurd he id

/-- Events from which the consumer learns nothing about blocks report nothing. -/
lemma reorgs_append_of_silent {extra : Log Hash} (h : SilentLog extra) (log : Log Hash) :
    reorgs (extra ++ log) = reorgs log := by
  induction extra with
  | nil => rfl
  | cons e extra ih =>
    obtain ⟨he, hextra⟩ := silentLog_cons.mp h
    rw [List.cons_append, reorgs_cons_of_silent he, ih hextra]

/-- The reorgs reported so far: each one has taken a call, and there are few. -/
structure ReorgsLe (T : ℕ) (log : Log Hash) : Prop where
  /-- Each has taken a call. -/
  le_clock : reorgs log ≤ clock log
  /-- There are few. -/
  le : reorgs log ≤ T + 2

/-- A block that has been fetched and not been checked: one that does not stay was fetched early. -/
def FetchedBlock (provider : RobustProvider Hash) (T : ℕ) (b : Block Hash) (log : Log Hash) :
    Prop :=
  reorgs log ≤ T ∨ (provider.view T).Canonical b

/-- A block that has been checked: one that does not stay may have been reported. -/
def HeldBlock (provider : RobustProvider Hash) (T : ℕ) (b : Block Hash) (log : Log Hash) : Prop :=
  reorgs log ≤ T + 1 ∨ (provider.view T).Canonical b

namespace ReorgsLe

variable {provider : RobustProvider Hash} {T : ℕ} {b : Block Hash} {log log' extra : Log Hash}

/-- Nothing is reported. -/
lemma mono (h : ReorgsLe T log) (hreorgs : reorgs log' = reorgs log)
    (hclock : clock log ≤ clock log') : ReorgsLe T log' where
  le_clock := hreorgs.trans_le (h.le_clock.trans hclock)
  le := hreorgs.trans_le h.le

/-- Events from which the consumer learns nothing about blocks. -/
lemma append (h : ReorgsLe T log) (hextra : SilentLog extra) : ReorgsLe T (extra ++ log) :=
  h.mono (reorgs_append_of_silent hextra log) (clock_le_of_suffix (List.suffix_append _ _))

/-- One such event. -/
lemma cons {e : Event Hash} (h : ReorgsLe T log) (he : e.Silent) : ReorgsLe T (e :: log) :=
  h.mono (reorgs_cons_of_silent he log) (clock_le_of_suffix (List.suffix_cons e log))

/-- A range is no report. -/
lemma data (h : ReorgsLe T log) (range : RangeInclusive) :
    ReorgsLe T (.sent (dataItem range) :: log) :=
  h.mono (reorgs_data range log) (clock_sent _ log).ge

/-- A block that is fetched after that many reports comes from the settled chain. -/
lemma canonical_of_sees (h : ReorgsLe T log) (hsettles : provider.SettlesAt T) {k : ℕ}
    (hk : clock log ≤ k) (hsees : Sees provider k b) (hlt : T < reorgs log) :
    (provider.view T).Canonical b := by
  have hclock := h.le_clock
  rw [← hsettles.view k (by omega)]
  exact hsees.2

/-- A block is fetched. -/
lemma fetched (h : ReorgsLe T log) (hsettles : provider.SettlesAt T)
    (hsees : Sees provider (clock log) b) : FetchedBlock provider T b log := by
  rcases Nat.lt_or_ge T (reorgs log) with hlt | hle
  · exact Or.inr (h.canonical_of_sees hsettles le_rfl hsees hlt)
  · exact Or.inl hle

/-- A block of the settled chain is missed only before the chain settles. -/
lemma le_of_misses (h : ReorgsLe T log) (hsettles : provider.SettlesAt T)
    (hmiss : Misses provider (clock log) b) (hb : (provider.view T).Canonical b) :
    reorgs log ≤ T := by
  by_contra hlt
  have hclock := h.le_clock
  rcases hmiss with hfault | ⟨-, hgone⟩
  · exact hsettles.fault _ (by omega) hfault
  · rw [hsettles.view _ (by omega)] at hgone
    exact hgone hb

/-- A reorg is reported behind a call. -/
lemma report (h : ReorgsLe T log) (hle : reorgs log ≤ T + 1) (a : ℕ)
    (hreorgs : reorgs log' = reorgs log) (hclock : clock log + 1 ≤ clock log') :
    ReorgsLe T (.sent (reorgItem a) :: log') where
  le_clock := by
    have hbefore := h.le_clock
    rw [reorgs_reorg, clock_sent]
    omega
  le := by
    rw [reorgs_reorg]
    omega

end ReorgsLe

/-- The ancestor that a search finds is one that it has seen. -/
lemma DefaultReorgHandler.Search.exists_sees {provider : RobustProvider Hash}
    {entries kept : List (Block Hash)} {log log' : Log Hash} {a : Block Hash}
    (h : Search provider entries log a kept log') :
    ∃ k, clock log ≤ k ∧ Sees provider k a := by
  induction h with
  | skip _ _ ih =>
    obtain ⟨k, hk, hsees⟩ := ih
    rw [clock_request] at hk
    exact ⟨k, by omega, hsees⟩
  | found hsees _ _ => exact ⟨_, le_rfl, hsees⟩
  | tooOld _ hfinalized _ => exact ⟨_, Nat.le_succ _, hfinalized.1, hfinalized.2.1⟩
  | exhausted hfinalized => exact ⟨_, le_rfl, hfinalized.1, hfinalized.2.1⟩

/-! ### The live stream -/

section Live

variable [DecidableEq Hash] {provider : RobustProvider Hash} {T : ℕ}
  {h h' : DefaultReorgHandler Hash} {b a : Block Hash} {log reqs : Log Hash}

/-- What a check does that finds a block replaced. -/
lemma ReorgsLe.of_check_some (hI : ReorgsLe T log) (hsettles : h.provider.SettlesAt T)
    (hheld : HeldBlock h.provider T b log)
    (hcheck : (ReorgHandler.check h b).run log = (some (.ok (some a), h'), reqs ++ log))
    (hreqs : ∀ e ∈ reqs, e.isRequest = true) :
    ReorgsLe T (.sent (reorgItem a.number) :: .checked b (some a) :: (reqs ++ log)) ∧
      HeldBlock h.provider T a
        (.sent (reorgItem a.number) :: .checked b (some a) :: (reqs ++ log)) := by
  obtain ⟨-, hmiss, hsearch⟩ := check_eq_ok_some hcheck
  have hle : reorgs log ≤ T + 1 := by
    rcases hheld with hle | hb
    · exact hle
    · exact Nat.le_succ_of_le (hI.le_of_misses hsettles hmiss hb)
  have hreorgs : reorgs (.checked b (some a) :: (reqs ++ log)) = reorgs log := by
    rw [reorgs_checked, reorgs_append_of_isRequest hreqs]
  have hclock : clock log + 1 ≤ clock (.checked b (some a) :: (reqs ++ log)) := by
    have hsuffix := request_suffix_check h b log
    rw [hcheck] at hsuffix
    have hle := clock_le_of_suffix hsuffix
    rwa [clock_request] at hle
  refine ⟨hI.report hle _ hreorgs hclock, ?_⟩
  obtain ⟨k, hk, hsees⟩ := hsearch.exists_sees
  rw [clock_request] at hk
  rcases Nat.lt_or_ge T (reorgs log) with hlt | hle
  · exact Or.inr (hI.canonical_of_sees hsettles (by omega) hsees hlt)
  · refine Or.inl ?_
    rw [reorgs_reorg, hreorgs]
    omega

namespace LiveConfig

variable {cfg : LiveConfig Hash} {s t : LiveState Hash (DefaultReorgHandler Hash)}

/-- What is known of the block that the live stream has in its hands. -/
def Settling (cfg : LiveConfig Hash) (T : ℕ) (log : Log Hash) : LivePhase Hash → Prop
  | .streaming (.sent _ b) _ => FetchedBlock cfg.provider T b log
  | .streaming (.ready _ (some b)) _ | .waiting ⟨_, some b⟩ => HeldBlock cfg.provider T b log
  | .streaming (.ready _ none) _ | .waiting ⟨_, none⟩ | .starting | .stopped => True

/-- The state of a live stream that has reported few reorgs. -/
structure Calm (cfg : LiveConfig Hash) (T : ℕ) (s : LiveState Hash (DefaultReorgHandler Hash)) :
    Prop where
  /-- The reorg handler asks the provider of the stream. -/
  provider : s.phase ≠ .stopped → s.handler.provider = cfg.provider
  /-- Few reorgs have been reported. -/
  reorgs : ReorgsLe T s.log
  /-- What is known of the block at hand. -/
  block : cfg.Settling T s.log s.phase

omit [DecidableEq Hash] in
/-- The stream goes on with the block that it holds. -/
lemma settling_proceed {n : ℕ} {state : LiveStreamingState Hash} {log : Log Hash}
    (h : ∀ b, state.previousBatchEnd = some b → HeldBlock cfg.provider T b log) :
    cfg.Settling T log (cfg.proceed n state) := by
  unfold proceed
  split_ifs
  · obtain ⟨batchStart, _ | b⟩ := state
    · trivial
    · exact h b rfl
  · trivial

/-- **The steps of the live stream** report few reorgs.

**Proof sketch.** Once `T + 1` reorgs have been reported, the chain has settled, and every block
fetched from then on stays. A block in a batch that does not stay was fetched before, when at most
`T` reorgs had been reported; it is still held when its replacement has been reported. -/
lemma calm_step (hsettles : cfg.provider.SettlesAt T) (hst : LiveStep cfg s t)
    (hI : cfg.Calm T s) : cfg.Calm T t := by
  obtain ⟨hprovider, hreorgs, hblock⟩ := hI
  cases hst with
  | @first n h log notice hrel hnotice =>
    have hsilent : SilentLog (notice ++ [.received (.ok n)]) := by
      rcases hnotice with rfl | rfl <;> simp
    have hreorgs' := hreorgs.append hsilent
    rw [List.append_assoc, List.singleton_append] at hreorgs'
    exact ⟨fun _ => hprovider (by simp), hreorgs', trivial⟩
  | @batch p p' resume h h' log log' hb =>
    replace hprovider : h.provider = cfg.provider := hprovider (by simp)
    cases hb with
    | emit hnext hnum hsees =>
      have hfetched := hreorgs.fetched hsettles hsees
      refine ⟨fun _ => hprovider, ?_, ?_⟩
      · exact (hreorgs.cons (Event.silent_request _)).data _
      · show FetchedBlock _ _ _ _
        unfold FetchedBlock
        rwa [reorgs_data, reorgs_request]
    | clean hcheck hreqs =>
      obtain ⟨rfl, -, -⟩ := check_eq_ok_none hcheck
      refine ⟨fun _ => ?_, (hreorgs.append (silentLog_of_isRequest hreqs)).cons
        (Event.silent_checked _ _), ?_⟩
      · unfold remember
        split_ifs <;> exact hprovider
      · show HeldBlock _ _ _ _
        unfold HeldBlock
        rw [reorgs_checked, reorgs_append_of_isRequest hreqs]
        exact hblock.imp_left Nat.le_succ_of_le
    | @reorg iter b a _ _ _ reqs hcheck hreqs =>
      obtain ⟨hprovider', hmiss, -⟩ := check_eq_ok_some hcheck
      have hsettles' : h.provider.SettlesAt T := by rwa [hprovider]
      have hfetched : FetchedBlock h.provider T b log := by rwa [hprovider]
      have hle : EventScanner.reorgs log ≤ T := by
        rcases hfetched with hle | hb
        · exact hle
        · exact hreorgs.le_of_misses hsettles' hmiss hb
      refine ⟨fun _ => hprovider'.trans hprovider, (hreorgs.of_check_some hsettles'
        (hfetched.imp_left Nat.le_succ_of_le) hcheck hreqs).1, Or.inl ?_⟩
      rw [reorgs_reorg, reorgs_checked, reorgs_append_of_isRequest hreqs]
      omega
  | batchesDone hnext => exact ⟨fun _ => hprovider (by simp), hreorgs, hblock⟩
  | @lagged state skipped h log =>
    refine ⟨fun _ => hprovider (by simp), hreorgs.cons (Event.silent_received _), ?_⟩
    obtain ⟨batchStart, _ | b⟩ := state <;> exact hblock
  | ignored =>
    exact ⟨fun _ => hprovider (by simp), hreorgs.cons (Event.silent_received _), trivial⟩
  | @header n batchStart b h h' log log' state hheader =>
    replace hprovider : h.provider = cfg.provider := hprovider (by simp)
    have hreorgs' := hreorgs.cons (Event.silent_received (.ok n))
    cases hheader with
    | @clean _ _ _ reqs hcheck hreqs =>
      obtain ⟨rfl, -, -⟩ := check_eq_ok_none hcheck
      refine ⟨fun _ => ?_, (hreorgs'.append (silentLog_of_isRequest hreqs)).cons
        (Event.silent_checked _ _), settling_proceed fun b' hb' => ?_⟩
      · unfold remember
        split_ifs <;> exact hprovider
      · obtain rfl := Option.some.inj hb'
        show HeldBlock _ _ _ _
        unfold HeldBlock
        rw [reorgs_checked, reorgs_append_of_isRequest hreqs]
        exact hblock
    | @reorg a _ _ _ reqs hcheck hreqs =>
      obtain ⟨hprovider', -⟩ := check_eq_ok_some hcheck
      have hsettles' : h.provider.SettlesAt T := by rwa [hprovider]
      have hheld : HeldBlock h.provider T b (.received (.ok n) :: log) := by rwa [hprovider]
      obtain ⟨hreorgs'', hheld'⟩ := hreorgs'.of_check_some hsettles' hheld hcheck hreqs
      refine ⟨fun _ => hprovider'.trans hprovider, hreorgs'', settling_proceed fun b' hb' => ?_⟩
      unfold afterReorg at hb'
      split_ifs at hb'
      obtain rfl := Option.some.inj hb'
      rw [hprovider] at hheld'
      exact hheld'
  | stop hextra => exact ⟨fun h => absurd rfl h, hreorgs.append hextra, trivial⟩

/-- The live stream reports few reorgs, from any log behind which it may begin. -/
lemma reorgsLe_streamLiveBlocks (hsettles : cfg.provider.SettlesAt T) (fuel : ℕ)
    (subscription : List SubscriptionItem) {h : DefaultReorgHandler Hash}
    (hprovider : h.provider = cfg.provider) (notifyAfterFirstBlock : Bool) {log : Log Hash}
    (hlog : ReorgsLe T log) :
    ReorgsLe T ((cfg.streamLiveBlocks fuel subscription h notifyAfterFirstBlock).run log).2 := by
  obtain ⟨t, ht, heq⟩ := cfg.streamLiveBlocks_reach fuel subscription h notifyAfterFirstBlock log
  rw [← heq]
  clear heq
  have hcalm : cfg.Calm T t := by
    induction ht with
    | refl => exact ⟨fun _ => hprovider, hlog, trivial⟩
    | tail _ hst ih => exact calm_step hsettles hst ih
  exact hcalm.reorgs

end LiveConfig

end Live

/-! ### The historical and the sync stream -/

section Historical

variable {T : ℕ}

/-- A call, and the block that it answers with. -/
lemma triple_getBlockByNumber_sees {provider : RobustProvider Hash} {n : ℕ} {E : Log Hash → Prop}
    {P : Log Hash → Prop} :
    Proc.Triple P (getBlockByNumber provider (.number n))
      (fun answer log => ∃ before, log = .request (.blockByNumber (.number n)) :: before ∧
        P before ∧ ∀ b, answer = .ok b → b.number = n ∧ Sees provider (clock before) b) E :=
  fun log hP => ⟨log, rfl, hP, fun _ hanswer => answer_number_eq_ok hanswer⟩

/-- A run begins without a report. -/
lemma reorgsLe_nil : ReorgsLe T ([] : Log Hash) := ⟨le_rfl, Nat.zero_le _⟩

variable [DecidableEq Hash]

namespace HistoricalRangeHandler

variable (self : HistoricalRangeHandler Hash)

/-- Few reorgs have been reported, and what is known of the end block. -/
def EndHeld (T : ℕ) (endBlock : Block Hash) (log : Log Hash) : Prop :=
  ReorgsLe T log ∧ HeldBlock self.provider T endBlock log

/-- The part of a range that is sent until its last block stands still.

**Proof sketch.** Induction on the fuel. A new end block that does not stay was fetched before the
chain had settled. -/
lemma triple_streamUntilStable_reorgsLe (hsettles : self.provider.SettlesAt T)
    (nonFinalizedStart minCommonAncestor fuel : ℕ) (endBlock : Block Hash) :
    Proc.Triple (self.EndHeld T endBlock)
      (self.streamUntilStable nonFinalizedStart minCommonAncestor fuel endBlock)
      (fun _ => ReorgsLe T) (ReorgsLe T) := by
  induction fuel generalizing endBlock with
  | zero => exact Proc.Triple.halt fun _ hlog => hlog.1
  | succ fuel ih =>
    refine Proc.Triple.bind (triple_streamRanges_of_sent (P := self.EndHeld T endBlock)
      fun range _ log hlog => ⟨hlog.1.data range, ?_⟩) fun channel => ?_
    · unfold HeldBlock
      rw [reorgs_data]
      exact hlog.2
    cases channel with
    | closed => exact Proc.Triple.pure fun _ hlog => hlog.1
    | opened =>
      refine Proc.Triple.bind (Q := fun new log => ReorgsLe T log ∧ ∀ newEndBlock,
        new = some newEndBlock → ∃ before,
          log = .request (.blockByNumber (.number endBlock.number)) :: before ∧
          self.EndHeld T endBlock before ∧ newEndBlock.number = endBlock.number ∧
          newEndBlock.hash ≠ endBlock.hash ∧ Sees self.provider (clock before) newEndBlock) ?_
        fun new => ?_
      · refine Proc.Triple.bind (triple_getBlockByNumber_sees (P := self.EndHeld T endBlock))
          fun answer => ?_
        rcases answer with e | newEndBlock
        · refine Proc.Triple.bind (Q := fun _ => ReorgsLe T) (triple_tryStream ?_ ?_) fun _ =>
            Proc.Triple.pure fun _ hlog => ⟨hlog, by simp⟩
          · rintro _ ⟨before, rfl, hbefore, -⟩
            exact (hbefore.1.cons (Event.silent_request _)).cons (Event.silent_error _)
          · rintro _ ⟨before, rfl, hbefore, -⟩
            exact hbefore.1.cons (Event.silent_request _)
        · dsimp only
          split_ifs with heq
          · refine Proc.Triple.pure ?_
            rintro _ ⟨before, rfl, hbefore, -⟩
            exact ⟨hbefore.1.cons (Event.silent_request _), by simp⟩
          · refine Proc.Triple.pure ?_
            rintro _ ⟨before, rfl, hbefore, hanswer⟩
            obtain ⟨hnum, hsees⟩ := hanswer _ rfl
            refine ⟨hbefore.1.cons (Event.silent_request _), fun newEndBlock' hnew => ?_⟩
            obtain rfl := Option.some.inj hnew
            exact ⟨before, rfl, hbefore, hnum, heq, hsees⟩
      rcases new with _ | newEndBlock
      · exact Proc.Triple.pure fun _ hlog => hlog.1
      refine Proc.Triple.bind (Q := fun channel log => if channel.isClosed then ReorgsLe T log
        else self.EndHeld T newEndBlock log) (triple_tryStream ?_ ?_) fun channel => ?_
      · rintro _ ⟨-, hnew⟩
        obtain ⟨before, rfl, ⟨hreorgs, hheld⟩, hnum, hne, hsees⟩ := hnew newEndBlock rfl
        have hmiss : Misses self.provider (clock before) endBlock :=
          Or.inr ⟨hsees.1, fun hb => hne (congrArg Block.hash (hsees.2.eq_of_number_eq hb hnum))⟩
        have hle : reorgs before ≤ T + 1 := by
          rcases hheld with hle | hb
          · exact hle
          · exact Nat.le_succ_of_le (hreorgs.le_of_misses hsettles hmiss hb)
        refine ⟨hreorgs.report hle _ rfl (clock_request _ _).ge, ?_⟩
        refine (hreorgs.fetched hsettles hsees).imp_left fun hle => ?_
        rw [reorgs_reorg, reorgs_request]
        omega
      · exact fun _ hlog => hlog.1
      cases channel with
      | closed => exact Proc.Triple.pure fun _ hlog => hlog
      | opened => exact ih newEndBlock

/-- The historical stream, and a pass of the sync stream. -/
lemma triple_handleStreamHistoricalRange_reorgsLe (hsettles : self.provider.SettlesAt T)
    (fuel : ℕ) :
    Proc.Triple (ReorgsLe T) (self.handleStreamHistoricalRange fuel) (fun _ => ReorgsLe T)
      (ReorgsLe T) := by
  refine Proc.Triple.bind (Q := fun _ => ReorgsLe T) ?_ fun result => ?_
  · refine Proc.Triple.bind (Q := fun _ => ReorgsLe T)
      (triple_call fun _ _ hlog => hlog.cons (Event.silent_request _)) fun finalized => ?_
    refine Proc.Triple.bind (triple_streamRanges_of_sent (P := ReorgsLe T)
      fun range _ _ hlog => hlog.data range) fun channel => ?_
    cases channel <;> exact Proc.Triple.pure fun _ hlog => hlog
  · rcases result with _ | ⟨nonFinalizedStart, finalizedBlockNum⟩
    · exact Proc.Triple.pure fun _ hlog => hlog
    dsimp only
    split_ifs
    · exact Proc.Triple.pure fun _ hlog => hlog
    refine Proc.Triple.bind (triple_getBlockByNumber_sees (P := ReorgsLe T)) fun answer => ?_
    rcases answer with e | endBlock
    · refine Proc.Triple.bind (Q := fun _ => ReorgsLe T) (triple_tryStream ?_ ?_) fun _ =>
        Proc.Triple.pure fun _ hlog => hlog
      · rintro _ ⟨before, rfl, hbefore, -⟩
        exact (hbefore.cons (Event.silent_request _)).cons (Event.silent_error _)
      · rintro _ ⟨before, rfl, hbefore, -⟩
        exact hbefore.cons (Event.silent_request _)
    · refine (self.triple_streamUntilStable_reorgsLe hsettles _ _ fuel endBlock).conseq ?_
        (fun _ _ hlog => hlog) fun _ hlog => hlog
      rintro _ ⟨before, rfl, hbefore, hanswer⟩
      refine ⟨hbefore.cons (Event.silent_request _), ?_⟩
      exact (hbefore.fetched hsettles (hanswer _ rfl).2).imp_left Nat.le_succ_of_le

end HistoricalRangeHandler

/-- Both phases of the sync stream. -/
lemma SyncHandler.phasesKeep_reorgsLe (self : SyncHandler Hash)
    (hsettles : self.provider.SettlesAt T)
    (hprovider : self.reorgHandler.provider = self.provider) :
    self.PhasesKeep (fun _ => ReorgsLe T) (ReorgsLe T) where
  request _ _ _ h := h.cons (Event.silent_request _)
  left _ _ h := h
  error _ _ _ h := h.cons (Event.silent_error _)
  pass k tip fuel _ :=
    (HistoricalRangeHandler.triple_handleStreamHistoricalRange_reorgsLe
      ⟨self.provider, self.maxBlockRange, k, tip, self.sender⟩ hsettles fuel).conseq
      (fun _ h => h) (fun _ _ h => ⟨h, fun _ => h⟩) fun _ h => h
  live k fuel subscription _ h :=
    (self.liveConfig k).reorgsLe_streamLiveBlocks hsettles fuel subscription hprovider false
      (h.cons Event.silent_switchingToLive)

end Historical

namespace BlockRangeScanner

variable [DecidableEq Hash] (self : BlockRangeScanner Hash) {T : ℕ}

/-- The streams that have a loop without a bound report few reorgs. -/
lemma stream_reorgsLe (hsettles : self.provider.SettlesAt T) (sender : Sender) (fuel : ℕ)
    (request : StreamRequest Hash) :
    (∃ startId endId, request = .rewind startId endId) ∨
      ReorgsLe T ((self.stream sender fuel request).run []).2 := by
  cases request with
  | live subscription blockConfirmations =>
    refine Or.inr (Proc.Triple.log_of_run (P := ReorgsLe T) ?_ reorgsLe_nil)
    refine Proc.Triple.bind (Q := fun _ => ReorgsLe T)
      (triple_call fun _ _ hlog => hlog.cons (Event.silent_request _)) fun latest => ?_
    rcases latest with e | latest
    · exact Proc.Triple.pure fun _ hlog => hlog
    refine Proc.Triple.bind (Q := fun _ => ReorgsLe T)
      (triple_call fun _ _ hlog => hlog.cons (Event.silent_request _)) fun answer => ?_
    rcases answer with e | _
    · exact Proc.Triple.pure fun _ hlog => hlog
    · refine Proc.Triple.bind (Q := fun _ => ReorgsLe T) (Proc.Triple.of_log fun log hlog => ?_)
        fun _ => Proc.Triple.pure fun _ hlog => hlog
      exact (self.liveConfig sender _ _).reorgsLe_streamLiveBlocks hsettles fuel subscription rfl
        false hlog
  | historical startId endId =>
    refine Or.inr (Proc.Triple.log_of_run (P := ReorgsLe T) ?_ reorgsLe_nil)
    refine Proc.Triple.bind (Q := fun _ => ReorgsLe T)
      (triple_call fun _ _ hlog => hlog.cons (Event.silent_request _)) fun startBlock => ?_
    refine Proc.Triple.bind (Q := fun _ => ReorgsLe T)
      (triple_call fun _ _ hlog => hlog.cons (Event.silent_request _)) fun endBlock => ?_
    rcases startBlock with e | startBlock
    · exact Proc.Triple.pure fun _ hlog => hlog
    rcases endBlock with e | endBlock
    · exact Proc.Triple.pure fun _ hlog => hlog
    exact Proc.Triple.bind (HistoricalRangeHandler.triple_handleStreamHistoricalRange_reorgsLe
      _ hsettles fuel) fun _ => Proc.Triple.pure fun _ hlog => hlog
  | sync subscription startId blockConfirmations =>
    let handler := SyncHandler.new self.provider self.maxBlockRange startId blockConfirmations
      self.pastBlocksStorageCapacity sender
    refine Or.inr ((handler.phasesKeep_reorgsLe hsettles rfl).run fuel subscription ?_
      (fun _ _ => ?_) fun start _ => ?_)
    · exact (reorgsLe_nil.cons (Event.silent_request _)).cons (Event.silent_request _)
    · exact reorgsLe_nil.cons (Event.silent_request _)
    · exact (handler.liveConfig start).reorgsLe_streamLiveBlocks hsettles fuel subscription rfl true
        (((reorgsLe_nil.cons (Event.silent_request _)).cons (Event.silent_request _)).cons
          (Event.silent_request _))
  | rewind startId endId => exact Or.inl ⟨startId, endId, rfl⟩

/-- **Every stream over a chain that settles returns**, within `H + 2` rounds of its loops for each
provider call before the chain has settled and a few more, if neither the chain nor the headers go
beyond `H`.

**Proof sketch.** A stream that has used up its fuel has reported a reorg for every `H + 2` rounds,
but it reports no more than `T + 2`. The rewind does not spin at all. -/
theorem stream_returns {H : ℕ} (hsettles : self.provider.SettlesAt T)
    (hbounded : self.provider.BoundedBy H) (sender : Sender) {request : StreamRequest Hash}
    (hle : HeadersLe H request.subscription) {fuel : ℕ} (hfuel : (H + 2) * (T + 3) ≤ fuel) :
    ∃ result, ((self.stream sender fuel request).run []).1 = some result := by
  refine Option.ne_none_iff_exists'.mp fun hcut => ?_
  rcases self.stream_reorgsLe hsettles sender fuel request with ⟨startId, endId, rfl⟩ | hreorgs
  · exact self.streamRewind_returns sender startId endId hcut
  · have hspun := self.stream_spun hbounded sender fuel hle hcut
    have hmul := Nat.mul_le_mul_left (H + 2) hreorgs.le
    rw [Nat.mul_succ] at hfuel
    omega

/-- A chain whose blocks `3` and `4` are replaced at the fifth call settles there. -/
def replacedEnd : BlockRangeScanner ℕ where
  provider := .healthy (switchAt 4 (.ofHashes 0 [1, 2, 3, 4] 0) (.ofHashes 0 [1, 2, 13, 14] 0))
  maxBlockRange := defaultMaxBlockRange
  pastBlocksStorageCapacity := .limited 10

/-- The historical stream over it reports the replacement and returns. -/
theorem stream_returns_replacedEnd :
    let run := (replacedEnd.stream ⟨none⟩ 42 (.historical (.number (.number 1))
      (.number (.number 4)))).run []
    (∃ result, run.1 = some result) ∧ reorgs run.2 = 1 := by
  have hsettles : replacedEnd.provider.SettlesAt 4 := by
    exact ⟨fun k hk => switchAt_of_le hk _ _,
      fun k _ => by simp [replacedEnd, RobustProvider.healthy]⟩
  have hbounded : replacedEnd.provider.BoundedBy 4 := by
    intro k
    have hview := switchAt_eq 4 (.ofHashes 0 [1, 2, 3, 4] 0) (.ofHashes 0 [1, 2, 13, 14] 0) k
    change replacedEnd.provider.view k = _ ∨ replacedEnd.provider.view k = _ at hview
    rcases hview with h | h <;> rw [h] <;> decide
  exact ⟨replacedEnd.stream_returns hsettles hbounded ⟨none⟩ (fun _ h => absurd h
    List.not_mem_nil) (by decide), rfl⟩

end BlockRangeScanner

end EventScanner
