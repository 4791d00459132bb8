import EventScanner.BlockRangeScanner.Scanner
import EventScanner.LiveStream.Settled

set_option relaxedAutoImplicit false
set_option autoImplicit false

/-!
# Sync streams over settled blocks

When the blocks up to the confirmed tip are settled, no pass of the catch-up phase finds its end
block replaced: the passes go from the start of the stream to the last confirmed tip without a
gap and without a block twice, and the live phase goes on from there.

## Main definitions

* `EventScanner.RobustProvider.TipsSettled` — the blocks up to the confirmed tip are settled.
* `EventScanner.SyncHandler.caughtUp` — the messages of the catch-up phase.
* `EventScanner.SyncHandler.SyncEnds` — what a sync stream has sent.

## Main results

* `EventScanner.triple_runSync_settled`,
  `EventScanner.SyncHandler.triple_catchup_settled` — the catch-up phase.
* `EventScanner.SyncHandler.run_settled` — the sync stream.
-/

namespace EventScanner

open HashChain EventLog

variable {Hash : Type}

namespace RobustProvider

/-- At every moment the blocks with enough confirmations are settled. -/
def TipsSettled (provider : RobustProvider Hash) (blockConfirmations : ℕ) : Prop :=
  ∀ k, provider.SettledUpTo k ((provider.view k).height - blockConfirmations)

/-- The chain is never higher than `H`. -/
def BoundedBy (provider : RobustProvider Hash) (H : ℕ) : Prop :=
  ∀ k, (provider.view k).height ≤ H

end RobustProvider

/-! ### A pass of the catch-up phase -/

section Pass

variable (handler : HistoricalRangeHandler Hash) (s : ℕ) (before : List BlockScannerResult)

/-- Where a pass stands: everything up to `k` (exclusively) was streamed, the blocks of the pass are
settled, and its end block, once it is known, stays on the chain. -/
structure PassAt (known : Option (Block Hash)) (k : ℕ) (log : Log Hash) : Prop where
  /-- The stream stands at `k`. -/
  streamed : Streamed handler.maxBlockRange s k before log
  /-- The blocks of the pass are settled. -/
  settled : handler.provider.SettledUpTo (clock log) handler.stop
  /-- The end block stays on the chain. -/
  stays : ∀ b ∈ known, handler.provider.StaysCanonical b log

/-- Behind the finalized part: the first block that is not finalized. -/
def FinalizedSent : Option (ℕ × ℕ) → Log Hash → Prop
  | some (k, _), log => PassAt handler s before none k log ∧
      max k (handler.stop + 1) = max handler.start (handler.stop + 1)
  | none, log => Interrupted handler.sender handler.maxBlockRange s before log

variable {handler s before} {E : Log Hash → Prop} {known : Option (Block Hash)} {k : ℕ}
  {log : Log Hash}

lemma PassAt.request (h : PassAt handler s before known k log) (r : Request Hash) :
    PassAt handler s before known k (.request r :: log) where
  streamed := h.streamed.request r
  settled := h.settled.mono (clock_le_of_suffix (List.suffix_cons _ _)) le_rfl
  stays b hb := (h.stays b hb).of_suffix (List.suffix_cons _ _)

/-- The ranges of a cut from where the pass stands are sent. -/
lemma triple_sendRanges {e : ℕ} {rs : List RangeInclusive}
    (h : RangeInclusive.Chunks handler.maxBlockRange k e rs) :
    Proc.Triple (PassAt handler s before known k) (streamRanges handler.sender rs)
      (OpenOr (PassAt handler s before known (max k (e + 1))) handler.sender handler.maxBlockRange
        s before) E := by
  induction rs generalizing k with
  | nil =>
    have hlt : e < k := h
    rw [Nat.max_eq_left hlt]
    exact Proc.Triple.pure fun log hlog => hlog
  | cons r rs ih =>
    obtain ⟨hle, hr, hrs⟩ := h
    have hbounds : r.start = k ∧ r.start ≤ r.stop ∧
        r.stop ≤ r.start + (handler.maxBlockRange - 1) ∧ r.stop ≤ e := by
      rw [hr]
      dsimp only
      omega
    obtain ⟨rfl, hle', hsize, hstop⟩ := hbounds
    have hmax : max r.start (e + 1) = max (r.stop + 1) (e + 1) := by omega
    rw [hmax]
    refine Proc.Triple.bind (triple_sendOr (Q := PassAt handler s before known (r.stop + 1))
      (fun log hlog => ⟨hlog.streamed.range hle' hsize, hlog.settled, hlog.stays⟩)
      fun log hlog => ⟨_, hlog.streamed⟩) fun channel => ?_
    cases channel with
    | opened => exact ih hrs
    | closed => exact Proc.Triple.pure fun log hlog => hlog

/-- The finalized part of the range. -/
lemma triple_sendFinalized :
    Proc.Triple (PassAt handler s before none handler.start) handler.streamFinalizedBlocks
      (FinalizedSent handler s before) E := by
  refine Proc.Triple.bind (Q := fun _ => PassAt handler s before none handler.start)
    (triple_call fun _ _ h => h.request _) fun finalized => ?_
  dsimp only
  generalize finalized.toOption.getD 0 = f
  refine Proc.Triple.bind (triple_sendRanges (RangeIterator.ranges_forward _ _ _))
    fun channel => ?_
  cases channel with
  | closed => exact Proc.Triple.pure fun log hlog => hlog
  | opened => exact Proc.Triple.pure fun log hlog => ⟨hlog, by omega⟩

variable [DecidableEq Hash]

/-- The second read of an end block that stays on the chain finds it again, or fails. -/
lemma triple_rereadSettled {endBlock : Block Hash} (hend : endBlock.number = handler.stop) :
    Proc.Triple (PassAt handler s before (some endBlock) k)
      (handler.getReorgedEndBlock endBlock)
      (fun res log => res = none ∧ Streamed handler.maxBlockRange s k before log) E := by
  refine Proc.Triple.bind (triple_readSettled hend.le (fun r log hlog => hlog.request r)
    fun log hlog => hlog.settled) fun answer => ?_
  cases answer with
  | error e =>
    refine Proc.Triple.bind (triple_interrupt.conseq (fun _ hlog => hlog.1.streamed)
      (fun _ _ h => h) fun _ h => h) fun _ => ?_
    exact Proc.Triple.pure fun log hlog => ⟨rfl, hlog.2⟩
  | ok newEndBlock =>
    dsimp only
    split_ifs with hash
    · exact Proc.Triple.pure fun log hlog => ⟨rfl, hlog.1.streamed⟩
    · refine Proc.Triple.pure fun log hlog => absurd ?_ hash
      obtain ⟨hnum, hnew⟩ := hlog.2 newEndBlock rfl
      exact congrArg Block.hash ((hnew _ le_rfl).eq_of_number_eq
        (hlog.1.stays endBlock rfl _ le_rfl) hnum)

/-- The part of the range that is not finalized is streamed once. -/
lemma triple_sendUntilStable {fuel minCommonAncestor : ℕ} {endBlock : Block Hash}
    (hend : endBlock.number = handler.stop) (hle : k ≤ handler.stop) :
    Proc.Triple (PassAt handler s before (some endBlock) k)
      (handler.streamUntilStable k minCommonAncestor fuel endBlock)
      (OpenOr (Streamed handler.maxBlockRange s (handler.stop + 1) before) handler.sender
        handler.maxBlockRange s before)
      (fun log => (∃ k, Streamed handler.maxBlockRange s k before log) ∧ fuel = 0) := by
  cases fuel with
  | zero => exact Proc.Triple.halt fun log hlog => ⟨⟨_, hlog.streamed⟩, rfl⟩
  | succ fuel =>
    have hranges {E : Log Hash → Prop} : Proc.Triple (PassAt handler s before (some endBlock) k)
        (streamRanges handler.sender
          (RangeIterator.forward k handler.stop handler.maxBlockRange).ranges)
        (OpenOr (PassAt handler s before (some endBlock) (max k (handler.stop + 1))) handler.sender
          handler.maxBlockRange s before) E :=
      triple_sendRanges (RangeIterator.ranges_forward _ _ _)
    rw [Nat.max_eq_right (by omega)] at hranges
    refine Proc.Triple.bind hranges fun channel => ?_
    cases channel with
    | closed => exact Proc.Triple.pure fun log hlog => hlog
    | opened =>
      refine Proc.Triple.bind (triple_rereadSettled hend) fun res => ?_
      cases res with
      | none => exact Proc.Triple.pure fun log hlog => hlog.2
      | some newEndBlock => exact fun log hlog => absurd hlog.1 (Option.some_ne_none _)

variable (handler s before) in
/-- **A pass** over settled blocks streams its range, and runs out of fuel only if it has none. -/
theorem triple_runSync_settled (hle : handler.start ≤ handler.stop) {fuel : ℕ} :
    Proc.Triple (PassAt handler s before none handler.start) (handler.runSync fuel)
      (OpenOr (Streamed handler.maxBlockRange s (handler.stop + 1) before) handler.sender
        handler.maxBlockRange s before)
      (fun log => (∃ k, Streamed handler.maxBlockRange s k before log) ∧ fuel = 0) := by
  refine Proc.Triple.bind triple_sendFinalized fun res => ?_
  rcases res with _ | ⟨k, f⟩
  · exact Proc.Triple.pure fun log hlog => hlog
  · dsimp only
    split_ifs with hk
    · refine Proc.Triple.pure fun log hlog => ?_
      obtain ⟨hat, hmax⟩ := hlog
      have heq : k = handler.stop + 1 := by omega
      exact heq ▸ hat.streamed
    · refine Proc.Triple.bind (triple_readSettled (P := fun log => FinalizedSent handler s before
        (some (k, f)) log) le_rfl (fun r log hlog => ⟨hlog.1.request r, hlog.2⟩)
        fun log hlog => hlog.1.settled) fun answer => ?_
      cases answer with
      | error e =>
        refine Proc.Triple.bind (triple_interrupt.conseq (fun _ hlog => hlog.1.1.streamed)
          (fun _ _ h => h) fun _ h => h) fun _ => ?_
        exact Proc.Triple.pure fun log hlog => ⟨hlog.1, _, hlog.2⟩
      | ok endBlock =>
        intro log hlog
        obtain ⟨hnum, hstays⟩ := hlog.2 endBlock rfl
        exact triple_sendUntilStable hnum (Nat.le_of_not_lt hk) log
          ⟨hlog.1.1.streamed, hlog.1.1.settled, by rintro b ⟨⟩; exact hstays⟩

end Pass

/-! ### The catch-up phase -/

/-- The answer to a call for the newest height. -/
lemma RobustProvider.eq_height {provider : RobustProvider Hash} {k latest : ℕ}
    (h : provider.answer k (fun chain => some chain.height) = .ok latest) :
    latest = (provider.view k).height := by
  unfold RobustProvider.answer at h
  split at h
  · cases h
  · exact (Except.ok.inj h).symm

/-- The newest height, with the blocks settled that it confirms. -/
lemma triple_latestSettled {provider : RobustProvider Hash} {c : ℕ}
    (hsettled : provider.TipsSettled c) {P E : Log Hash → Prop}
    (hreq : ∀ r log, P log → P (.request r :: log)) :
    Proc.Triple P (getBlockNumber provider)
      (fun res log => P log ∧ ∀ latest, res = .ok latest →
        provider.SettledUpTo (clock log) (latest - c) ∧
          ∀ H, provider.BoundedBy H → latest ≤ H) E := by
  intro log hlog
  refine ⟨hreq _ log hlog, fun latest hlatest => ?_⟩
  rw [clock_request, RobustProvider.eq_height hlatest]
  exact ⟨(hsettled (clock log)).mono (Nat.le_succ _) le_rfl, fun H hH => hH _⟩

namespace SyncHandler

variable (self : SyncHandler Hash) (s : ℕ) (before : List BlockScannerResult)

/-- How the catch-up phase ends: the stream stands at the block at which the live phase begins, or
it was cut short, or there is an error to be sent. -/
def CatchupEnds : Except ScannerError (Option ℕ) → Log Hash → Prop
  | .ok (some k), log => Streamed self.maxBlockRange s k before log
  | .ok none, log => Interrupted self.sender self.maxBlockRange s before log
  | .error _, log => ∃ k, Streamed self.maxBlockRange s k before log

variable {self s before} [DecidableEq Hash]

variable (self s before) in
/-- **The catch-up phase** streams the blocks up to where the live phase begins. It does not run out
of fuel if there is more than one unit for each block the chain ever has.

**Proof sketch.** Induction on the fuel: each round is a pass over settled blocks, and the next one
begins further up. -/
theorem triple_catchup_settled (hsettled : self.provider.TipsSettled self.blockConfirmations)
    (fuel k tip : ℕ) :
    Proc.Triple
      (fun log => Streamed self.maxBlockRange s k before log ∧
        self.provider.SettledUpTo (clock log) tip)
      (self.catchupHistoricalBlocks fuel k tip) (self.CatchupEnds s before)
      (fun log => (∃ k, Streamed self.maxBlockRange s k before log) ∧
        ∀ H, self.provider.BoundedBy H → tip ≤ H → fuel ≤ H + 1 - k) := by
  induction fuel generalizing k tip with
  | zero => exact Proc.Triple.halt fun log hlog => ⟨⟨k, hlog.1⟩, fun H _ _ => Nat.zero_le _⟩
  | succ fuel ih =>
    unfold catchupHistoricalBlocks
    split_ifs with hlt
    · refine Proc.Triple.bind ((triple_runSync_settled
        ⟨self.provider, self.maxBlockRange, k, tip, self.sender⟩ s before
        (Nat.le_of_lt hlt)).conseq (fun log hlog => ⟨hlog.1, hlog.2, by simp⟩) (fun _ _ h => h)
        fun log hlog => ⟨hlog.1, fun H _ htip => by omega⟩) fun channel => ?_
      cases channel with
      | closed => exact Proc.Triple.pure fun log hlog => hlog
      | opened =>
        refine Proc.Triple.bind (triple_latestSettled hsettled fun r log hlog => hlog.request r)
          fun answer => ?_
        cases answer with
        | error e => exact Proc.Triple.pure fun log hlog => ⟨_, hlog.1⟩
        | ok latest =>
          intro log hlog
          obtain ⟨hstreamed, hlatest⟩ := hlog
          obtain ⟨hnext, hbound⟩ := hlatest latest rfl
          refine (ih (tip + 1) (latest - self.blockConfirmations)).conseq (fun _ h => h)
            (fun _ _ h => h) (fun log hlog => ⟨hlog.1, fun H hH htip => ?_⟩) log
            ⟨hstreamed, hnext⟩
          have hfuel := hlog.2 H hH ((Nat.sub_le _ _).trans (hbound H hH))
          omega
    · exact Proc.Triple.pure fun log hlog => hlog.1

/-! ### The whole stream -/

/-- The notice between the catch-up phase and the live phase. -/
abbrev switchNotice : List BlockScannerResult := [notificationItem .switchingToLive]

/-- Behind the notice, or the receiver is gone. -/
def Switched (sender : Sender) (before : List BlockScannerResult) : ChannelState → Log Hash → Prop
  | .opened, log => messages log = before ++ switchNotice
  | .closed, log => messages log = before ∧ CutShort sender log

/-- The live phase behind the catch-up phase. -/
lemma triple_transitionToLive_settled (hfault : ∀ k, self.provider.fault k ≠ some .blockNotFound)
    (hh : self.reorgHandler.provider = self.provider) (fuel k : ℕ)
    (subscription : List SubscriptionItem) :
    Proc.Triple
      (fun log => Always (HeadersSettled self.provider self.blockConfirmations) log →
        messages log = before)
      (self.transitionToLive fuel subscription k self.reorgHandler)
      (fun _ log => Always (HeadersSettled self.provider self.blockConfirmations) log →
        (self.liveConfig k).LiveEnds before switchNotice subscription log)
      (fun log => Always (HeadersSettled self.provider self.blockConfirmations) log →
        (self.liveConfig k).OutOfFuel k (before ++ switchNotice) fuel subscription log) := by
  refine Proc.Triple.bind (Q := fun _ log =>
    Always (HeadersSettled self.provider self.blockConfirmations) log → messages log = before)
    (triple_call fun _ _ h hC => h hC.2) fun answer => ?_
  cases answer with
  | error e =>
    exact Proc.Triple.assuming _ (Proc.Triple.bind (triple_interruptStart self.maxBlockRange k)
      fun _ => Proc.Triple.pure fun log hlog => ⟨k, Or.inr ⟨hlog.2, rfl⟩, Or.inr hlog.1⟩)
  | ok u =>
    refine Proc.Triple.bind (Q := fun channel log =>
      Always (HeadersSettled self.provider self.blockConfirmations) log →
        Switched self.sender before channel log) (Proc.Triple.assuming _ fun log hlog => ?_)
        fun channel => ?_
    · rw [run_tryStream]
      split_ifs with hopen
      · exact congrArg (· ++ _) hlog
      · exact ⟨hlog, Or.inr (Bool.eq_false_iff.mpr hopen)⟩
    · cases channel with
      | closed =>
        exact Proc.Triple.pure fun log hlog hC =>
          ⟨k, Or.inr ⟨streamed_start (hlog hC).1, rfl⟩, Or.inr (hlog hC).2⟩
      | opened =>
        refine ((self.liveConfig k).triple_streamLiveBlocks (before ++ switchNotice) fuel hfault hh
          subscription false).conseq
          (fun _ h => h) (fun _ log hlog hC => ?_) fun log hlog hC => ?_
        · obtain ⟨e, hstreamed, he⟩ := hlog hC
          rw [LiveConfig.liveNotice, if_neg Bool.false_ne_true, List.append_nil] at hstreamed
          exact ⟨e, Or.inl (hstreamed.elim id And.left), he⟩
        · have hfuel := hlog hC
          rw [LiveConfig.liveNotice, if_neg Bool.false_ne_true, List.append_nil] at hfuel
          exact hfuel

variable (self) in
/-- How a stream ends that begins with the live phase. -/
def LiveOnlyEnds (k : ℕ) (before : List BlockScannerResult) (subscription : List SubscriptionItem) :
    Except ScannerError Unit → Log Hash → Prop
  | .ok (), log => (self.liveConfig k).LiveEnds before switchNotice subscription log
  | .error _, log => messages log = before

variable (self before) in
/-- The live phase alone. -/
lemma triple_spawnLiveOnly_settled (hfault : ∀ k, self.provider.fault k ≠ some .blockNotFound)
    (hh : self.reorgHandler.provider = self.provider) (fuel k : ℕ)
    (subscription : List SubscriptionItem) :
    Proc.Triple
      (fun log => Always (HeadersSettled self.provider self.blockConfirmations) log →
        messages log = before)
      (self.spawnLiveOnly fuel subscription k)
      (fun res log => Always (HeadersSettled self.provider self.blockConfirmations) log →
        self.LiveOnlyEnds k before subscription res log)
      (fun log => Always (HeadersSettled self.provider self.blockConfirmations) log →
        (self.liveConfig k).OutOfFuel k (before ++ switchNotice) fuel subscription log) := by
  refine Proc.Triple.bind (Q := fun _ log =>
    Always (HeadersSettled self.provider self.blockConfirmations) log → messages log = before)
    (triple_call fun _ _ h hC => h hC.2) fun answer => ?_
  cases answer with
  | error e => exact Proc.Triple.pure fun log hlog => hlog
  | ok u =>
    exact Proc.Triple.bind ((self.liveConfig k).triple_streamLiveBlocks before fuel hfault hh
      subscription true) fun _ => Proc.Triple.pure fun log hlog => hlog

variable (self)

/-- The log when the start and the newest height have been asked for. -/
abbrev resolved : Log Hash := [.request .blockNumber, .request (.blockNumberById self.startId)]

/-- The messages of the catch-up phase from `start` on, when the newest height is `latest`. -/
def caughtUp (fuel start latest : ℕ) : List BlockScannerResult :=
  messages ((self.catchupHistoricalBlocks fuel start (latest - self.blockConfirmations)).run
    self.resolved).2

/-- A stream that has returned: the live phase goes on where the catch-up phase has ended. -/
def Covered (fuel start latest : ℕ) (subscription : List SubscriptionItem) (log : Log Hash) :
    Prop :=
  ∃ k, Streams self.maxBlockRange start k (self.caughtUp fuel start latest) ∧
    (self.liveConfig k).LiveEnds (self.caughtUp fuel start latest) switchNotice subscription log

/-- A stream that has run out of fuel, in one of its phases. -/
def Unfinished (fuel start latest : ℕ) (subscription : List SubscriptionItem) (log : Log Hash) :
    Prop :=
  ∃ k, Streams self.maxBlockRange start k (self.caughtUp fuel start latest) ∧
    ((self.liveConfig k).OutOfFuel k (self.caughtUp fuel start latest ++ switchNotice) fuel
        subscription log ∨
      messages log = self.caughtUp fuel start latest ∧
        ∀ H, self.provider.BoundedBy H → fuel ≤ H + 1)

variable {self} {start latest : ℕ}

variable (start) in
/-- The two phases, when there is something to catch up on. -/
lemma spawnCatchupThenLive_settled (hfault : ∀ k, self.provider.fault k ≠ some .blockNotFound)
    (hh : self.reorgHandler.provider = self.provider)
    (hsettled : self.provider.TipsSettled self.blockConfirmations) (fuel : ℕ)
    (subscription : List SubscriptionItem)
    (htip : self.provider.SettledUpTo 2 (latest - self.blockConfirmations))
    (hbound : ∀ H, self.provider.BoundedBy H → latest ≤ H) :
    Proc.Ends
      (fun _ log => Always (HeadersSettled self.provider self.blockConfirmations) log →
        self.Covered fuel start latest subscription log)
      (fun log => Always (HeadersSettled self.provider self.blockConfirmations) log →
        self.Unfinished fuel start latest subscription log)
      ((self.spawnCatchupThenLive fuel subscription start (latest - self.blockConfirmations)).run
        self.resolved) := by
  have hcatchup := self.triple_catchup_settled start [] hsettled fuel start
    (latest - self.blockConfirmations) self.resolved ⟨streamed_start rfl, htip⟩
  unfold spawnCatchupThenLive
  rcases hrun : (self.catchupHistoricalBlocks fuel start (latest - self.blockConfirmations)).run
    self.resolved with ⟨_ | res, log⟩
  all_goals
    have hcaught : self.caughtUp fuel start latest = messages log := by
      unfold caughtUp
      rw [hrun]
    rw [hrun] at hcatchup
  · rw [Proc.run_bind_none hrun]
    obtain ⟨⟨k, hstreamed⟩, hfuel⟩ := hcatchup
    refine fun _ => ⟨k, hcaught ▸ hstreamed.streams, Or.inr ⟨hcaught.symm, fun H hH => ?_⟩⟩
    have hle := hfuel H hH ((Nat.sub_le _ _).trans (hbound H hH))
    omega
  · rw [Proc.run_bind_some hrun]
    rcases res with e | _ | k
    · obtain ⟨k, hstreamed⟩ := hcatchup
      refine Proc.Triple.bind (triple_interruptStart self.maxBlockRange k) (fun _ =>
        Proc.Triple.pure fun log' hlog _ => ?_) log hcaught.symm
      exact ⟨k, hcaught ▸ hstreamed.streams, k, Or.inr ⟨hlog.2, rfl⟩, Or.inr hlog.1⟩
    · obtain ⟨hcut, k, hstreamed⟩ := hcatchup
      exact fun _ => ⟨k, hcaught ▸ hstreamed.streams, k,
        Or.inr ⟨streamed_start hcaught.symm, rfl⟩, Or.inr hcut⟩
    · have hstreams : Streams self.maxBlockRange start k (self.caughtUp fuel start latest) :=
        hcaught ▸ Streamed.streams hcatchup
      exact (triple_transitionToLive_settled hfault hh fuel k subscription).conseq (fun _ h => h)
        (fun _ log hlog hC => ⟨k, hstreams, hlog hC⟩)
        (fun log hlog hC => ⟨k, hstreams, Or.inl (hlog hC)⟩) log fun _ => hcaught.symm

/-- How a sync stream ends from `start` on: with an error before anything is sent, behind its two
phases, or out of fuel. -/
def SyncEnds (self : SyncHandler Hash) (fuel start latest : ℕ)
    (subscription : List SubscriptionItem) :
    Option (Except ScannerError Unit) → Log Hash → Prop
  | some (.ok ()), log => self.Covered fuel start latest subscription log
  | some (.error _), log => messages log = []
  | none, log => self.Unfinished fuel start latest subscription log

variable (self) in
/-- **The sync stream** over settled blocks, from its resolved start on. -/
theorem run_settled (hfault : ∀ k, self.provider.fault k ≠ some .blockNotFound)
    (hh : self.reorgHandler.provider = self.provider)
    (hsettled : self.provider.TipsSettled self.blockConfirmations) (fuel : ℕ)
    (subscription : List SubscriptionItem) {result : Option (Except ScannerError Unit)}
    {log : Log Hash} (hrun : (self.run fuel subscription).run [] = (result, log))
    (hC : Always (HeadersSettled self.provider self.blockConfirmations) log) :
    ∃ start, (∀ n, ((getBlockNumberById self.provider self.startId).run []).1 = some (.ok n) →
        start = n) ∧
      self.SyncEnds fuel start (self.provider.view 1).height subscription result log := by
  obtain ⟨answer, hfirst⟩ : ∃ answer, (getBlockNumberById self.provider self.startId).run [] =
      (some answer, [.request (.blockNumberById self.startId)]) := ⟨_, run_call ..⟩
  have hsecond : (getBlockNumber self.provider).run [.request (.blockNumberById self.startId)] =
      (some (self.provider.answer 1 (fun chain => some chain.height)), self.resolved) := run_call ..
  unfold run at hrun
  rw [Proc.run_bind_some hfirst, Proc.run_bind_some hsecond] at hrun
  rw [hfirst]
  rcases answer with e | start
  · obtain ⟨rfl, rfl⟩ := Prod.mk.inj hrun
    exact ⟨0, by simp, rfl⟩
  refine ⟨start, fun n hn => Except.ok.inj (Option.some.inj hn), ?_⟩
  rcases hlatest : self.provider.answer 1 (fun chain => some chain.height) with e | latest
  · rw [hlatest] at hrun
    obtain ⟨rfl, rfl⟩ := Prod.mk.inj hrun
    rfl
  have hheight := RobustProvider.eq_height hlatest
  rw [hlatest] at hrun
  rw [← hheight]
  dsimp only at hrun
  split_ifs at hrun with hahead
  · have hcaught : self.caughtUp fuel start latest = [] := by
      unfold caughtUp
      cases fuel with
      | zero => rfl
      | succ fuel =>
        unfold catchupHistoricalBlocks
        rw [if_neg (by omega)]
        rfl
    have hstreams : Streams self.maxBlockRange start start (self.caughtUp fuel start latest) := by
      rw [hcaught]
      exact Streams.nil
    have hlive := self.triple_spawnLiveOnly_settled [] hfault hh fuel start subscription
      self.resolved fun _ => rfl
    rw [hrun] at hlive
    rcases result with _ | _ | u
    · exact ⟨start, hstreams, Or.inl (hcaught ▸ hlive hC)⟩
    · exact hlive hC
    · exact ⟨start, hstreams, hcaught ▸ hlive hC⟩
  · have hspawned := spawnCatchupThenLive_settled start hfault hh hsettled fuel subscription
      (hheight ▸ (hsettled 1).mono (Nat.le_succ 1) le_rfl) (hheight ▸ fun H hH => hH 1)
    rcases hspawn : (self.spawnCatchupThenLive fuel subscription start
      (latest - self.blockConfirmations)).run self.resolved with ⟨_ | u, log'⟩ <;>
      rw [hspawn] at hspawned
    · obtain ⟨rfl, rfl⟩ := Prod.mk.inj ((Proc.run_bind_none hspawn).symm.trans hrun)
      exact hspawned hC
    · obtain ⟨rfl, rfl⟩ := Prod.mk.inj ((Proc.run_bind_some hspawn).symm.trans hrun)
      exact hspawned hC

end SyncHandler

namespace BlockRangeScanner

variable [DecidableEq Hash] (self : BlockRangeScanner Hash)

/-- The first block of a live stream that is opened at the first provider call. -/
def liveStartBlock (blockConfirmations : ℕ) : ℕ :=
  ((self.provider.view 0).height + 1) - blockConfirmations

/-- How a live stream ends: with an error before anything is sent, with the ranges of the live
phase, or out of fuel. -/
def LiveStreamEnds (sender : Sender) (fuel blockConfirmations : ℕ)
    (subscription : List SubscriptionItem) :
    Option (Except ScannerError Unit) → Log Hash → Prop
  | some (.ok ()), log =>
    (self.liveConfig sender (self.liveStartBlock blockConfirmations) blockConfirmations).LiveEnds
      [] [] subscription log
  | some (.error _), log => messages log = []
  | none, log =>
    (self.liveConfig sender (self.liveStartBlock blockConfirmations) blockConfirmations).OutOfFuel
      (self.liveStartBlock blockConfirmations) [] fuel subscription log

/-- **The live stream** of the scanner, over settled blocks. -/
theorem streamLive_settled (hfault : ∀ k, self.provider.fault k ≠ some .blockNotFound)
    (sender : Sender) (fuel : ℕ) (subscription : List SubscriptionItem) (blockConfirmations : ℕ)
    {result : Option (Except ScannerError Unit)} {log : Log Hash}
    (hrun : (self.streamLive sender fuel subscription blockConfirmations).run [] = (result, log))
    (hC : Always (HeadersSettled self.provider blockConfirmations) log) :
    self.LiveStreamEnds sender fuel blockConfirmations subscription result log := by
  have hlatest : (getBlockNumber self.provider).run [] =
      (some (self.provider.answer 0 (fun chain => some chain.height)), [.request .blockNumber]) :=
    run_call ..
  unfold streamLive at hrun
  rw [Proc.run_bind_some hlatest] at hrun
  cases hanswer : self.provider.answer 0 (fun chain => some chain.height) with
  | error e =>
    rw [hanswer] at hrun
    obtain ⟨rfl, rfl⟩ := Prod.mk.inj hrun
    rfl
  | ok latest =>
    rw [hanswer, RobustProvider.eq_height hanswer] at hrun
    have hsub : (subscribeBlocks self.provider).run [.request .blockNumber] =
        (some (self.provider.answer 1 (fun _ => some ())),
          [.request .subscribeBlocks, .request .blockNumber]) := run_call ..
    dsimp only at hrun
    rw [Proc.run_bind_some hsub] at hrun
    cases hsubscribed : self.provider.answer 1 (fun _ => some ()) with
    | error e =>
      rw [hsubscribed] at hrun
      obtain ⟨rfl, rfl⟩ := Prod.mk.inj hrun
      rfl
    | ok u =>
      rw [hsubscribed] at hrun
      have hlive := (self.liveConfig sender (self.liveStartBlock blockConfirmations)
        blockConfirmations).triple_streamLiveBlocks (h := DefaultReorgHandler.new self.provider
          self.pastBlocksStorageCapacity) [] fuel hfault rfl subscription false
          [.request .subscribeBlocks, .request .blockNumber] fun _ => rfl
      rcases hstream : ((self.liveConfig sender (self.liveStartBlock blockConfirmations)
        blockConfirmations).streamLiveBlocks fuel subscription
          (DefaultReorgHandler.new self.provider self.pastBlocksStorageCapacity) false).run
          [.request .subscribeBlocks, .request .blockNumber] with ⟨_ | u, log'⟩ <;>
        rw [hstream] at hlive
      · obtain ⟨rfl, rfl⟩ := Prod.mk.inj ((Proc.run_bind_none hstream).symm.trans hrun)
        exact hlive hC
      · obtain ⟨rfl, rfl⟩ := Prod.mk.inj ((Proc.run_bind_some hstream).symm.trans hrun)
        exact hlive hC

end BlockRangeScanner

end EventScanner
