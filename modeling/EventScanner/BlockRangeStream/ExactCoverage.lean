import EventScanner.SyncStream.Settled

set_option relaxedAutoImplicit false
set_option autoImplicit false

/-!
# Exact coverage of a chain that only grows

Without reorgs and errors the live stream and the sync stream send every block from their start
up to the highest confirmed one exactly once, in ascending ranges, however the chain grows and
however the headers arrive.

## Main definitions

* `EventScanner.CoversExactly` — items that are consecutive ranges.
* `EventScanner.BlockRangeScanner.LiveCoverage`, `EventScanner.BlockRangeScanner.SyncCoverage` —
  what the two streams send.

## Main results

* `EventScanner.BlockRangeScanner.streams_coverExactly` — every run without an error covers its
  blocks exactly.
-/

namespace EventScanner

open HashChain EventLog

variable {Hash : Type}

/-- A run without an error: none is returned, and none is sent. -/
structure ErrorFree (result : Option (Except ScannerError Unit)) (log : Log Hash) : Prop where
  /-- No error is returned. -/
  returns : ∀ e, result ≠ some (.error e)
  /-- No error is sent. -/
  sends : ∀ e, .sent (.error e) ∉ log

/-- The items are consecutive nonempty ranges of at most `m` blocks, from `s` up to `e`
(exclusively), and nothing else. -/
def CoversExactly (m s e : ℕ) (items : List BlockScannerResult) : Prop :=
  ∃ ranges, items = ranges.map dataItem ∧ RangeInclusive.Consecutive m s e ranges

/-- Items without notifications and errors are ranges. -/
lemma map_dataItem_filterMap {items : List BlockScannerResult}
    (hquiet : ∀ n, notificationItem n ∉ items) (hok : ∀ e, .error e ∉ items) :
    (items.filterMap dataRange).map dataItem = items := by
  induction items with
  | nil => rfl
  | cons item items ih =>
    have hrest := ih (fun n hn => hquiet n (List.mem_cons_of_mem _ hn))
      fun e he => hok e (List.mem_cons_of_mem _ he)
    match item with
    | .ok (.data range) => exact congrArg (dataItem range :: ·) hrest
    | .ok (.notification n) => exact absurd List.mem_cons_self (hquiet n)
    | .error e => exact absurd List.mem_cons_self (hok e)

section ErrorFree

variable {m s e : ℕ} {before items : List BlockScannerResult} {log : Log Hash}
  {result : Option (Except ScannerError Unit)}

/-- The items of a run without an error carry none. -/
lemma ErrorFree.not_mem (hok : ErrorFree result log) (hlog : messages log = before ++ items)
    (e : ScannerError) : .error e ∉ before ++ items :=
  fun he => hok.sends e (mem_messages.mp (hlog ▸ he))

lemma Streams.coversExactly (h : Streams m s e items) (hok : ∀ e, .error e ∉ items) :
    CoversExactly m s e items :=
  ⟨_, (map_dataItem_filterMap h.quiet hok).symm, h.consecutive⟩

/-- What a stream without an error has sent behind other items. -/
lemma Streamed.coversExactly (h : Streamed m s e before log) (hok : ErrorFree result log) :
    ∃ items, messages log = before ++ items ∧ CoversExactly m s e items := by
  obtain ⟨items, hlog, hitems⟩ := h
  exact ⟨items, hlog, hitems.coversExactly fun e he =>
    hok.not_mem hlog e (List.mem_append_right _ he)⟩

/-- What a stream without an error has sent from its beginning on. -/
lemma Streamed.coversExactly_messages (h : Streamed m s e [] log) (hok : ErrorFree result log) :
    CoversExactly m s e (messages log) := by
  obtain ⟨items, hlog, hitems⟩ := h.coversExactly hok
  rw [hlog]
  exact hitems

/-- Without an error a run is cut short only by its receiver. -/
lemma ErrorFree.not_cutShort {sender : Sender} (hok : ErrorFree result log)
    (hopen : sender.isOpen log = true) : ¬CutShort sender log := by
  rintro (⟨e, he⟩ | hclosed)
  · exact hok.sends e he
  · rw [hopen] at hclosed
    cases hclosed

/-- What is covered goes upwards. -/
lemma CoversExactly.le (h : CoversExactly m s e items) : s ≤ e := by
  obtain ⟨ranges, -, hranges⟩ := h
  exact hranges.le

/-- No range goes beyond the end of what is covered. -/
lemma CoversExactly.stop_lt (h : CoversExactly m s e items) {range : RangeInclusive}
    (hrange : dataItem range ∈ items) : range.stop < e := by
  obtain ⟨ranges, rfl, hranges⟩ := h
  obtain ⟨range', hmem, heq⟩ := List.mem_map.mp hrange
  obtain rfl : range' = range := by simpa using heq
  exact hranges.stop_lt hmem

/-- No range covers nothing. -/
lemma CoversExactly.eq_nil (h : CoversExactly m s s items) : items = [] := by
  obtain ⟨_ | ⟨range, ranges⟩, rfl, hranges⟩ := h
  · rfl
  · obtain ⟨rfl, hle, -, hrest⟩ := hranges
    have hend := hrest.le
    omega

/-- What a sync stream without an error has sent: the ranges of the catch-up phase, then, behind the
notice, those of the live phase. -/
lemma phases_coverExactly {k : ℕ} (hok : ErrorFree result log) (hbefore : Streams m s k before)
    (h : Streamed m k e (before ++ SyncHandler.switchNotice) log ∨
      Streamed m k e before log ∧ e = k) :
    CoversExactly m s k before ∧ (messages log = before ∧ e = k ∨
      ∃ live, messages log = before ++ notificationItem .switchingToLive :: live ∧
        CoversExactly m k e live) := by
  rcases h with hstreamed | ⟨hstreamed, rfl⟩
  · obtain ⟨live, hlog, hlive⟩ := hstreamed.coversExactly hok
    rw [List.append_assoc] at hlog
    exact ⟨hbefore.coversExactly fun e he => hok.not_mem hlog e (List.mem_append_left _ he),
      Or.inr ⟨live, hlog, hlive⟩⟩
  · obtain ⟨live, hlog, hlive⟩ := hstreamed.coversExactly hok
    refine ⟨hbefore.coversExactly fun e he => hok.not_mem hlog e (List.mem_append_left _ he),
      Or.inl ⟨?_, rfl⟩⟩
    rw [hlog, hlive.eq_nil, List.append_nil]

end ErrorFree

namespace BlockRangeScanner

variable [DecidableEq Hash] (self : BlockRangeScanner Hash)

/-- What a live stream sends: the blocks from its start up to the highest confirmed one, as long as
the receiver stays. Only a header that brings at least as many blocks uses up the fuel. -/
def LiveCoverage (sender : Sender) (fuel : ℕ) (subscription : List SubscriptionItem)
    (blockConfirmations : ℕ) (result : Option (Except ScannerError Unit)) (log : Log Hash) : Prop :=
  ∃ e, CoversExactly self.maxBlockRange (self.liveStartBlock blockConfirmations) e (messages log) ∧
    (result = some (.ok ()) → sender.isOpen log = true →
      e = coveredEnd blockConfirmations (self.liveStartBlock blockConfirmations)
        (headers (skipToFirstRelevantBlock subscription (self.liveStartBlock blockConfirmations)
          blockConfirmations))) ∧
    (result = none → ∃ n, .ok n ∈ subscription ∧ fuel ≤ n + 1)

/-- The handler of a sync stream. -/
def syncHandler (sender : Sender) (startId : BlockId Hash) (blockConfirmations : ℕ) :
    SyncHandler Hash :=
  SyncHandler.new self.provider self.maxBlockRange startId blockConfirmations
    self.pastBlocksStorageCapacity sender

/-- The messages of the catch-up phase of a sync stream. -/
def caughtUp (sender : Sender) (fuel : ℕ) (startId : BlockId Hash) (start blockConfirmations : ℕ) :
    List BlockScannerResult :=
  (self.syncHandler sender startId blockConfirmations).caughtUp fuel start
    (self.provider.view 1).height

/-- What a sync stream sends: the blocks from its start up to some block `k` in the catch-up phase,
then `SwitchingToLive`, then the blocks from `k` up to the highest confirmed one, as long as the
receiver stays. Only a header that brings at least as many blocks, or a chain that becomes as high,
uses up the fuel. -/
def SyncCoverage (sender : Sender) (fuel : ℕ) (subscription : List SubscriptionItem)
    (startId : BlockId Hash) (start blockConfirmations : ℕ)
    (result : Option (Except ScannerError Unit)) (log : Log Hash) : Prop :=
  ∃ k e, CoversExactly self.maxBlockRange start k
      (self.caughtUp sender fuel startId start blockConfirmations) ∧
    (messages log = self.caughtUp sender fuel startId start blockConfirmations ∧ e = k ∨
      ∃ live, messages log = self.caughtUp sender fuel startId start blockConfirmations ++
          notificationItem .switchingToLive :: live ∧
        CoversExactly self.maxBlockRange k e live) ∧
    (result = some (.ok ()) → sender.isOpen log = true →
      e = coveredEnd blockConfirmations k
        (headers (skipToFirstRelevantBlock subscription k blockConfirmations))) ∧
    (result = none → (∃ n, .ok n ∈ subscription ∧ fuel ≤ n + 1) ∨
      ∀ H, self.provider.BoundedBy H → fuel ≤ H + 1)

/-- **Exact coverage** of a chain that only grows, by every run of the live stream and of the sync
stream without an error. -/
theorem streams_coverExactly (hgrows : OnlyGrows self.provider.view)
    (hfault : ∀ k, self.provider.fault k ≠ some .blockNotFound) (sender : Sender) (fuel : ℕ)
    (subscription : List SubscriptionItem) (blockConfirmations : ℕ)
    (result : Option (Except ScannerError Unit)) (log : Log Hash) (hok : ErrorFree result log) :
    ((self.streamLive sender fuel subscription blockConfirmations).run [] = (result, log) →
        self.LiveCoverage sender fuel subscription blockConfirmations result log) ∧
      ∀ startId start,
        ((getBlockNumberById self.provider startId).run []).1 = some (.ok start) →
        (self.streamFrom sender fuel subscription startId blockConfirmations).run [] =
          (result, log) →
        self.SyncCoverage sender fuel subscription startId start blockConfirmations result log := by
  have hsettled (k n : ℕ) : self.provider.SettledUpTo k n :=
    fun i _ b _ hb j hij => hgrows.canonical hij hb
  have hC : Always (HeadersSettled self.provider blockConfirmations) log := by
    refine always_iff.mpr fun e past _ => ?_
    match e with
    | .received (.ok n) => exact hsettled _ _
    | .received (.error _) | .request _ | .checked _ _ | .sent _ => trivial
  constructor
  · intro hrun
    have hends := self.streamLive_settled hfault sender fuel subscription blockConfirmations hrun hC
    rcases result with _ | e | u
    · obtain ⟨⟨e, hstreamed⟩, hfuel⟩ := hends
      exact ⟨e, hstreamed.coversExactly_messages hok, fun hreturns => (by cases hreturns),
        fun _ => hfuel⟩
    · exact absurd rfl (hok.returns e)
    · obtain ⟨e, hstreamed, hend⟩ := hends
      refine ⟨e, Streamed.coversExactly_messages (hstreamed.elim id And.left) hok,
        fun _ hopen => hend.resolve_right (hok.not_cutShort hopen), fun hnone => ?_⟩
      cases hnone
  · intro startId start hstart hrun
    obtain ⟨start', hresolved, hends⟩ :=
      (self.syncHandler sender startId blockConfirmations).run_settled hfault rfl
        (fun k => hsettled k _) fuel subscription hrun hC
    obtain rfl := hresolved start hstart
    rcases result with _ | e | u
    · obtain ⟨k, hcaught, ⟨⟨e, hstreamed⟩, hfuel⟩ | ⟨hlog, hfuel⟩⟩ := hends
      · obtain ⟨hpast, hlive⟩ := phases_coverExactly hok hcaught (Or.inl hstreamed)
        exact ⟨k, e, hpast, hlive, fun hreturns => (by cases hreturns), fun _ => Or.inl hfuel⟩
      · obtain ⟨hpast, hlive⟩ := phases_coverExactly hok hcaught
          (Or.inr ⟨streamed_start hlog, rfl⟩)
        exact ⟨k, k, hpast, hlive, fun hreturns => (by cases hreturns), fun _ => Or.inr hfuel⟩
    · exact absurd rfl (hok.returns e)
    · obtain ⟨k, hcaught, e, hstreamed, hend⟩ := hends
      obtain ⟨hpast, hlive⟩ := phases_coverExactly hok hcaught hstreamed
      exact ⟨k, e, hpast, hlive, fun _ hopen => hend.resolve_right (hok.not_cutShort hopen),
        fun hnone => (by cases hnone)⟩

/-! ### A chain that grows -/

/-- A chain that grows by two blocks before the third provider call. -/
def growing : BlockRangeScanner ℕ where
  provider := .healthy (switchAt 2 (.ofHashes 0 [1, 2, 3] 0) (.ofHashes 0 [1, 2, 3, 4, 5] 0))
  maxBlockRange := defaultMaxBlockRange
  pastBlocksStorageCapacity := .infinite

/-- The items of a subscription: a header too early, a gap, and headers out of order. -/
def unordered : List SubscriptionItem := [.ok 1, .error (.lagged 2), .ok 5, .ok 4, .ok 5, .ok 6]

/-- The log of a live stream over the chain that grows. -/
def growingLiveLog : Log ℕ := ((growing.streamLive ⟨none⟩ 5 unordered 1).run []).2

/-- The log of a sync stream from block `1` on over the chain that grows. -/
def growingSyncLog : Log ℕ :=
  ((growing.streamFrom ⟨none⟩ 5 unordered (.number (.number 1)) 1).run []).2

/-- The live stream begins at block `3`, the sync stream at block `1`. -/
theorem streams_coverExactly_growing :
    messages growingLiveLog = [dataItem ⟨3, 4⟩, dataItem ⟨5, 5⟩] ∧
      growing.LiveCoverage ⟨none⟩ 5 unordered 1 (some (.ok ())) growingLiveLog ∧
      messages growingSyncLog = [dataItem ⟨1, 2⟩, dataItem ⟨3, 4⟩,
        notificationItem .switchingToLive, dataItem ⟨5, 5⟩] ∧
      growing.SyncCoverage ⟨none⟩ 5 unordered (.number (.number 1)) 1 1 (some (.ok ()))
        growingSyncLog := by
  have hlive : messages growingLiveLog = [dataItem ⟨3, 4⟩, dataItem ⟨5, 5⟩] := rfl
  have hsync : messages growingSyncLog = [dataItem ⟨1, 2⟩, dataItem ⟨3, 4⟩,
      notificationItem .switchingToLive, dataItem ⟨5, 5⟩] := rfl
  have hgrows : OnlyGrows growing.provider.view := onlyGrows_switchAt (by decide)
  refine ⟨hlive, (growing.streams_coverExactly hgrows (by simp [growing, RobustProvider.healthy])
    ⟨none⟩ 5 unordered 1 _ _ ⟨by simp, fun e he => ?_⟩).1 rfl, hsync,
    (growing.streams_coverExactly hgrows (by simp [growing, RobustProvider.healthy]) ⟨none⟩ 5
      unordered 1 _ _ ⟨by simp, fun e he => ?_⟩).2 (.number (.number 1)) 1 rfl rfl⟩
  · have hmem : .error e ∈ messages growingLiveLog := mem_messages.mpr he
    simp [hlive] at hmem
  · have hmem : .error e ∈ messages growingSyncLog := mem_messages.mpr he
    simp [hsync] at hmem

end BlockRangeScanner

end EventScanner
