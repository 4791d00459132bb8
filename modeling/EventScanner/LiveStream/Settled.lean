import EventScanner.BlockRangeScanner.LiveRun

set_option relaxedAutoImplicit false
set_option autoImplicit false

/-!
# Live streams over settled blocks

A block is settled when it is not replaced any more. As long as a header only confirms settled
blocks, no check of the live stream finds a reorg: the stream goes from its first block to the
last confirmed one without a gap and without a block twice.

## Main definitions

* `EventScanner.RobustProvider.SettledUpTo` — the blocks up to a height are settled.
* `EventScanner.HeadersSettled` — headers confirm settled blocks.
* `EventScanner.Streams`, `EventScanner.Streamed` — consecutive ranges, and no notification.
* `EventScanner.coveredEnd` — where a stream stands behind some headers.

## Main results

* `EventScanner.LiveConfig.triple_streamBlocksContinuously` — the main loop.
* `EventScanner.LiveConfig.triple_streamLiveBlocks` — the live stream.
-/

namespace EventScanner

open HashChain EventLog

variable {Hash : Type}

/-! ### Settled blocks -/

namespace RobustProvider

/-- From the `k`-th call on, the blocks up to the height `n` are not replaced any more. -/
def SettledUpTo (provider : RobustProvider Hash) (k n : ℕ) : Prop :=
  ∀ i, k ≤ i → ∀ b : Block Hash, b.number ≤ n → (provider.view i).Canonical b →
    ∀ j, i ≤ j → (provider.view j).Canonical b

/-- The block is on the chain at all calls to come. -/
def StaysCanonical (provider : RobustProvider Hash) (b : Block Hash) (log : Log Hash) : Prop :=
  ∀ j, clock log ≤ j → (provider.view j).Canonical b

variable {provider : RobustProvider Hash}

/-- Settled blocks stay settled. -/
lemma SettledUpTo.mono {k k' n n' : ℕ} (h : provider.SettledUpTo k n) (hk : k ≤ k')
    (hn : n' ≤ n) : provider.SettledUpTo k' n' :=
  fun i hi b hb => h i (hk.trans hi) b (hb.trans hn)

/-- If the chain is settled up to a height that it has, there is a block of this height that stays.
-/
lemma SettledUpTo.exists_stays {N n : ℕ} (h : provider.SettledUpTo 0 N) (hn : n ≤ N)
    (hheight : n ≤ (provider.view 0).height) (log : Log Hash) :
    ∃ b, b.number = n ∧ provider.StaysCanonical b log := by
  have hpos := List.length_pos_of_ne_nil (provider.view 0).hashes_ne_nil
  unfold Chain.height at hheight
  have hhash : (provider.view 0).hashAt n = some (provider.view 0).hashes[n] :=
    List.getElem?_eq_getElem (by omega)
  exact ⟨⟨n, _⟩, rfl, fun j _ => h 0 le_rfl ⟨n, _⟩ hn hhash j (Nat.zero_le j)⟩

/-- A block that stays is found whenever it is asked for. -/
lemma StaysCanonical.answer {b : Block Hash} {log : Log Hash} (h : provider.StaysCanonical b log)
    (hfault : ∀ k, provider.fault k = none) {k : ℕ} (hk : clock log ≤ k) :
    provider.answer k (provider.findId k (.number (.number b.number))) = .ok b :=
  DefaultReorgHandler.answer_eq_ok_of_sees ⟨hfault k, h k hk⟩

/-- A block that stays on the chain goes on to do so. -/
lemma StaysCanonical.of_suffix {b : Block Hash} {log log' : Log Hash}
    (h : provider.StaysCanonical b log) (hs : log <:+ log') : provider.StaysCanonical b log' :=
  fun j hj => h j ((clock_le_of_suffix hs).trans hj)

end RobustProvider

/-- When a header arrives, the blocks that it confirms are settled. -/
def HeadersSettled (provider : RobustProvider Hash) (blockConfirmations : ℕ) :
    Event Hash → Log Hash → Prop
  | .received (.ok n), past => provider.SettledUpTo (clock past) (n - blockConfirmations)
  | _, _ => True

/-! ### Consecutive ranges -/

/-- The range that an item carries. -/
def dataRange : BlockScannerResult → Option RangeInclusive
  | .ok (.data range) => some range
  | .ok (.notification _) | .error _ => none

/-- The items carry consecutive ranges of at most `m` blocks, from `s` up to `k` (exclusively), and
no notification. -/
structure Streams (m s k : ℕ) (items : List BlockScannerResult) : Prop where
  /-- The ranges go from `s` up to `k`. -/
  consecutive : RangeInclusive.Consecutive m s k (items.filterMap dataRange)
  /-- There is no notification. -/
  quiet : ∀ n, notificationItem n ∉ items

namespace Streams

variable {m s k k' : ℕ} {items items' : List BlockScannerResult}

lemma nil : Streams m s s [] := ⟨rfl, fun _ h => absurd h List.not_mem_nil⟩

/-- An error changes nothing. -/
lemma error (h : Streams m s k items) (e : ScannerError) : Streams m s k (items ++ [.error e]) where
  consecutive := by
    rw [List.filterMap_append]
    exact h.consecutive.append rfl
  quiet n hn := h.quiet n (by simpa using hn)

/-- A range from `k` on moves the end behind it. -/
lemma range {r : RangeInclusive} (h : Streams m s r.start items) (hle : r.start ≤ r.stop)
    (hsize : r.stop ≤ r.start + (m - 1)) :
    Streams m s (r.stop + 1) (items ++ [dataItem r]) where
  consecutive := by
    rw [List.filterMap_append]
    exact h.consecutive.append (.singleton hle hsize)
  quiet n hn := h.quiet n (by simpa using hn)

end Streams

/-- Behind the items `before`, a stream has sent consecutive ranges from `s` up to `k`. -/
def Streamed (m s k : ℕ) (before : List BlockScannerResult) (log : Log Hash) : Prop :=
  ∃ items, messages log = before ++ items ∧ Streams m s k items

/-- A stream has sent consecutive ranges and was cut short. -/
def Interrupted (sender : Sender) (m s : ℕ) (before : List BlockScannerResult) (log : Log Hash) :
    Prop :=
  CutShort sender log ∧ ∃ k, Streamed m s k before log

/-- Behind an attempt to send: `P` holds, or the receiver is gone. -/
def OpenOr (P : Log Hash → Prop) (sender : Sender) (m s : ℕ) (before : List BlockScannerResult) :
    ChannelState → Log Hash → Prop
  | .opened, log => P log
  | .closed, log => Interrupted sender m s before log

section Streamed

variable {m s k : ℕ} {before : List BlockScannerResult} {log : Log Hash}

/-- A stream that has not sent anything. -/
lemma streamed_start (hlog : messages log = before) : Streamed m s s before log :=
  ⟨[], by rw [hlog, List.append_nil], Streams.nil⟩

/-- What a stream has sent that has begun with nothing. -/
lemma Streamed.streams (h : Streamed m s k [] log) : Streams m s k (messages log) := by
  obtain ⟨items, hlog, hitems⟩ := h
  rw [hlog]
  exact hitems

lemma Streamed.request (h : Streamed m s k before log) (r : Request Hash) :
    Streamed m s k before (.request r :: log) := h

/-- A range from where the stream stands. -/
lemma Streamed.range {r : RangeInclusive} (h : Streamed m s r.start before log)
    (hle : r.start ≤ r.stop) (hsize : r.stop ≤ r.start + (m - 1)) :
    Streamed m s (r.stop + 1) before (.sent (dataItem r) :: log) := by
  obtain ⟨items, hlog, hitems⟩ := h
  exact ⟨_, by rw [messages_sent, hlog, List.append_assoc], hitems.range hle hsize⟩

/-- An error moves nothing. -/
lemma Streamed.error (h : Streamed m s k before log) (e : ScannerError) :
    Streamed m s k before (.sent (.error e) :: log) := by
  obtain ⟨items, hlog, hitems⟩ := h
  exact ⟨_, by rw [messages_sent, hlog, List.append_assoc], hitems.error e⟩

/-- An error is sent, or the receiver is gone: the stream is cut short. -/
lemma triple_interrupt {sender : Sender} {e : ScannerError} {E : Log Hash → Prop} :
    Proc.Triple (Streamed m s k before) (tryStream sender (.error e))
      (fun _ log => CutShort sender log ∧ Streamed m s k before log) E := by
  intro log hlog
  rw [run_tryStream]
  split_ifs with hopen
  · exact ⟨Or.inl ⟨e, List.mem_cons_self⟩, hlog.error e⟩
  · exact ⟨Or.inr (Bool.eq_false_iff.mpr hopen), hlog⟩

/-- The same for a stream that has not sent anything. -/
lemma triple_interruptStart (m s : ℕ) {sender : Sender} {e : ScannerError} {E : Log Hash → Prop} :
    Proc.Triple (fun log => messages log = before) (tryStream sender (.error e))
      (fun _ log => CutShort sender log ∧ Streamed m s s before log) E :=
  triple_interrupt.conseq (fun _ h => streamed_start h) (fun _ _ h => h) fun _ h => h

/-- A message is sent, or the receiver is gone. -/
lemma triple_sendOr {sender : Sender} {item : BlockScannerResult} {P Q E : Log Hash → Prop}
    (hsent : ∀ log, P log → Q (.sent item :: log))
    (hstreamed : ∀ log, P log → ∃ k, Streamed m s k before log) :
    Proc.Triple P (tryStream sender item) (OpenOr Q sender m s before) E := by
  intro log hlog
  rw [run_tryStream]
  split_ifs with hopen
  · exact hsent log hlog
  · exact ⟨Or.inr (Bool.eq_false_iff.mpr hopen), hstreamed log hlog⟩

end Streamed

/-! ### Reads and checks of settled blocks -/

section Settled

variable {provider : RobustProvider Hash} {P : Log Hash → Prop} {E : Log Hash → Prop}

/-- A block that is read while its height is settled stays on the chain. -/
lemma triple_readSettled {n N : ℕ} (hn : n ≤ N) (hreq : ∀ r log, P log → P (.request r :: log))
    (hsettled : ∀ log, P log → provider.SettledUpTo (clock log) N) :
    Proc.Triple P (getBlockByNumber provider (.number n))
      (fun res log => P log ∧ ∀ b, res = .ok b → b.number = n ∧ provider.StaysCanonical b log)
      E := by
  intro log hlog
  refine ⟨hreq _ log hlog, fun b hb => ?_⟩
  obtain ⟨hnum, -, hcanonical⟩ := DefaultReorgHandler.answer_number_eq_ok hb
  refine ⟨hnum, fun j hj => ?_⟩
  rw [clock_request] at hj
  exact hsettled log hlog _ le_rfl b (hnum.le.trans hn) hcanonical j (by omega)

variable [DecidableEq Hash]

/-- What a check leaves behind that finds no reorg: `P` holds, and a handler that answers still asks
the node. -/
def ChecksOut (provider : RobustProvider Hash) (P : Log Hash → Prop) :
    DefaultReorgHandler.CheckResult Hash → Log Hash → Prop
  | (.ok none, h), log => P log ∧ h.provider = provider
  | (.error _, _), log => P log
  | (.ok (some _), _), _ => False

/-- A check of a block that stays on the chain finds no reorg. -/
lemma triple_checkSettled (hfault : ∀ k, provider.fault k ≠ some .blockNotFound)
    {h : DefaultReorgHandler Hash} (hh : h.provider = provider) {b : Block Hash}
    (hreq : ∀ r log, P log → P (.request r :: log))
    (hchecked : ∀ log, P log → P (.checked b none :: log))
    (hstays : ∀ log, P log → provider.StaysCanonical b log) :
    Proc.Triple P (checkBlock h b) (ChecksOut provider P) E := by
  intro log hlog
  have hreqs {reqs : Log Hash} (h : ∀ e ∈ reqs, e.isRequest = true) : P (reqs ++ log) := by
    induction reqs with
    | nil => exact hlog
    | cons e reqs ih =>
      cases e with
      | request r => exact hreq r _ (ih fun e he => h e (List.mem_cons_of_mem _ he))
      | received | checked | sent => exact absurd (h _ List.mem_cons_self) (by simp)
  obtain ⟨h', reqs, hquiet, ⟨e, -, hrun⟩ | ⟨a, hcheck, hrun⟩⟩ := checkBlock_cases h b log <;>
    rw [hrun]
  · exact hreqs hquiet
  · cases a with
    | none =>
      exact ⟨hchecked _ (hreqs hquiet), (DefaultReorgHandler.check_provider hcheck).trans hh⟩
    | some a =>
      obtain ⟨-, hmiss, -⟩ := DefaultReorgHandler.check_eq_ok_some hcheck
      rw [hh] at hmiss
      rcases hmiss with hmissing | ⟨-, hgone⟩
      · exact absurd hmissing (hfault _)
      · exact absurd (hstays log hlog _ le_rfl) hgone

end Settled

/-! ### The batch loop -/

section Batches

variable [DecidableEq Hash] (cfg : LiveConfig Hash) (s : ℕ) (before : List BlockScannerResult)

/-- Where the batch loop stands: everything up to the cursor was streamed, the blocks up to the end
of the iterator are settled, and the last batch end stays on the chain. -/
structure AtBatch (iter : RangeIterator .forward) (last : Option (Block Hash)) (log : Log Hash) :
    Prop where
  /-- The stream stands at the cursor. -/
  streamed : Streamed cfg.maxBlockRange s iter.current before log
  /-- What is still to be streamed is settled. -/
  settled : cfg.provider.SettledUpTo (clock log) iter.stop
  /-- The last batch end is the block before the cursor. -/
  last : ∀ b ∈ last, b.number + 1 = iter.current ∧ cfg.provider.StaysCanonical b log

/-- Where a stream stands behind the block `b`, which stays on the chain. -/
structure Behind (b : Block Hash) (log : Log Hash) : Prop where
  /-- The stream stands behind `b`. -/
  streamed : Streamed cfg.maxBlockRange s (b.number + 1) before log
  /-- The block stays on the chain. -/
  stays : cfg.provider.StaysCanonical b log

/-- How the batch loop up to a block `stop` ends: behind that block, or cut short. -/
def BatchesEnd (stop : ℕ) : Option (Block Hash) × DefaultReorgHandler Hash → Log Hash → Prop
  | (some b, h), log => h.provider = cfg.provider ∧ b.number = stop ∧ Behind cfg s before b log
  | (none, _), log => Interrupted cfg.sender cfg.maxBlockRange s before log

variable {cfg s before} {iter : RangeIterator .forward} {last : Option (Block Hash)}
  {log : Log Hash}

omit [DecidableEq Hash] in
lemma AtBatch.of_messages {log' : Log Hash} (h : AtBatch cfg s before iter last log)
    (hs : log <:+ log') (hmessages : messages log' = messages log) :
    AtBatch cfg s before iter last log' where
  streamed := by
    unfold Streamed
    rw [hmessages]
    exact h.streamed
  settled := h.settled.mono (clock_le_of_suffix hs) le_rfl
  last b hb := ⟨(h.last b hb).1, (h.last b hb).2.of_suffix hs⟩

omit [DecidableEq Hash] in
lemma Behind.of_messages {b : Block Hash} {log' : Log Hash} (h : Behind cfg s before b log)
    (hs : log <:+ log') (hmessages : messages log' = messages log) :
    Behind cfg s before b log' where
  streamed := by
    unfold Streamed
    rw [hmessages]
    exact h.streamed
  stays := h.stays.of_suffix hs

/-- **The batch loop** over settled blocks streams all of them. It does not run out of fuel if
there is more than one unit for each block.

**Proof sketch.** Induction on the fuel. The end of each batch stays on the chain from its read on,
so its check finds no reorg. -/
lemma triple_streamBatches (hfault : ∀ k, cfg.provider.fault k ≠ some .blockNotFound) (fuel : ℕ)
    (h : DefaultReorgHandler Hash) (hh : h.provider = cfg.provider) (hwf : iter.Wf)
    (hsize : iter.rangeSize = cfg.maxBlockRange) (hle : iter.current ≤ iter.stop + 1)
    (hlast : last = none → iter.current ≤ iter.stop) :
    Proc.Triple (AtBatch cfg s before iter last)
      (streamBatches cfg.sender cfg.provider cfg.minCommonAncestor fuel iter last h)
      (BatchesEnd cfg s before iter.stop)
      (fun log => (∃ k, Streamed cfg.maxBlockRange s k before log) ∧
        fuel ≤ iter.stop + 1 - iter.current) := by
  induction fuel generalizing iter last h with
  | zero => exact Proc.Triple.halt fun log hlog => ⟨⟨_, hlog.streamed⟩, Nat.zero_le _⟩
  | succ fuel ih =>
    unfold streamBatches
    rcases hnext : iter.next with _ | ⟨batch, iter'⟩
    · have hdone := hwf.next_eq_none.mp hnext
      cases last with
      | none => exact absurd (hlast rfl) (by omega)
      | some b =>
        refine Proc.Triple.pure fun log hlog => ?_
        obtain ⟨hb, hstays⟩ := hlog.last b rfl
        refine ⟨hh, by omega, ?_, hstays⟩
        rw [hb]
        exact hlog.streamed
    · obtain ⟨hcurrent, hbatch, hcurrent', hstop', hsize', hwf'⟩ := hwf.next_eq_some hnext
      have hbounds : batch.start = iter.current ∧ batch.start ≤ batch.stop ∧
          batch.stop ≤ batch.start + (cfg.maxBlockRange - 1) ∧ batch.stop ≤ iter.stop := by
        rw [hbatch, ← hsize]
        dsimp only
        omega
      obtain ⟨hstart, hle', hbatchSize, hbatchStop⟩ := hbounds
      refine Proc.Triple.bind (triple_readSettled hbatchStop
        (fun r log hlog => hlog.of_messages (List.suffix_cons _ _) rfl)
        fun log hlog => hlog.settled) fun answer => ?_
      cases answer with
      | error e =>
        refine Proc.Triple.bind (Q := fun _ =>
          Interrupted cfg.sender cfg.maxBlockRange s before) ?_ fun _ =>
            Proc.Triple.pure fun _ hlog => hlog
        exact triple_interrupt.conseq (fun _ hlog => hlog.1.streamed) (fun _ _ h => ⟨h.1, _, h.2⟩)
          fun _ h => h
      | ok batchEnd =>
        have hsent (log : Log Hash) (hlog : AtBatch cfg s before iter last log)
            (hb : batchEnd.number = batch.stop ∧ cfg.provider.StaysCanonical batchEnd log) :
            AtBatch cfg s before iter' (some batchEnd) (.sent (dataItem batch) :: log) := by
          have hstreamed := hlog.streamed
          rw [← hstart] at hstreamed
          refine ⟨hcurrent' ▸ hstreamed.range hle' hbatchSize, ?_, ?_⟩
          · rw [clock_sent, hstop']
            exact hlog.settled
          · rintro b ⟨⟩
            exact ⟨by omega, hb.2.of_suffix (List.suffix_cons _ _)⟩
        refine Proc.Triple.bind (triple_sendOr (fun log hlog => hsent log hlog.1 (hlog.2 _ rfl))
          fun log hlog => ⟨_, hlog.1.streamed⟩) fun channel => ?_
        cases channel with
        | closed => exact Proc.Triple.pure fun log hlog => hlog
        | opened =>
          refine Proc.Triple.bind (triple_checkSettled hfault hh
            (fun r log hlog => hlog.of_messages (List.suffix_cons _ _) rfl)
            (fun log hlog => hlog.of_messages (List.suffix_cons _ _) rfl)
            fun log hlog => (hlog.last batchEnd rfl).2) fun result => ?_
          rcases result with ⟨e | _ | a, h'⟩
          · refine Proc.Triple.bind (Q := fun _ =>
              Interrupted cfg.sender cfg.maxBlockRange s before) ?_ fun _ =>
                Proc.Triple.pure fun _ hlog => hlog
            exact triple_interrupt.conseq (fun _ hlog => hlog.streamed) (fun _ _ h => ⟨h.1, _, h.2⟩)
              fun _ h => h
          · intro log hlog
            obtain ⟨hat, hh'⟩ := hlog
            have hrest := ih h' hh' hwf' (hsize'.trans hsize) (by omega)
              fun hnone : some batchEnd = none => absurd hnone (Option.some_ne_none _)
            rw [hstop'] at hrest
            exact hrest.conseq (fun _ h => h) (fun _ _ h => h)
              (fun log hlog => ⟨hlog.1, by omega⟩) log hat
          · exact fun log hlog => absurd hlog id

/-- The batch loop over the blocks from `k` to `stop`. -/
lemma triple_streamRange (hfault : ∀ k, cfg.provider.fault k ≠ some .blockNotFound) (fuel : ℕ)
    (h : DefaultReorgHandler Hash) (hh : h.provider = cfg.provider) {k stop : ℕ} (hle : k ≤ stop) :
    Proc.Triple
      (fun log => Streamed cfg.maxBlockRange s k before log ∧
        cfg.provider.SettledUpTo (clock log) stop)
      (streamRangeWithReorgHandling fuel cfg.minCommonAncestor k stop cfg.maxBlockRange cfg.sender
        cfg.provider h)
      (BatchesEnd cfg s before stop)
      (fun log => (∃ k, Streamed cfg.maxBlockRange s k before log) ∧ fuel ≤ stop + 1) := by
  refine (triple_streamBatches hfault fuel h hh (RangeIterator.wf_forward k stop cfg.maxBlockRange)
    rfl (Nat.le_succ_of_le hle) fun _ => hle).conseq (fun log hlog => ⟨hlog.1, hlog.2, ?_⟩)
    (fun _ _ h => h) fun log hlog => ⟨hlog.1, hlog.2.trans (Nat.sub_le _ _)⟩
  exact fun b hb => absurd hb (by simp)

end Batches

/-! ### Headers -/

/-- The headers among the items of a subscription. -/
def headers (subscription : List SubscriptionItem) : List ℕ :=
  subscription.filterMap Except.toOption

/-- Where a stream that stood at `k` stands behind the headers (exclusively). -/
def coveredEnd (blockConfirmations k : ℕ) (headers : List ℕ) : ℕ :=
  headers.foldl (fun e n => max e (n - blockConfirmations + 1)) k

section Headers

variable {rest : List SubscriptionItem} {c k : ℕ}

@[simp] lemma headers_nil : headers [] = [] := rfl

@[simp] lemma headers_ok (n : ℕ) : headers (.ok n :: rest) = n :: headers rest := rfl

@[simp] lemma headers_error (e : RobustProviderError) : headers (.error e :: rest) = headers rest :=
  rfl

@[simp] lemma coveredEnd_nil : coveredEnd c k [] = k := rfl

@[simp] lemma coveredEnd_cons (n : ℕ) (hs : List ℕ) :
    coveredEnd c k (n :: hs) = coveredEnd c (max k (n - c + 1)) hs := rfl

end Headers

/-! ### The main loop -/

namespace LiveConfig

variable [DecidableEq Hash] (cfg : LiveConfig Hash) (s : ℕ) (before : List BlockScannerResult)

/-- How a round of the main loop ends: the stream stands at `e`, or it was cut short. -/
def RoundEnds (e : ℕ) :
    Option (LiveStreamingState Hash × DefaultReorgHandler Hash) → Log Hash → Prop
  | some (state, h), log => h.provider = cfg.provider ∧ ∃ b, state.previousBatchEnd = some b ∧
      b.number + 1 = e ∧ Behind cfg s before b log
  | none, log => Interrupted cfg.sender cfg.maxBlockRange s before log

/-- The stream has sent consecutive ranges so far, and has run out of fuel on a header that brings
at least as many blocks. -/
def OutOfFuel (fuel : ℕ) (items : List SubscriptionItem) (log : Log Hash) : Prop :=
  (∃ k, Streamed cfg.maxBlockRange s k before log) ∧ ∃ n, .ok n ∈ items ∧ fuel ≤ n + 1

variable {cfg s before} {fuel n : ℕ} {h : DefaultReorgHandler Hash} {b : Block Hash}

/-- **The blocks up to a confirmed one**, from behind the block `b`, are streamed. -/
lemma triple_streamUpTo (hfault : ∀ k, cfg.provider.fault k ≠ some .blockNotFound)
    (hh : h.provider = cfg.provider) :
    Proc.Triple
      (fun log => Behind cfg s before b log ∧
        cfg.provider.SettledUpTo (clock log) (cfg.confirmed n))
      (cfg.streamUpTo fuel n ⟨b.number + 1, some b⟩ h)
      (cfg.RoundEnds s before (max (b.number + 1) (cfg.confirmed n + 1)))
      (cfg.OutOfFuel s before fuel [.ok n]) := by
  refine Proc.Triple.bind (Q := fun res => cfg.RoundEnds s before
    (max (b.number + 1) (cfg.confirmed n + 1)) (if res.1.isClosed then none else some res.2))
    ?_ fun result => ?_
  · unfold streamNextBatch
    split_ifs with hlt
    · refine Proc.Triple.pure fun log hlog => ⟨hh, b, rfl, ?_, hlog.1⟩
      exact (Nat.max_eq_left (Nat.succ_le_of_lt hlt)).symm
    · have hle : b.number + 1 ≤ cfg.confirmed n := Nat.le_of_not_lt hlt
      refine Proc.Triple.bind ((triple_streamRange hfault fuel h hh hle).conseq
        (fun log hlog => ⟨hlog.1.streamed, hlog.2⟩) (fun _ _ h => h) fun log hlog =>
          ⟨hlog.1, n, List.mem_singleton_self _, ?_⟩) fun result => ?_
      · exact hlog.2.trans (Nat.succ_le_succ (Nat.sub_le _ _))
      · rcases result with ⟨_ | b', h'⟩
        · exact Proc.Triple.pure fun log hlog => hlog
        · refine Proc.Triple.pure fun log hlog => ⟨hlog.1, b', rfl, ?_, hlog.2.2⟩
          rw [hlog.2.1]
          omega
  · rcases result with ⟨_ | _, state, h'⟩ <;> exact Proc.Triple.pure fun log hlog => hlog

/-- **A round of the main loop.** The check of the block `b` finds no reorg, and the stream goes on
up to the confirmed block. -/
lemma triple_liveIteration (hfault : ∀ k, cfg.provider.fault k ≠ some .blockNotFound)
    (hh : h.provider = cfg.provider) (item : SubscriptionItem) {state : LiveStreamingState Hash}
    (hstate : state.previousBatchEnd = some b) :
    Proc.Triple
      (fun log => Always (HeadersSettled cfg.provider cfg.blockConfirmations) log →
        Behind cfg s before b log)
      (cfg.liveIteration fuel item state h)
      (fun res log => Always (HeadersSettled cfg.provider cfg.blockConfirmations) log →
        cfg.RoundEnds s before
          (coveredEnd cfg.blockConfirmations (b.number + 1) (headers [item])) res log)
      (fun log => Always (HeadersSettled cfg.provider cfg.blockConfirmations) log →
        cfg.OutOfFuel s before fuel [item] log) := by
  refine Proc.Triple.bind (Q := fun _ log =>
    Always (HeadersSettled cfg.provider cfg.blockConfirmations) log → Behind cfg s before b log ∧
      ∀ n, item = .ok n → cfg.provider.SettledUpTo (clock log) (cfg.confirmed n))
    (Proc.Triple.emit fun log hlog hC => ?_) fun _ => Proc.Triple.assuming _ ?_
  · refine ⟨(hlog hC.2).of_messages (List.suffix_cons _ _) rfl, ?_⟩
    rintro n rfl
    rw [clock_received]
    exact hC.1
  · have hinterrupt (e : ScannerError) {P : Log Hash → Prop} (hP : ∀ log, P log →
        Behind cfg s before b log) : Proc.Triple P
          (tryStream cfg.sender (.error e) >>= fun _ => pure none)
          (cfg.RoundEnds s before
            (coveredEnd cfg.blockConfirmations (b.number + 1) (headers [item])))
          (cfg.OutOfFuel s before fuel [item]) := by
      refine Proc.Triple.bind (triple_interrupt.conseq (fun _ hlog => (hP _ hlog).streamed)
        (fun _ _ h => ⟨h.1, _, h.2⟩) fun _ h => h) fun _ => Proc.Triple.pure fun _ hlog => hlog
    match item with
    | .error (.lagged k) => exact Proc.Triple.pure fun log hlog => ⟨hh, b, hstate, rfl, hlog.1⟩
    | .error .timeout | .error (.rpcError _) | .error .closed | .error .blockNotFound =>
      exact hinterrupt _ fun _ hlog => hlog.1
    | .ok n =>
      dsimp only
      rw [hstate]
      refine Proc.Triple.conseq (P := fun log => Behind cfg s before b log ∧
          cfg.provider.SettledUpTo (clock log) (cfg.confirmed n)) ?_
        (fun log hlog => ⟨hlog.1, hlog.2 n rfl⟩) (fun _ _ h => h) fun _ h => h
      have hquiet (e : Event Hash) (log : Log Hash) (he : messages (e :: log) = messages log)
          (hlog : Behind cfg s before b log ∧
            cfg.provider.SettledUpTo (clock log) (cfg.confirmed n)) :
          Behind cfg s before b (e :: log) ∧
            cfg.provider.SettledUpTo (clock (e :: log)) (cfg.confirmed n) :=
        ⟨hlog.1.of_messages (List.suffix_cons _ _) he,
          hlog.2.mono (clock_le_of_suffix (List.suffix_cons _ _)) le_rfl⟩
      refine Proc.Triple.bind (triple_checkSettled hfault hh (fun r log => hquiet _ log rfl)
        (fun log => hquiet _ log rfl) fun log hlog => hlog.1.stays) fun result => ?_
      rcases result with ⟨e | _ | a, h'⟩
      · exact hinterrupt _ fun _ hlog => hlog.1
      · exact fun log hlog => triple_streamUpTo hfault hlog.2 log hlog.1
      · exact fun log hlog => absurd hlog id

/-- Where the stream stands behind one more header. -/
lemma coveredEnd_headers_cons (c k : ℕ) (item : SubscriptionItem) (rest : List SubscriptionItem) :
    coveredEnd c k (headers (item :: rest)) =
      coveredEnd c (coveredEnd c k (headers [item])) (headers rest) := by
  cases item <;> rfl

variable (s before fuel) in
/-- **The main loop** streams up to the highest confirmed block, or is cut short.

**Proof sketch.** Induction on the items of the subscription, one round of the loop at a time. -/
theorem triple_streamBlocksContinuously
    (hfault : ∀ k, cfg.provider.fault k ≠ some .blockNotFound) (hh : h.provider = cfg.provider)
    (stream : List SubscriptionItem) {state : LiveStreamingState Hash}
    (hstate : state.previousBatchEnd = some b) :
    Proc.Triple
      (fun log => Always (HeadersSettled cfg.provider cfg.blockConfirmations) log →
        Behind cfg s before b log)
      (cfg.streamBlocksContinuously fuel stream state h)
      (fun _ log => Always (HeadersSettled cfg.provider cfg.blockConfirmations) log →
        ∃ e, Streamed cfg.maxBlockRange s e before log ∧
          (e = coveredEnd cfg.blockConfirmations (b.number + 1) (headers stream) ∨
            CutShort cfg.sender log))
      (fun log => Always (HeadersSettled cfg.provider cfg.blockConfirmations) log →
        cfg.OutOfFuel s before fuel stream log) := by
  induction stream generalizing state h b with
  | nil => exact Proc.Triple.pure fun log hlog hC => ⟨_, (hlog hC).streamed, Or.inl rfl⟩
  | cons item stream ih =>
    refine Proc.Triple.bind ((triple_liveIteration hfault hh item hstate).conseq
      (fun _ h => h) (fun _ _ h => h) fun log hlog hC => ?_) fun result => ?_
    · obtain ⟨hstreamed, n, hn, hfuel⟩ := hlog hC
      rw [List.mem_singleton] at hn
      exact ⟨hstreamed, n, hn ▸ List.mem_cons_self, hfuel⟩
    · rcases result with _ | ⟨state', h'⟩
      · refine Proc.Triple.pure fun log hlog hC => ?_
        obtain ⟨hcut, e, hstreamed⟩ := hlog hC
        exact ⟨e, hstreamed, Or.inr hcut⟩
      · refine Proc.Triple.of_assuming fun log hC hlog => ?_
        obtain ⟨hh', b', hstate', hb', hbehind⟩ := hlog
        have hrest := ih hh' hstate'
        rw [hb', ← coveredEnd_headers_cons] at hrest
        refine hrest.conseq (fun _ h => h) (fun _ _ h => h) (fun log hlog hC => ?_) log
          fun _ => hbehind
        obtain ⟨hstreamed, n, hn, hfuel⟩ := hlog hC
        exact ⟨hstreamed, n, List.mem_cons_of_mem _ hn, hfuel⟩

/-! ### The whole stream -/

/-- The first item of a subscription is skipped, or it is the first relevant one. -/
lemma skipToFirstRelevantBlock_cons (item : SubscriptionItem) (rest : List SubscriptionItem)
    (start c : ℕ) :
    skipToFirstRelevantBlock (item :: rest) start c = skipToFirstRelevantBlock rest start c ∨
      skipToFirstRelevantBlock (item :: rest) start c = item :: rest ∧
        (∀ n, item = .ok n → start ≤ n - c) ∧ ∀ k, item ≠ .error (.lagged k) := by
  match item with
  | .ok n =>
    by_cases hlt : n - c < start
    · exact Or.inl (by simp [skipToFirstRelevantBlock, hlt])
    · refine Or.inr ⟨by simp [skipToFirstRelevantBlock, hlt], ?_, by simp⟩
      rintro m ⟨⟩
      exact Nat.le_of_not_lt hlt
  | .error (.lagged k) => exact Or.inl (by simp [skipToFirstRelevantBlock])
  | .error .timeout | .error (.rpcError _) | .error .closed | .error .blockNotFound =>
    exact Or.inr (by simp [skipToFirstRelevantBlock])

variable (cfg before) in
/-- The first relevant header, from a stream that stands at its first block. -/
def FirstHeader (subscription : List SubscriptionItem) :
    Option (ℕ × List SubscriptionItem) → Log Hash → Prop
  | some (n, rest), log => messages log = before ∧
      cfg.streamStart ≤ cfg.confirmed n ∧ cfg.provider.SettledUpTo (clock log) (cfg.confirmed n) ∧
      .ok n :: rest <:+ subscription ∧
      headers (skipToFirstRelevantBlock subscription cfg.streamStart cfg.blockConfirmations) =
        n :: headers rest
  | none, log => Streamed cfg.maxBlockRange cfg.streamStart cfg.streamStart before log ∧
      (headers (skipToFirstRelevantBlock subscription cfg.streamStart cfg.blockConfirmations) = [] ∨
        CutShort cfg.sender log)

omit [DecidableEq Hash] in
/-- An item that is skipped. -/
lemma FirstHeader.skipped {subscription : List SubscriptionItem} {item : SubscriptionItem}
    {res : Option (ℕ × List SubscriptionItem)} {log : Log Hash}
    (h : cfg.FirstHeader before subscription res log)
    (hskip : skipToFirstRelevantBlock (item :: subscription) cfg.streamStart
      cfg.blockConfirmations =
        skipToFirstRelevantBlock subscription cfg.streamStart cfg.blockConfirmations) :
    cfg.FirstHeader before (item :: subscription) res log := by
  rcases res with _ | ⟨n, rest⟩
  · exact ⟨h.1, hskip ▸ h.2⟩
  · obtain ⟨hmessages, hrel, hsettled, hrest, hheaders⟩ := h
    exact ⟨hmessages, hrel, hsettled, hrest.trans (List.suffix_cons _ _), hskip ▸ hheaders⟩

omit [DecidableEq Hash] in
/-- Waiting for the first relevant header. -/
lemma triple_getFirstBlock (subscription : List SubscriptionItem) {E : Log Hash → Prop} :
    Proc.Triple
      (fun log => Always (HeadersSettled cfg.provider cfg.blockConfirmations) log →
        messages log = before)
      (getFirstBlock cfg.sender
        (skipToFirstRelevantBlock subscription cfg.streamStart cfg.blockConfirmations))
      (fun res log => Always (HeadersSettled cfg.provider cfg.blockConfirmations) log →
        cfg.FirstHeader before subscription res log)
      (fun log => Always (HeadersSettled cfg.provider cfg.blockConfirmations) log → E log) := by
  induction subscription with
  | nil => exact Proc.Triple.pure fun log hlog hC => ⟨streamed_start (hlog hC), Or.inl rfl⟩
  | cons item rest ih =>
    rcases skipToFirstRelevantBlock_cons item rest cfg.streamStart cfg.blockConfirmations with
      hskip | ⟨hskip, hrel, hlagged⟩
    · rw [hskip]
      exact ih.conseq (fun _ h => h) (fun res log hlog hC => (hlog hC).skipped hskip) fun _ h => h
    · rw [hskip]
      match item with
      | .ok n =>
        refine Proc.Triple.bind (Q := fun _ log =>
          Always (HeadersSettled cfg.provider cfg.blockConfirmations) log →
            cfg.FirstHeader before (.ok n :: rest) (some (n, rest)) log)
          (Proc.Triple.emit fun log hlog hC => ?_) fun _ => Proc.Triple.pure fun log hlog => hlog
        refine ⟨hlog hC.2, hrel n rfl, ?_, List.suffix_refl _, by rw [hskip]; rfl⟩
        rw [clock_received]
        exact hC.1
      | .error (.lagged k) => exact absurd rfl (hlagged k)
      | .error .timeout | .error (.rpcError _) | .error .closed | .error .blockNotFound =>
        exact Proc.Triple.assuming _ (Proc.Triple.bind
          (triple_interruptStart cfg.maxBlockRange cfg.streamStart) fun _ =>
            Proc.Triple.pure fun log hlog => ⟨hlog.2, Or.inr hlog.1⟩)

/-- The catch-up on the blocks up to the first relevant header. -/
lemma triple_initializeLiveStreamingState
    (hfault : ∀ k, cfg.provider.fault k ≠ some .blockNotFound) (hh : h.provider = cfg.provider)
    (hrel : cfg.streamStart ≤ cfg.confirmed n) :
    Proc.Triple
      (fun log => messages log = before ∧
        cfg.provider.SettledUpTo (clock log) (cfg.confirmed n))
      (cfg.initializeLiveStreamingState fuel n h)
      (fun res => cfg.RoundEnds cfg.streamStart before (cfg.confirmed n + 1)
        (res.1.map fun state => (state, res.2)))
      (cfg.OutOfFuel cfg.streamStart before fuel [.ok n]) := by
  refine Proc.Triple.bind ((triple_streamRange hfault fuel h hh hrel).conseq
    (fun log hlog => ⟨streamed_start hlog.1, hlog.2⟩) (fun _ _ h => h) fun log hlog =>
      ⟨hlog.1, n, List.mem_singleton_self _, ?_⟩) fun result => ?_
  · exact hlog.2.trans (Nat.succ_le_succ (Nat.sub_le _ _))
  · rcases result with ⟨_ | b, h'⟩
    · exact Proc.Triple.pure fun log hlog => hlog
    · exact Proc.Triple.pure fun log hlog =>
        ⟨hlog.1, b, rfl, congrArg Nat.succ hlog.2.1, hlog.2.2⟩

variable (cfg before) in
/-- How a live stream ends that sends `notice` behind its first relevant header: it has sent
consecutive ranges behind the notice, or there was no such header. Without having been cut short, it
stands behind the highest confirmed block. -/
def LiveEnds (notice : List BlockScannerResult) (subscription : List SubscriptionItem)
    (log : Log Hash) : Prop :=
  ∃ e, (Streamed cfg.maxBlockRange cfg.streamStart e (before ++ notice) log ∨
      Streamed cfg.maxBlockRange cfg.streamStart e before log ∧ e = cfg.streamStart) ∧
    (e = coveredEnd cfg.blockConfirmations cfg.streamStart
        (headers (skipToFirstRelevantBlock subscription cfg.streamStart
          cfg.blockConfirmations)) ∨
      CutShort cfg.sender log)

/-- The notice of a stream that goes over to the live phase. -/
def liveNotice (notifyAfterFirstBlock : Bool) : List BlockScannerResult :=
  if notifyAfterFirstBlock then [notificationItem .switchingToLive] else []

variable (cfg before) in
/-- Behind the notice, or the receiver is gone. -/
def Noticed (notifyAfterFirstBlock : Bool) (n : ℕ) : ChannelState → Log Hash → Prop
  | .opened, log => messages log = before ++ liveNotice notifyAfterFirstBlock ∧
      cfg.provider.SettledUpTo (clock log) (cfg.confirmed n)
  | .closed, log => messages log = before ∧ CutShort cfg.sender log

variable (cfg before fuel) in
/-- **The live stream** over settled blocks. -/
theorem triple_streamLiveBlocks (hfault : ∀ k, cfg.provider.fault k ≠ some .blockNotFound)
    (hh : h.provider = cfg.provider) (subscription : List SubscriptionItem)
    (notifyAfterFirstBlock : Bool) :
    Proc.Triple
      (fun log => Always (HeadersSettled cfg.provider cfg.blockConfirmations) log →
        messages log = before)
      (cfg.streamLiveBlocks fuel subscription h notifyAfterFirstBlock)
      (fun _ log => Always (HeadersSettled cfg.provider cfg.blockConfirmations) log →
        cfg.LiveEnds before (liveNotice notifyAfterFirstBlock) subscription log)
      (fun log => Always (HeadersSettled cfg.provider cfg.blockConfirmations) log →
        cfg.OutOfFuel cfg.streamStart (before ++ liveNotice notifyAfterFirstBlock) fuel subscription
          log) := by
  refine Proc.Triple.bind (cfg.triple_getFirstBlock subscription) fun result => ?_
  rcases result with _ | ⟨n, rest⟩
  · refine Proc.Triple.pure fun log hlog hC => ?_
    obtain ⟨hstreamed, hnone | hcut⟩ := hlog hC
    · exact ⟨_, Or.inr ⟨hstreamed, rfl⟩, Or.inl (by rw [hnone, coveredEnd_nil])⟩
    · exact ⟨_, Or.inr ⟨hstreamed, rfl⟩, Or.inr hcut⟩
  · refine Proc.Triple.of_assuming fun log hC hlog => ?_
    obtain ⟨hmessages, hrel, hsettled, hrest, hheaders⟩ := hlog
    have hcovered : coveredEnd cfg.blockConfirmations (cfg.confirmed n + 1) (headers rest) =
        coveredEnd cfg.blockConfirmations cfg.streamStart
          (headers (skipToFirstRelevantBlock subscription cfg.streamStart
            cfg.blockConfirmations)) := by
      rw [hheaders, coveredEnd_cons]
      exact congrArg (coveredEnd _ · _) (Nat.max_eq_right (Nat.le_succ_of_le hrel)).symm
    refine (?_ : Proc.Triple (fun log =>
      Always (HeadersSettled cfg.provider cfg.blockConfirmations) log → messages log = before ∧
        cfg.provider.SettledUpTo (clock log) (cfg.confirmed n)) _ _ _) log
      fun _ => ⟨hmessages, hsettled⟩
    cases notifyAfterFirstBlock
    case' false =>
      refine Proc.Triple.bind (Q := fun channel log =>
        Always (HeadersSettled cfg.provider cfg.blockConfirmations) log →
          cfg.Noticed before false n channel log) (Proc.Triple.pure fun log hlog hC => ?_) ?_
      · exact ⟨(hlog hC).1.trans (List.append_nil _).symm, (hlog hC).2⟩
    case' true =>
      refine Proc.Triple.bind (Q := fun channel log =>
        Always (HeadersSettled cfg.provider cfg.blockConfirmations) log →
          cfg.Noticed before true n channel log) (Proc.Triple.assuming _ fun log hlog => ?_) ?_
      · rw [run_tryStream]
        split_ifs with hopen
        · exact ⟨congrArg (· ++ _) hlog.1, hlog.2⟩
        · exact ⟨hlog.1, Or.inr (Bool.eq_false_iff.mpr hopen)⟩
    all_goals
      intro channel
      cases channel with
      | closed =>
        exact Proc.Triple.pure fun log hlog hC =>
          ⟨_, Or.inr ⟨streamed_start (hlog hC).1, rfl⟩, Or.inr (hlog hC).2⟩
      | opened =>
        refine Proc.Triple.bind ((Proc.Triple.assuming _ (triple_initializeLiveStreamingState
          hfault hh hrel)).conseq (fun _ h => h) (fun _ _ h => h) fun log hlog hC => ?_)
          fun initial => ?_
        · obtain ⟨hstreamed, m, hm, hfuel⟩ := hlog hC
          rw [List.mem_singleton] at hm
          exact ⟨hstreamed, m, hm ▸ hrest.subset List.mem_cons_self, hfuel⟩
        · rcases initial with ⟨_ | state, h'⟩
          · refine Proc.Triple.pure fun log hlog hC => ?_
            obtain ⟨hcut, e, hstreamed⟩ := hlog hC
            exact ⟨e, Or.inl hstreamed, Or.inr hcut⟩
          · refine Proc.Triple.of_assuming fun log hC hlog => ?_
            obtain ⟨hh', b, hstate, hb, hbehind⟩ := hlog
            refine (triple_streamBlocksContinuously _ _ fuel hfault hh' rest hstate).conseq
              (fun _ h => h) (fun _ log hlog hC => ?_) (fun log hlog hC => ?_) log fun _ => hbehind
            · obtain ⟨e, hstreamed, he⟩ := hlog hC
              rw [hb, hcovered] at he
              exact ⟨e, Or.inl hstreamed, he⟩
            · obtain ⟨hstreamed, m, hm, hfuel⟩ := hlog hC
              exact ⟨hstreamed, m, hrest.subset (List.mem_cons_of_mem _ hm), hfuel⟩

end LiveConfig

end EventScanner
