import EventScanner.HistoricalStream.Shape
import EventScanner.Modes.Listeners

set_option relaxedAutoImplicit false
set_option autoImplicit false

/-!
# The historic mode as a whole

From the builder to what a subscriber receives: when the range lies on the chain and is not replaced
any more, `connect` accepts it, `start` finds both ends, and every subscriber receives the logs of
the range that its filter asks for, each once and in order, whatever happens above the range.

## Main definitions

* `EventScanner.HistoricalRangeHandler.Unfailing` — no error has been sent, and none will be.

## Main results

* `EventScanner.HistoricalRangeHandler.triple_unfailing` — a pass over a range that stays.
* `EventScanner.BlockRangeScanner.streamHistorical_settled` — the stream over such a range.
* `EventScanner.Historic.subscribers_served` — the whole mode.
-/

namespace EventScanner

open HashChain

variable {Hash D : Type}

/-! ### A pass without errors -/

namespace HistoricalRangeHandler

/-- No error has been sent, and the end block stays on the chain. -/
structure Unfailing (provider : RobustProvider Hash) (endBlock : Block Hash) (log : Log Hash) :
    Prop where
  /-- No error has been sent. -/
  sends : ∀ e, .sent (.error e) ∉ log
  /-- The end block stays on the chain. -/
  stays : provider.StaysCanonical endBlock log

variable {self : HistoricalRangeHandler Hash} {endBlock : Block Hash} {log : Log Hash}
  {E : Log Hash → Prop}

/-- A provider call is no error. -/
lemma Unfailing.request (h : Unfailing self.provider endBlock log) (r : Request Hash) :
    Unfailing self.provider endBlock (.request r :: log) where
  sends e he := h.sends e (by simpa using he)
  stays := h.stays.of_suffix (List.suffix_cons _ _)

/-- Neither is a message. -/
lemma Unfailing.sent (h : Unfailing self.provider endBlock log)
    (message : ScannerMessage RangeInclusive) :
    Unfailing self.provider endBlock (.sent (.ok message) :: log) where
  sends e he := h.sends e (by simpa using he)
  stays := h.stays.of_suffix (List.suffix_cons _ _)

/-- Sending ranges. -/
lemma triple_streamRanges_unfailing (ranges : List RangeInclusive) :
    Proc.Triple (Unfailing self.provider endBlock) (streamRanges self.sender ranges)
      (fun _ => Unfailing self.provider endBlock) (Unfailing self.provider endBlock) :=
  triple_streamRanges_of_sent fun _ _ _ h => h.sent _

/-- The end block is found whenever it is asked for. -/
lemma triple_readEnd (hfault : ∀ k, self.provider.fault k = none) :
    Proc.Triple (Unfailing self.provider endBlock)
      (getBlockByNumber self.provider (.number endBlock.number))
      (fun answer log => answer = .ok endBlock ∧ Unfailing self.provider endBlock log) E := by
  intro log h
  exact ⟨h.stays.answer hfault le_rfl, h.request _⟩

variable [DecidableEq Hash]

variable (self) in
/-- **A pass over a range that stays** sends no error. -/
theorem triple_unfailing (hfault : ∀ k, self.provider.fault k = none)
    (hend : endBlock.number = self.stop) (fuel : ℕ) :
    Proc.Triple (Unfailing self.provider endBlock) (self.handleStreamHistoricalRange fuel)
      (fun _ => Unfailing self.provider endBlock) (Unfailing self.provider endBlock) := by
  have hfinalized : Proc.Triple (Unfailing self.provider endBlock) self.streamFinalizedBlocks
      (fun _ => Unfailing self.provider endBlock) (Unfailing self.provider endBlock) := by
    refine Proc.Triple.bind (Q := fun _ => Unfailing self.provider endBlock)
      (triple_call fun _ _ h => h.request _) fun finalized => ?_
    refine Proc.Triple.bind (triple_streamRanges_unfailing _) fun channel => ?_
    cases channel <;> exact Proc.Triple.pure fun _ h => h
  refine Proc.Triple.bind hfinalized fun result => ?_
  rcases result with _ | ⟨nonFinalizedStart, finalizedBlockNum⟩
  · exact Proc.Triple.pure fun _ h => h
  dsimp only
  split_ifs with hdone
  · exact Proc.Triple.pure fun _ h => h
  refine Proc.Triple.bind (Q := fun answer log => answer = .ok endBlock ∧
    Unfailing self.provider endBlock log) (hend ▸ triple_readEnd hfault) fun answer => ?_
  rintro log ⟨rfl, h⟩
  refine (?_ : Proc.Triple (Unfailing self.provider endBlock) _ _ _) log h
  -- the end block is found again behind the ranges, so there is one round
  cases fuel with
  | zero => exact Proc.Triple.halt fun _ h => h
  | succ fuel =>
    refine Proc.Triple.bind (triple_streamRanges_unfailing _) fun channel => ?_
    cases channel with
    | closed => exact Proc.Triple.pure fun _ h => h
    | opened =>
      refine Proc.Triple.bind (Q := fun reorged log => reorged = none ∧
        Unfailing self.provider endBlock log)
        (Proc.Triple.bind (triple_readEnd hfault) fun answer => ?_) fun reorged => ?_
      · rintro log ⟨rfl, h⟩
        dsimp only
        rw [if_pos rfl]
        exact ⟨rfl, h⟩
      · rintro log ⟨rfl, h⟩
        exact h

end HistoricalRangeHandler

/-! ### The stream -/

namespace BlockRangeScanner

variable [DecidableEq Hash] (self : BlockRangeScanner Hash)

/-- **The historical stream over a range that stays** returns without an error, and covers the range
exactly as long as the receiver stays. -/
theorem streamHistorical_settled (hfault : ∀ k, self.provider.fault k = none) (sender : Sender)
    (fuel : ℕ) {a b : Block Hash} (log : Log Hash) (hlog : messages log = [])
    (ha : self.provider.StaysCanonical a log) (hb : self.provider.StaysCanonical b log)
    (hsettled : self.provider.SettledUpTo (clock log) (max a.number b.number)) :
    ∃ log', (self.streamHistorical sender (fuel + 1) (.number (.number a.number))
        (.number (.number b.number))).run log = (some (.ok ()), log') ∧
      ErrorFree (some (.ok ())) log' ∧
      (sender.isOpen log' = true → CoversExactly self.maxBlockRange (min a.number b.number)
        (max a.number b.number + 1) (messages log')) := by
  obtain ⟨top, htop, hstays⟩ : ∃ top : Block Hash, top.number = max a.number b.number ∧
      self.provider.StaysCanonical top log := by
    rcases le_total a.number b.number with hle | hle
    · exact ⟨b, (Nat.max_eq_right hle).symm, hb⟩
    · exact ⟨a, (Nat.max_eq_left hle).symm, ha⟩
  rw [self.run_streamHistorical sender (fuel + 1) log (ha.answer hfault le_rfl)
    (hb.answer hfault (Nat.le_succ _))]
  obtain ⟨log₁, hlog₁⟩ : ∃ log₁, resolved (.number (.number a.number))
    (.number (.number b.number)) ++ log = log₁ := ⟨_, rfl⟩
  have hgrows : log <:+ log₁ := hlog₁ ▸ List.suffix_append _ _
  have hnone : messages log₁ = [] := hlog₁ ▸ hlog
  rw [hlog₁]
  have hcovers := (triple_runSync_settled (self.historicalHandler sender a b)
    (min a.number b.number) [] min_le_max : Proc.Triple _
      ((self.historicalHandler sender a b).runSync (fuel + 1)) _ _) log₁
    ⟨streamed_start hnone, hsettled.mono (clock_le_of_suffix hgrows) le_rfl, by simp⟩
  have hunfailing := (self.historicalHandler sender a b).triple_unfailing hfault htop (fuel + 1)
    log₁ ⟨fun e he => by simpa [hnone] using mem_messages.mpr he, hstays.of_suffix hgrows⟩
  unfold HistoricalRangeHandler.runSync at hcovers
  rcases hrun : ((self.historicalHandler sender a b).handleStreamHistoricalRange (fuel + 1)).run
    log₁ with ⟨_ | channel, log'⟩
  all_goals rw [hrun] at hcovers hunfailing
  · exact absurd hcovers.2 (Nat.succ_ne_zero fuel)
  · have hok : ErrorFree (some (.ok ())) log' := ⟨by simp, hunfailing.sends⟩
    refine ⟨log', by rw [Proc.run_bind_some hrun]; rfl, hok, fun hopen => ?_⟩
    cases channel with
    | opened => exact Streamed.coversExactly_messages hcovers hok
    | closed => exact absurd hcovers.1 (hok.not_cutShort hopen)

end BlockRangeScanner

/-! ### The whole mode -/

namespace Historic

/-- **The historic mode as a whole**, on a range that is given by numbers. Let no call to the node
fail, and let the blocks of the range not be replaced any more. Then `connect` accepts settings
without a zero, with ends that are not above the latest block, and no others. What it accepts is
streamed without an error, if what its settings ask for can be allocated; and every subscriber is
served exactly the logs of the range that the builder calls of its filter ask for. -/
theorem subscribers_served [DecidableEq Hash] {provider : RobustProvider Hash}
    (hfault : ∀ k, provider.fault k = none) {builder : EventScannerBuilder (Historic Hash)}
    {a b : ℕ} (hfrom : builder.config.fromBlock = .number (.number a))
    (hto : builder.config.toBlock = .number (.number b))
    (hsettled : provider.SettledUpTo 0 (max a b)) :
    ((∃ scanner log, (connect builder provider).run [] = (some (.ok scanner), log)) ↔
      0 < builder.config.maxConcurrentFetches ∧ 0 < builder.blockRangeScanner.maxBlockRange ∧
        0 < builder.blockRangeScanner.bufferCapacity ∧ max a b ≤ (provider.view 0).height) ∧
    ∀ scanner log, (connect builder provider).run [] = (some (.ok scanner), log) →
      builder.blockRangeScanner.Allocates builder.config.maxConcurrentFetches →
      ∀ (filters : List EventFilter) (sender : Sender) (fuel : ℕ), ∃ log',
        (start (scanner.subscribeAll filters) sender (fuel + 1)).run log =
            (some (.ok ()), log') ∧
          (scanner.subscribeAll filters).listeners = filters ∧
          (sender.isOpen log' = true →
            (scanner.subscribeAll filters).Serves (messages log') (max a b + 1)
              fun matching => DeliversExactly matching (min a b) (max a b + 1)) := by
  refine ⟨connect_ok_iff (hfault 0) hfrom hto, fun scanner log hconnect _ filters sender fuel => ?_⟩
  obtain ⟨hbuilt, rfl, hheight⟩ := of_connect (hfault 0) hfrom hto hconnect
  obtain ⟨blockA, rfl, hblockA⟩ := hsettled.exists_stays (Nat.le_max_left a b) (by omega)
    [.request .blockNumber]
  obtain ⟨blockB, rfl, hblockB⟩ := hsettled.exists_stays (Nat.le_max_right _ b) (by omega)
    [.request .blockNumber]
  have hprovider := hbuilt.provider
  obtain ⟨log', hrun, -, hcovers⟩ := scanner.blockRangeScanner.streamHistorical_settled
    (by rwa [hprovider]) sender fuel [.request .blockNumber] rfl (by rwa [hprovider])
    (by rwa [hprovider]) (hprovider ▸ hsettled.mono (Nat.zero_le _) le_rfl)
  refine ⟨log', ?_, hbuilt.listeners_subscribeAll filters, fun hopen =>
    Scanner.serves_of_coversExactly _ (hcovers hopen)⟩
  rw [start_subscribeAll]
  unfold start
  rw [hbuilt.config, hfrom, hto]
  exact hrun

/-! ### A reorg above the range -/

/-- Block `4` is replaced before the fourth provider call. -/
def replacedAbove : RobustProvider ℕ :=
  .healthy (switchAt 3 (.ofHashes 0 [1, 2, 3, 4] 1) (.ofHashes 0 [1, 2, 3, 14, 15] 1))

/-- A scan of the blocks `1` to `3`. -/
def upToThree : EventScannerBuilder (Historic ℕ) :=
  ⟨⟨.number (.number 3), .number (.number 1), 24⟩, .new⟩

/-- The logs of two contracts. -/
def twoContracts : MatchingLogs PrimitiveLog where
  logs := [⟨some 1, some 0, ⟨7, []⟩⟩, ⟨some 2, some 0, ⟨8, []⟩⟩, ⟨some 3, some 0, ⟨7, []⟩⟩]
  mined := by decide
  ascending := by decide

/-- The blocks that `upToThree` asks for are not replaced. -/
lemma replacedAbove_settled : replacedAbove.SettledUpTo 0 (max 3 1) := by
  have hshallow : ShallowReorgs 1 replacedAbove.view := shallowReorgs_switchAt (by decide)
  intro i _ block hnumber hblock j hij
  have hpeak : 4 ≤ peak replacedAbove.view i := peak_mono replacedAbove.view (Nat.zero_le i)
  refine hshallow.canonical hij ?_ hblock
  omega

/-- A subscriber that asks for the logs of one contract receives those of the blocks `1` and `3`. -/
theorem subscribers_served_replacedAbove :
    ∃ scanner log log', (connect upToThree replacedAbove).run [] = (some (.ok scanner), log) ∧
      (start (scanner.subscribeAll [.build [.contractAddress 7]]) ⟨none⟩ 1).run log =
        (some (.ok ()), log') ∧
      let setup := (scanner.subscribeAll [.build [.contractAddress 7]]).streamHandler
        (getLogs (fun _ => keccakOfEmpty) fun _ query => .ok (twoContracts.answer query))
        (messages log') fun _ => false
      (∀ i, setup.expected i =
        [.ok (.data [⟨some 1, some 0, ⟨7, []⟩⟩]), .ok (.data [⟨some 3, some 0, ⟨7, []⟩⟩])]) ∧
      setup.Isolates ∧ ∀ i, DeliversExactly (twoContracts.asked (fun _ => keccakOfEmpty)
        [.contractAddress 7]) 1 4 (setup.expected i) := by
  obtain ⟨-, hserved⟩ := subscribers_served (fun _ => rfl)
    (show upToThree.config.fromBlock = .number (.number 3) from rfl) rfl replacedAbove_settled
  have honly (i : Fin 1) : i = ⟨0, Nat.one_pos⟩ := Fin.ext (Nat.lt_one_iff.mp i.isLt)
  refine ⟨_, _, _, rfl, rfl, fun i => ?_, ?_⟩
  · obtain rfl := honly i
    rfl
  · obtain ⟨log', hrun, -, hserves⟩ :=
      hserved _ _ rfl (by decide) [.build [.contractAddress 7]] ⟨none⟩ 0
    obtain ⟨-, rfl⟩ := Prod.mk.inj hrun
    obtain ⟨hisolates, hdelivers⟩ := hserves rfl _ _ twoContracts _ (fun _ _ _ => rfl)
      (Or.inl fun _ => rfl)
    refine ⟨hisolates, fun i => hdelivers i _ ?_ fun hname =>
      absurd hname (not_keepsEmptyName_contractAddress 7)⟩
    obtain rfl := honly i
    rfl

end Historic

end EventScanner
