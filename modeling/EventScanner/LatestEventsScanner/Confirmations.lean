import EventScanner.BlockRangeHandler.CaughtUp
import EventScanner.LatestEventsHandler.MatchingLogs
import EventScanner.LatestEventsHandler.Protocol
import EventScanner.LatestEventsScanner.Builder
import EventScanner.RewindStream.Bounds
import EventScanner.RewindStream.NoReorg

set_option relaxedAutoImplicit false
set_option autoImplicit false

/-!
# Confirmations in the latest-events mode

The builder of the latest-events mode stores how many confirmations a block needs, but neither
`connect` nor `start` nor the rewind reads it. What is delivered is bounded by the higher end of the
range, and by nothing else.

## Main definitions

* `EventScanner.LatestEventsScanner.DeliversUpTo` — no log above a height is delivered.
* `EventScanner.CollectingTask.AllBelow` — the logs a collecting task has seen.

## Main results

* `EventScanner.LatestEventsScanner.deliversUpTo_iff` — what is delivered is bounded by a height if
  and only if the range is.
* `EventScanner.LatestEventsScanner.confirmations_iff` — the setting is respected if and only if the
  range has enough confirmations by itself.
* `EventScanner.LatestEventsScanner.not_confirmations_default` — a log of the latest block, though
  blocks need two confirmations.
-/

namespace EventScanner

open HashChain EventLog

variable {n : ℕ} {τ Hash D : Type}

/-! ### The logs a collecting task has seen -/

namespace CollectingTask

/-- The logs in the buffer. -/
def collected (t : CollectingTask D) : List (RpcLog D) :=
  match t.phase with
  | .collecting collected _ | .complete collected => collected
  | .overflowing | .returned | .panicked => []

/-- No log of the buffer or of what has been sent lies above a height. -/
structure AllBelow (high : ℕ) (t : CollectingTask D) : Prop where
  /-- The buffer. -/
  collected : ∀ l ∈ t.collected, l.number ≤ high
  /-- What has been sent. -/
  sent : ∀ logs, .ok (.data logs) ∈ t.sent → ∀ l ∈ logs, l.number ≤ high

variable {count high : ℕ} {listening : List (EventScannerResult D) → Bool} {t : CollectingTask D}

/-- Before the first result. -/
lemma allBelow_new (count high : ℕ) : (new count : CollectingTask D).AllBelow high := by
  by_cases hfits : AllocatesLogs count
  · rw [new_of_allocatesLogs hfits]
    exact ⟨nofun, nofun⟩
  · rw [new_of_not_allocatesLogs hfits]
    exact ⟨nofun, nofun⟩

/-- Sending something else than logs from above the height. -/
lemma AllBelow.trySend {item : EventScannerResult D} (h : t.AllBelow high)
    (hitem : ∀ logs, item = .ok (.data logs) → ∀ l ∈ logs, l.number ≤ high) :
    (t.trySend listening item).AllBelow high := by
  unfold CollectingTask.trySend
  split_ifs
  · refine ⟨h.collected, fun logs hlogs => ?_⟩
    rcases List.mem_cons.mp hlogs with heq | hlogs
    · exact hitem logs heq.symm
    · exact h.sent logs hlogs
  · exact ⟨nofun, h.sent⟩

/-- One more result. -/
lemma AllBelow.process {result : EventScannerResult D} (h : t.AllBelow high)
    (hresult : ∀ l ∈ gathered result, l.number ≤ high) :
    (t.process count listening result).AllBelow high := by
  unfold CollectingTask.process
  split
  · next collected reorgAncestor hphase =>
    have hcollected : ∀ l ∈ collected, l.number ≤ high := by
      have := h.collected
      rwa [CollectingTask.collected, hphase] at this
    split
    · next logs =>
      split
      · exact h
      · split
        · exact ⟨nofun, h.sent⟩
        · have hall (prepend : Bool) :
              ∀ l ∈ (collectLogs collected logs count prepend).1, l.number ≤ high := by
            intro l hl
            rcases mem_collectLogs hl with hl | hl
            · exact hcollected l hl
            · exact hresult l (List.mem_reverse.mpr hl)
          dsimp only
          split_ifs
          · exact ⟨hall _, h.sent⟩
          · exact ⟨hall _, h.sent⟩
    · exact ⟨fun l hl => hcollected l ((List.dropWhile_suffix _).subset hl), h.sent⟩
    · exact h.trySend nofun
    · exact h.trySend nofun
  all_goals exact h

/-- The end of the task. -/
lemma AllBelow.finish (h : t.AllBelow high) : (t.finish listening).AllBelow high := by
  have hdeliver (collected : List (RpcLog D)) (hcollected : ∀ l ∈ collected, l.number ≤ high) :
      (t.deliver listening collected).AllBelow high := by
    unfold deliver
    split_ifs
    · exact h.trySend nofun
    · refine h.trySend fun logs heq l hl => hcollected l ?_
      simp only [Except.ok.injEq, ScannerMessage.data.injEq] at heq
      exact List.mem_reverse.mp (heq ▸ hl)
  have hcollected := h.collected
  unfold CollectingTask.collected at hcollected
  unfold CollectingTask.finish
  split
  · next hphase =>
    rw [hphase] at hcollected
    exact hdeliver _ hcollected
  · next hphase =>
    rw [hphase] at hcollected
    exact hdeliver _ hcollected
  · exact ⟨nofun, h.sent⟩
  all_goals exact h

end CollectingTask

/-! ### What a handler delivers -/

/-- The log queries answer with logs of the range asked for. -/
def AnswersInRange (getLogs : Fin n → GetLogs D) : Prop :=
  ∀ i k range logs, getLogs i k range = .ok logs → FetchedFrom range logs

section Delivered

variable {config : HandlerConfig} {count high : ℕ} {getLogs : Fin n → GetLogs D}
  {messages : List BlockScannerResult} {i : Fin n}

/-- A result that has been handled is the outcome of a message taken. -/
lemma exists_of_mem_handled {handler : BlockRangeHandler n τ D} {s : ServiceState n τ D}
    {result : EventScannerResult D} (h : result ∈ handler.handled s i) :
    ∃ k, ∃ message ∈ s.taken i, result = fetchResult (handler.getLogs i k) message := by
  have hmem := List.mem_of_mem_take h
  unfold outcomesOf at hmem
  obtain ⟨k, hk, rfl⟩ := List.mem_iff_getElem.mp hmem
  exact ⟨k, _, List.getElem_mem _, List.getElem_mapIdx ..⟩

/-- What comes through to a processing task is a message of the stream, or the news that its
forwarding task has lagged. -/
lemma mem_relayed {handler : BlockRangeHandler n τ D} {s : ServiceState n τ D}
    (hs : handler.service.Reach (handler.serviceStart messages) s) (i : Fin n) :
    ∀ message ∈ (s.network.consumers i).relayed (s.taken i),
      message ∈ messages ∨ ∃ skipped, message = .error (.lagged skipped) := by
  refine BlockRangeHandler.relayed_invariant
    (I := fun relayed _ => ∀ message ∈ relayed,
      message ∈ messages ∨ ∃ skipped, message = .error (.lagged skipped))
    nofun (fun sent relayed relayed' next next' hsent hrelays hI => ?_) hs i
  intro message hmessage
  cases hrelays with
  | keep hkept => exact hI message (hkept.subset hmessage)
  | receive hlt hreceived =>
    rw [hreceived] at hmessage
    rcases List.mem_append.mp hmessage with hmessage | hmessage
    · exact hI message hmessage
    · rw [List.mem_singleton.mp hmessage]
      exact Or.inl (hsent.subset (List.getElem_mem hlt))
  | lag skipped _ hlagged =>
    rw [hlagged] at hmessage
    rcases List.mem_append.mp hmessage with hmessage | hmessage
    · exact hI message hmessage
    · exact Or.inr ⟨skipped, List.mem_singleton.mp hmessage⟩

/-- The logs of an outcome lie in the range they were fetched for. -/
lemma number_le_of_fetchResult
    {fetch : RangeInclusive → Except RobustProviderError (List (RpcLog D))}
    (hanswers : ∀ range logs, fetch range = .ok logs → FetchedFrom range logs)
    {message : BlockScannerResult}
    (hmessage : ∀ range, message = dataItem range → range.stop ≤ high)
    {l : RpcLog D} (hl : l ∈ gathered (fetchResult fetch message)) : l.number ≤ high := by
  match message with
  | .ok (.data range) =>
    cases hfetch : fetch range with
    | ok logs =>
      rw [fetchResult_of_ok hfetch] at hl
      have hin := ((hanswers range logs hfetch).mined l (List.mem_reverse.mp hl)).2
      exact hin.2.trans (hmessage range rfl)
    | error e =>
      rw [fetchResult_of_error hfetch] at hl
      cases hl
  | .ok (.notification _) | .error _ => cases hl

/-- The logs that are delivered are not above the ranges of the stream. -/
lemma number_le_of_delivered (hanswers : AnswersInRange getLogs)
    (hmessages : ∀ range, dataItem range ∈ messages → range.stop ≤ high)
    {s : ServiceState n (CollectingTask D) D}
    (hs : (BlockRangeHandler.latestEventsHandler config count getLogs).service.Reach
      (BlockRangeHandler.serviceStart (.latestEventsHandler config count getLogs) messages) s)
    {logs : List (RpcLog D)}
    (hlogs : .ok (.data logs) ∈
      (BlockRangeHandler.latestEventsHandler config count getLogs).received s i) :
    ∀ l ∈ logs, l.number ≤ high := by
  have hhandled :
      ∀ result ∈ BlockRangeHandler.handled (.latestEventsHandler config count getLogs) s i,
      ∀ l ∈ gathered result, l.number ≤ high := by
    intro result hresult l hl
    obtain ⟨k, message, hmessage, rfl⟩ := exists_of_mem_handled hresult
    refine number_le_of_fetchResult (hanswers i k) (fun range hrange => ?_) hl
    rcases mem_relayed hs i message
      (List.mem_append_left _ (List.mem_append_left _ hmessage)) with hmem | ⟨skipped, hlagged⟩
    · exact hmessages range (hrange ▸ hmem)
    · cases hlagged.symm.trans hrange
  have hbelow := (BlockRangeHandler.service_invariant
    (I := fun handled task => (∀ result ∈ handled, ∀ l ∈ gathered result, l.number ≤ high) →
      task.AllBelow high)
    (fun _ => CollectingTask.allBelow_new count high)
    (fun handled task listening result _ hI hall =>
      (hI fun result hresult => hall result (List.mem_append_left _ hresult)).process
        (hall result (List.mem_append_right _ List.mem_cons_self)))
    (fun handled task listening hI hall => (hI hall).finish) hs i).task hhandled
  exact hbelow.sent logs (List.mem_reverse.mp hlogs)

end Delivered

/-! ### A log at the upper end of the first range -/

section Topmost

variable [Inhabited D] {config : HandlerConfig} {count high : ℕ}
  {messages rest : List BlockScannerResult}

/-- `count` logs in one block. -/
def MatchingLogs.atBlock (D : Type) [Inhabited D] (count high : ℕ) : MatchingLogs D where
  logs := (List.range count).map fun k => ⟨some high, some k, default⟩
  mined := by simp [RpcLog.number]
  ascending := by
    rw [List.pairwise_map]
    exact List.pairwise_lt_range.imp fun hlt => Or.inr ⟨rfl, hlt⟩

/-- The logs of a range that contains the block. -/
lemma MatchingLogs.within_atBlock {low high' : ℕ} (hlow : low ≤ high) (hhigh : high ≤ high') :
    (MatchingLogs.atBlock D count high).within low high' =
      (MatchingLogs.atBlock D count high).logs := by
  refine List.filter_eq_self.mpr fun l hl => ?_
  obtain ⟨k, -, rfl⟩ := List.mem_map.mp hl
  exact decide_eq_true ⟨hlow, hhigh⟩

/-- The handler for one listener whose logs are all in one block. -/
def topmostHandler (D : Type) [Inhabited D] (config : HandlerConfig) (count high : ℕ) :
    BlockRangeHandler 1 (CollectingTask D) D :=
  .latestEventsHandler config count fun _ => (MatchingLogs.atBlock D count high).getLogs

variable (D config rest) in
/-- **The collecting task ends with the first range**, when the upper end of that range has enough
logs. -/
lemma exists_delivered {range : RangeInclusive} (hrange : range.start ≤ range.stop)
    (hcount : 0 < count) (hfits : AllocatesLogs count) :
    ∃ s, (topmostHandler D config count range.stop).service.Reach
        ((topmostHandler D config count range.stop).serviceStart (dataItem range :: rest)) s ∧
      (topmostHandler D config count range.stop).received s 0 =
        [.ok (.data (MatchingLogs.atBlock D count range.stop).logs)] := by
  set logs := (MatchingLogs.atBlock D count range.stop).logs with hlogs
  have hwithin : (MatchingLogs.atBlock D count range.stop).within range.start range.stop = logs :=
    MatchingLogs.within_atBlock hrange le_rfl
  have hlength : logs.length = count := by
    rw [hlogs]
    exact (List.length_map _).trans List.length_range
  let task := (CollectingTask.new count).process count (fun _ => true) (.ok (.data logs))
  have hgather : gather [.ok (.data logs)] = logs.reverse := List.append_nil _
  have hlooping := CollectingTask.status_new (D := D) hfits
  have hgathers : task.Gathers count [.ok (.data logs)] :=
    (CollectingTask.gathers_new hcount hfits).process (fun _ => true) hlooping
      (hwithin ▸ MatchingLogs.fetchedFrom range)
  have hbehind := hgathers.behindLoop (by rw [hgather, List.length_reverse, hlength])
  have hsent : (task.finish fun _ => true).sent = [.ok (.data logs)] := by
    have hfirst : gather [.ok (.data logs)] <+:
        ((MatchingLogs.atBlock D count range.stop).within range.start range.stop).reverse := by
      rw [hgather, hwithin]
    rw [hgathers.sent_finish hcount hfirst (Or.inl hbehind)]
    unfold MatchingLogs.latest
    rw [hwithin, if_neg (List.ne_nil_of_length_pos (hlength ▸ hcount)),
      List.rtake_eq_reverse_take_reverse, List.take_of_length_le (by simp [hlength]),
      List.reverse_reverse]
  have hfetch : fetchResult ((topmostHandler D config count range.stop).getLogs 0 0)
      (dataItem range) = .ok (.data logs) := fetchResult_of_ok (congrArg Except.ok hwithin)
  have hreceived : CanStand (topmostHandler D config count range.stop) (dataItem range :: rest) 0
      false rest [dataItem range]
      ⟨1, false, .sending (dataItem range) false, [], 0, [], CollectingTask.new count, false⟩ := by
    have hsent := (canStand_start (topmostHandler D config count range.stop)
      (dataItem range :: rest) 0).next rfl
    exact hsent.recv rfl (Nat.sub_eq_zero_of_le config.capacity_pos).le Nat.zero_lt_one
  have hcarried : CanStand (topmostHandler D config count range.stop) (dataItem range :: rest) 0
      false rest [dataItem range] ⟨1, false, .receiving, [], 1, [], task, false⟩ := by
    have hcarried := hreceived.carry hlooping
    rw [hfetch] at hcarried
    have hended : decide ((latestTask count).status task = .over) = false := by
      rw [hbehind]
      rfl
    exact hended ▸ hcarried
  obtain ⟨s, hs, -, -, hc, -⟩ := hcarried.task (a := .finish)
    (if_pos ⟨rfl, Or.inl hbehind⟩)
  refine ⟨s, hs, ?_⟩
  unfold BlockRangeHandler.received
  rw [hc]
  exact congrArg List.reverse hsent

end Topmost

/-! ### The stream of a scan -/

section Start

/-- The first range of a rewind is sent. -/
lemma suffix_rewindRanges {R : Type} [ReorgHandler Hash R] (maxBlockRange : MaxBlockRange)
    (provider : RobustProvider Hash) (checkReorg : Bool) (range : RangeInclusive)
    (ranges : List RangeInclusive) (tip : Block Hash) (reorgHandler : R) (log : Log Hash) :
    .sent (dataItem range) :: log <:+ ((rewindRanges maxBlockRange ⟨none⟩ provider checkReorg
      (range :: ranges) tip reorgHandler).run log).2 := by
  unfold rewindRanges
  exact Proc.suffix_run_bind (tryStream ⟨none⟩ (dataItem range)) _

/-- **The first message of a rewind** is the upper end of its range. -/
lemma exists_messages_handleStreamRewind {R : Type} [ReorgHandler Hash R] {tip toBlock : Block Hash}
    (hle : toBlock.number ≤ tip.number) (maxBlockRange : MaxBlockRange)
    (provider : RobustProvider Hash) (reorgHandler : R) {log : Log Hash}
    (hlog : messages log = []) :
    ∃ (range : RangeInclusive) (rest : List BlockScannerResult),
      range.start ≤ range.stop ∧ range.stop = tip.number ∧
      messages ((handleStreamRewind tip toBlock maxBlockRange ⟨none⟩ provider reorgHandler).run
        log).2 = dataItem range :: rest := by
  have hranges := RangeIterator.ranges_reverse tip.number toBlock.number maxBlockRange
  unfold handleStreamRewind getBlockNumberById
  rw [Proc.run_bind_some (run_call ..)]
  match hcut : (RangeIterator.reverse tip.number toBlock.number maxBlockRange).ranges with
  | [] =>
    rw [hcut] at hranges
    exact absurd hle (Nat.not_le.mpr hranges)
  | range :: ranges =>
    rw [hcut] at hranges
    have hstop : range.stop = tip.number := by rw [hranges.2.1]
    dsimp only
    rw [hcut]
    set before := Event.request (.blockNumberById (.number .finalized)) :: log with hbefore
    obtain ⟨new, hnew⟩ :=
      suffix_rewindRanges maxBlockRange provider _ range ranges tip reorgHandler before
    refine ⟨range, messages new, (hranges.bounds List.mem_cons_self).2.1, hstop, ?_⟩
    rw [← hnew, messages_append, messages_sent, hbefore, messages_request, hlog]
    rfl

/-- What sends nothing leaves no range. -/
lemma always_withinRange_of_messages (low high : ℕ) {log : Log Hash} (hlog : messages log = []) :
    Always (WithinRange low high) log := by
  refine always_iff.mpr fun e past he => ?_
  match e with
  | .sent (.ok (.data range)) =>
    have hmem := mem_messages.mpr (he.subset List.mem_cons_self)
    rw [hlog] at hmem
    cases hmem
  | .sent (.ok (.notification _)) | .sent (.error _) | .request _ | .received _
  | .checked _ _ => trivial

/-- No block lies below the block zero. -/
lemma always_fallbackReachesRange_zero (provider : RobustProvider Hash) (log : Log Hash) :
    Always (FallbackReachesRange provider 0) log := by
  refine always_iff.mpr fun e past _ => ?_
  match e with
  | .checked _ (some _) => exact fun _ => Nat.zero_le _
  | .checked _ none | .sent _ | .request _ | .received _ => trivial

variable [DecidableEq Hash]

/-- A rewind whose ends are not found sends nothing. -/
lemma RewindHandler.messages_run_of_error (handler : RewindHandler Hash) {log : Log Hash}
    (herror : ¬∃ a b,
      handler.provider.answer (clock log) (handler.provider.findId (clock log) handler.startId) =
        .ok a ∧
      handler.provider.answer (clock log + 1)
        (handler.provider.findId (clock log + 1) handler.endId) = .ok b) :
    messages (handler.run.run log).2 = messages log := by
  unfold RewindHandler.run getBlock
  rw [Proc.run_bind_some (run_call ..), Proc.run_bind_some (run_call ..), clock_request]
  cases ha : handler.provider.answer (clock log)
      (handler.provider.findId (clock log) handler.startId) with
  | error e => rfl
  | ok a =>
    cases hb : handler.provider.answer (clock log + 1)
        (handler.provider.findId (clock log + 1) handler.endId) with
    | error e => rfl
    | ok b => exact absurd ⟨a, b, ha, hb⟩ herror

end Start

namespace LatestEventsScanner

variable [DecidableEq Hash]

/-- No log above the height `high` is delivered: whatever the listeners and the log queries are, in
every interleaving of the handler and its listeners behind the stream that `start` opens. -/
def DeliversUpTo (D : Type) (scanner : LatestEventsScanner Hash) (log : Log Hash) (high : ℕ) :
    Prop :=
  ∀ (n : ℕ) (getLogs : Fin n → GetLogs D), AnswersInRange getLogs →
    ∀ s, (scanner.handler getLogs).service.Reach
        ((scanner.handler getLogs).serviceStart (messages (scanner.start.run log).2)) s →
      ∀ i logs, .ok (.data logs) ∈ (scanner.handler getLogs).received s i →
        ∀ l ∈ logs, l.number ≤ high

variable (scanner : LatestEventsScanner Hash) {log : Log Hash} {a b : Block Hash}

/-- The blocks that a scan finds for the two ends of its range. -/
def Finds (log : Log Hash) (a b : Block Hash) : Prop :=
  scanner.blockRangeScanner.provider.answer (clock log)
      (scanner.blockRangeScanner.provider.findId (clock log) scanner.config.fromBlock) = .ok a ∧
    scanner.blockRangeScanner.provider.answer (clock log + 1)
      (scanner.blockRangeScanner.provider.findId (clock log + 1) scanner.config.toBlock) = .ok b

/-- The stream of a scan is a rewind between the two blocks. -/
lemma exists_start_eq (hlog : messages log = [])
    (hfinds : scanner.Finds log a b) :
    ∃ tip toBlock before, tip.number = max a.number b.number ∧ toBlock.number ≤ tip.number ∧
      messages before = [] ∧
      (scanner.start.run log).2 = ((handleStreamRewind tip toBlock
        scanner.blockRangeScanner.maxBlockRange ⟨none⟩ scanner.blockRangeScanner.provider
        (DefaultReorgHandler.new scanner.blockRangeScanner.provider
          scanner.blockRangeScanner.pastBlocksStorageCapacity)).run before).2 := by
  obtain ⟨tip, toBlock, htip, hto, hrun⟩ := RewindHandler.exists_run_eq
    (RewindHandler.new scanner.blockRangeScanner.provider scanner.blockRangeScanner.maxBlockRange
      scanner.config.fromBlock scanner.config.toBlock
      scanner.blockRangeScanner.pastBlocksStorageCapacity ⟨none⟩) log hfinds.1 hfinds.2
  refine ⟨tip, toBlock, .request (.block scanner.config.toBlock) ::
    .request (.block scanner.config.fromBlock) :: log, htip, by omega, ?_, ?_⟩
  · exact hlog
  · unfold start BlockRangeScanner.streamRewind
    rw [hrun, Proc.snd_run_bind_pure]
    rfl

/-- The stream of a scan has no range above the range asked for. -/
lemma stop_le_of_start (hlog : messages log = [])
    (hfinds : scanner.Finds log a b) :
    ∀ range, dataItem range ∈ messages (scanner.start.run log).2 →
      range.stop ≤ max a.number b.number := by
  obtain ⟨tip, toBlock, before, htip, hle, hbefore, heq⟩ := scanner.exists_start_eq hlog hfinds
  rw [heq, ← htip]
  intro range hrange
  have hwithin := handleStreamRewind_withinRange hle (Nat.zero_le _)
    scanner.blockRangeScanner.maxBlockRange scanner.blockRangeScanner.pastBlocksStorageCapacity
    ⟨none⟩ scanner.blockRangeScanner.provider
    (always_withinRange_of_messages 0 tip.number hbefore) (always_fallbackReachesRange_zero _ _)
  obtain ⟨new, past, hsplit⟩ := List.append_of_mem (mem_messages.mp hrange)
  exact (always_iff.mp hwithin _ past ⟨new, hsplit.symm⟩).2.2

/-- **What is delivered is bounded by a height if and only if the range is**, or nothing is
delivered because the buffer cannot be allocated. -/
theorem deliversUpTo_iff [Inhabited D] (hlog : messages log = []) (high : ℕ) :
    scanner.DeliversUpTo D log high ↔ (AllocatesLogs scanner.config.count →
      ∀ a b, scanner.Finds log a b → max a.number b.number ≤ high) := by
  constructor
  · intro hbound hfits a b hfinds
    obtain ⟨tip, toBlock, before, htip, hle, hbefore, heq⟩ := scanner.exists_start_eq hlog hfinds
    obtain ⟨range, rest, hrange, hstop, hmessages⟩ := exists_messages_handleStreamRewind hle
      scanner.blockRangeScanner.maxBlockRange scanner.blockRangeScanner.provider
      (DefaultReorgHandler.new scanner.blockRangeScanner.provider
        scanner.blockRangeScanner.pastBlocksStorageCapacity) hbefore
    rw [← heq] at hmessages
    obtain ⟨s, hs, hreceived⟩ := exists_delivered D
      (.ofCapacity scanner.bufferCapacity scanner.fetches_pos) rest hrange scanner.count_pos hfits
    let getLogs : Fin 1 → GetLogs D :=
      fun _ => (MatchingLogs.atBlock D scanner.config.count range.stop).getLogs
    have hanswers : AnswersInRange getLogs := by
      intro i k range logs hlogs
      obtain rfl := Except.ok.inj hlogs
      exact MatchingLogs.fetchedFrom range
    have hnumber := hbound 1 getLogs hanswers s (by rw [hmessages]; exact hs) 0
      (MatchingLogs.atBlock D scanner.config.count range.stop).logs
      (hreceived ▸ List.mem_cons_self) ⟨some range.stop, some 0, default⟩
      (List.mem_map_of_mem (List.mem_range.mpr scanner.count_pos))
    calc max a.number b.number = range.stop := by rw [hstop, htip]
      _ ≤ high := hnumber
  · intro hrange n getLogs hanswers s hs i logs hlogs
    have hfits : AllocatesLogs scanner.config.count := by
      by_contra hoverflow
      have hnone := BlockRangeHandler.received_eq_nil hoverflow hs i
      exact absurd (hnone ▸ hlogs) List.not_mem_nil
    by_cases hfound : ∃ a b, scanner.Finds log a b
    · obtain ⟨a, b, hfinds⟩ := hfound
      exact number_le_of_delivered hanswers
        (fun range hmem =>
          (scanner.stop_le_of_start hlog hfinds range hmem).trans (hrange hfits a b hfinds))
        hs hlogs
    · have hnone : messages (scanner.start.run log).2 = [] :=
        (RewindHandler.messages_run_of_error _ hfound).trans hlog
      refine number_le_of_delivered hanswers (fun range hmem => ?_) hs hlogs
      rw [hnone] at hmem
      cases hmem

/-- **When the setting is respected**: if and only if the range asked for has the confirmations by
itself, or nothing is delivered because the buffer cannot be allocated. -/
theorem confirmations_iff [Inhabited D] (builder : EventScannerBuilder (LatestEvents Hash))
    (confirmations : ℕ) {provider : RobustProvider Hash} {scanner : LatestEventsScanner Hash}
    {log : Log Hash}
    (hconnect : ((builder.blockConfirmations confirmations).connect provider).run [] =
      (some (.ok scanner), log)) :
    scanner.DeliversUpTo D log ((provider.view (clock log)).height - confirmations) ↔
      (AllocatesLogs builder.config.count → ∀ a b,
        provider.answer (clock log) (provider.findId (clock log) builder.config.fromBlock) = .ok a →
        provider.answer (clock log + 1)
          (provider.findId (clock log + 1) builder.config.toBlock) = .ok b →
        max a.number b.number ≤ (provider.view (clock log)).height - confirmations) := by
  have hbuilt := (builder.blockConfirmations confirmations).triple_connect provider
    (E := fun _ => False) [] rfl
  rw [hconnect] at hbuilt
  obtain ⟨hlog, hscanner⟩ := hbuilt
  obtain ⟨hconfig, hprovider⟩ := hscanner scanner rfl
  rw [scanner.deliversUpTo_iff hlog]
  unfold Finds
  rw [hconfig, hprovider]
  simp only [and_imp]
  rfl

/-! ### A log of the latest block -/

/-- A chain of three blocks that does not change. -/
def threeBlocks : RobustProvider ℕ := .healthy fun _ => .ofHashes 0 [1, 2] 0

/-- A scanner for the latest event, with two confirmations, from some block down to the first
one. -/
def twoConfirmations (fromBlock : BlockId ℕ) : LatestEventsScanner ℕ where
  config := ⟨1, fromBlock, .number .earliest, 2, 24⟩
  blockRangeScanner := ⟨threeBlocks, defaultMaxBlockRange, .limited 10⟩
  bufferCapacity := 50000
  bufferCapacity_pos := by decide
  count_pos := Nat.one_pos
  fetches_pos := Nat.succ_pos 23

/-- The range that ends with the first block has the confirmations. -/
theorem confirmations_settledRange :
    (twoConfirmations (.number (.number 0))).DeliversUpTo Unit [.request .blockNumber] (2 - 2) := by
  have hconnect : ((((EventScannerBuilder.latest 1).fromBlock
      (.number (.number 0))).blockConfirmations 2).connect threeBlocks).run [] =
        (some (.ok (twoConfirmations (.number (.number 0)))), [.request .blockNumber]) := rfl
  refine (confirmations_iff _ 2 hconnect).mpr fun _ a b ha hb => ?_
  obtain rfl := Except.ok.inj ha
  obtain rfl := Except.ok.inj hb
  decide

/-- The default range has not: a log of the latest block is delivered, though only the first block
has two confirmations. -/
theorem not_confirmations_default :
    (((EventScannerBuilder.latest 1).blockConfirmations 2).connect threeBlocks).run [] =
        (some (.ok (twoConfirmations (.number .latest))), [.request .blockNumber]) ∧
      ¬(twoConfirmations (.number .latest)).DeliversUpTo Unit [.request .blockNumber] (2 - 2) := by
  refine ⟨rfl, fun hbound => ?_⟩
  rw [deliversUpTo_iff _ rfl] at hbound
  have hlatest := hbound (by decide) ⟨2, 2⟩ ⟨0, 0⟩ ⟨rfl, rfl⟩
  exact absurd hlatest (by decide)

end LatestEventsScanner

end EventScanner
