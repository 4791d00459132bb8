import EventScanner.Types

set_option relaxedAutoImplicit false
set_option autoImplicit false

/-!
# Collecting the latest logs

The collecting task of `LatestEventsHandler::spawn` in `block_range_handler.rs`: it takes the
messages of a block-range stream in order, each range with the logs fetched for it, gathers up
to `count` logs newest first, and at the end sends what it has, oldest first.

## Main definitions

* `EventScanner.RpcLog` — a log, as far as the handlers look at it.
* `EventScanner.fetchResult` — a message with the outcome of its fetch.
* `EventScanner.outcomesOf` — the outcomes of the messages of a stream, in order.
* `EventScanner.collectLogs`, `EventScanner.discardLogsFromOrphanedBlocks` — the buffer.
* `EventScanner.AllocatesLogs` — the buffer can be allocated.
* `EventScanner.CollectingTask` — the task: what a message does to it, and how it ends.

## Design

Fetching logs is a call of the provider, so what it answers is a parameter. The messages are
fetched concurrently, but `buffered` keeps their order, so the task sees a list of results.
-/

namespace EventScanner

/-- A log (`alloy::rpc::types::Log`); what the handlers do not look at is its content. -/
structure RpcLog (D : Type) where
  /-- The block of the log; missing while the log is pending. -/
  blockNumber : Option ℕ
  /-- The position of the log in its block. -/
  logIndex : Option ℕ
  /-- The content. -/
  inner : D
  deriving DecidableEq, Repr

variable {D T : Type}

/-- The item type of the streams of a listener (`EventScannerResult`). -/
abbrev EventScannerResult (D : Type) := ScannerResult (List (RpcLog D))

/-- What a message of the block-range stream becomes when the provider answers to the log query
with `getLogs`. -/
def fetchResult (getLogs : RangeInclusive → Except RobustProviderError (List (RpcLog D))) :
    BlockScannerResult → EventScannerResult D
  | .ok (.data range) =>
    match getLogs range with
    | .ok logs => .ok (.data logs)
    | .error e => .error (.ofProvider e)
  | .ok (.notification n) => .ok (.notification n)
  | .error e => .error e

/-- An answer to the log query for each message: the `i`-th message's is `getLogs i`. -/
abbrev GetLogs (D : Type) :=
  ℕ → RangeInclusive → Except RobustProviderError (List (RpcLog D))

section FetchResult

variable {getLogs : RangeInclusive → Except RobustProviderError (List (RpcLog D))}
  {range : RangeInclusive}

lemma fetchResult_of_ok {logs : List (RpcLog D)} (h : getLogs range = .ok logs) :
    fetchResult getLogs (dataItem range) = .ok (.data logs) := by
  simp only [fetchResult, h]

lemma fetchResult_of_error {e : RobustProviderError} (h : getLogs range = .error e) :
    fetchResult getLogs (dataItem range) = .error (.ofProvider e) := by
  simp only [fetchResult, h]

end FetchResult

/-- The outcomes of messages, in order, for a listener. -/
def outcomesOf (getLogs : GetLogs D) (messages : List BlockScannerResult) :
    List (EventScannerResult D) :=
  messages.mapIdx fun k => fetchResult (getLogs k)

/-- One more message taken. -/
lemma outcomesOf_concat (getLogs : GetLogs D) (pulled : List BlockScannerResult)
    (message : BlockScannerResult) :
    outcomesOf getLogs (pulled ++ [message]) =
      outcomesOf getLogs pulled ++ [fetchResult (getLogs pulled.length) message] := by
  unfold outcomesOf
  rw [List.mapIdx_concat]

/-- The outcomes of the first messages are the first outcomes. -/
lemma outcomesOf_isPrefix (getLogs : GetLogs D) {messages messages' : List BlockScannerResult}
    (h : messages <+: messages') :
    outcomesOf getLogs messages <+: outcomesOf getLogs messages' := by
  obtain ⟨rest, rfl⟩ := h
  unfold outcomesOf
  rw [List.mapIdx_append]
  exact List.prefix_append _ _

/-! ### The buffer -/

/-- The bytes of a log (`size_of::<Log>()` on a 64-bit target): 80 for what a contract has logged,
16 for each of the four numbers that may be missing, 33 for each of the two hashes that may be, one
for the flag, rounded up to words. -/
def logSize : ℕ := 216

/-- The buffer that the collecting task starts with can be allocated; `Vec::with_capacity(count)`
panics otherwise. -/
def AllocatesLogs (count : ℕ) : Prop := FitsInMemory count logSize

instance (count : ℕ) : Decidable (AllocatesLogs count) :=
  inferInstanceAs (Decidable (FitsInMemory count logSize))

/-- `discard_logs_from_orphaned_blocks`. -/
def discardLogsFromOrphanedBlocks (collected : List (RpcLog D)) (commonAncestor : ℕ) :
    List (RpcLog D) :=
  collected.dropWhile fun log => log.blockNumber.any fun n => n > commonAncestor

/-- `collect_logs`: the buffer, and whether it is complete. -/
def collectLogs (collected logs : List T) (count : ℕ) (prepend : Bool) : List T × Bool :=
  if prepend then
    let newLogs := logs.reverse.take count
    let keep := count - newLogs.length
    let collected := newLogs ++ collected.take keep
    (collected, decide (collected.length ≥ count))
  else
    let take := count - collected.length
    if take = 0 then (collected, true)
    else
      let collected := collected ++ logs.reverse.take take
      (collected, decide (collected.length ≥ count))

/-- Collecting logs adds some of them. -/
lemma mem_collectLogs {collected logs : List T} {count : ℕ} {prepend : Bool} {l : T}
    (h : l ∈ (collectLogs collected logs count prepend).1) : l ∈ collected ∨ l ∈ logs := by
  unfold collectLogs at h
  dsimp only at h
  split_ifs at h
  · rcases List.mem_append.mp h with h | h
    · exact Or.inr (List.mem_reverse.mp (List.mem_of_mem_take h))
    · exact Or.inl (List.mem_of_mem_take h)
  · exact Or.inl h
  · rcases List.mem_append.mp h with h | h
    · exact Or.inl h
    · exact Or.inr (List.mem_reverse.mp (List.mem_of_mem_take h))

/-! ### The task -/

/-- Where the collecting task stands. -/
inductive CollectingPhase (D : Type)
  /-- At its start, about to panic: the buffer is too large to be allocated. -/
  | overflowing
  /-- Taking results, with the buffer and the common ancestor of a reorg being rescanned. -/
  | collecting (collected : List (RpcLog D)) (reorgAncestor : Option ℕ)
  /-- Behind the loop, with `count` logs. -/
  | complete (collected : List (RpcLog D))
  /-- Ended early: the listener is gone. -/
  | returned
  /-- Ended by a panic: a pending log, or a buffer that is too large. -/
  | panicked
  deriving DecidableEq

/-- The state of the collecting task. -/
structure CollectingTask (D : Type) where
  /-- Where the task stands. -/
  phase : CollectingPhase D
  /-- The items sent to the listener, newest first. -/
  sent : List (EventScannerResult D)
  deriving DecidableEq

namespace CollectingTask

/-- The task before the first message, with room for `count` logs. -/
def new (count : ℕ) : CollectingTask D :=
  ⟨if AllocatesLogs count then .collecting [] none else .overflowing, []⟩

lemma new_of_allocatesLogs {count : ℕ} (h : AllocatesLogs count) :
    (new count : CollectingTask D) = ⟨.collecting [] none, []⟩ := by
  rw [new, if_pos h]

lemma new_of_not_allocatesLogs {count : ℕ} (h : ¬AllocatesLogs count) :
    (new count : CollectingTask D) = ⟨.overflowing, []⟩ := by
  rw [new, if_neg h]

/-- Before the first message the buffer is empty. -/
lemma eq_of_phase_new {count : ℕ} {collected : List (RpcLog D)} {ancestor : Option ℕ}
    (h : (new count).phase = .collecting collected ancestor) :
    collected = [] ∧ ancestor = none := by
  by_cases hfits : AllocatesLogs count
  · rw [new_of_allocatesLogs hfits] at h
    cases h
    exact ⟨rfl, rfl⟩
  · rw [new_of_not_allocatesLogs hfits] at h
    cases h

@[simp] lemma sent_new (count : ℕ) : (new count : CollectingTask D).sent = [] := rfl

/-- Send an item to the listener; a listener that is gone ends the task. How long the listener
stays may depend on what it has received. -/
def trySend (listening : List (EventScannerResult D) → Bool) (item : EventScannerResult D)
    (self : CollectingTask D) : CollectingTask D :=
  if listening self.sent then { self with sent := item :: self.sent }
  else { self with phase := .returned }

/-- The body of the `while let` loop. -/
def process (count : ℕ) (listening : List (EventScannerResult D) → Bool)
    (self : CollectingTask D) (result : EventScannerResult D) : CollectingTask D :=
  match self.phase with
  | .collecting collected reorgAncestor =>
    match result with
    | .ok (.data logs) =>
      match logs.getLast? with
      | none => self
      | some last =>
        match last.blockNumber with
        | none => { self with phase := .panicked } -- pending blocks not supported
        | some lastLogBlockNum =>
          -- in reorg recovery, and past the reorg range?
          let reorgAncestor := reorgAncestor.filter fun a => lastLogBlockNum > a
          let collection := collectLogs collected logs count reorgAncestor.isSome
          if collection.2 then { self with phase := .complete collection.1 }
          else { self with phase := .collecting collection.1 reorgAncestor }
    | .ok (.notification (.reorgDetected commonAncestor)) =>
      { self with
        phase := .collecting (discardLogsFromOrphanedBlocks collected commonAncestor)
          (some commonAncestor) }
    | .ok (.notification n) => self.trySend listening (.ok (.notification n))
    | .error e => self.trySend listening (.error e)
  | .overflowing | .complete _ | .returned | .panicked => self

/-- What the task sends when it has left the loop with a buffer. -/
def deliver (listening : List (EventScannerResult D) → Bool) (collected : List (RpcLog D))
    (self : CollectingTask D) : CollectingTask D :=
  if collected.isEmpty then self.trySend listening (.ok (.notification .noPastLogsFound))
  else self.trySend listening (.ok (.data collected.reverse))

/-- The end of the task, once there are no more results; or the panic at its start. -/
def finish (listening : List (EventScannerResult D) → Bool) (self : CollectingTask D) :
    CollectingTask D :=
  match self.phase with
  | .collecting collected _ | .complete collected => self.deliver listening collected
  | .overflowing => { self with phase := .panicked } -- capacity overflow
  | .returned | .panicked => self

/-! ### What the task sends -/

variable {count : ℕ} {listening : List (EventScannerResult D) → Bool} {t : CollectingTask D}
  {item result : EventScannerResult D}

/-- Inside its loop the task sends no logs. -/
lemma sent_process_data (t : CollectingTask D) (logs : List (RpcLog D)) :
    (t.process count listening (.ok (.data logs))).sent = t.sent := by
  unfold CollectingTask.process
  split
  · dsimp only
    split
    · rfl
    · split
      · rfl
      · split_ifs <;> rfl
  all_goals rfl

/-- What a send adds is the item sent. -/
lemma mem_sent_trySend (h : item ∈ (t.trySend listening result).sent) :
    item = result ∨ item ∈ t.sent := by
  unfold trySend at h
  split_ifs at h
  · exact List.mem_cons.mp h
  · exact Or.inr h

/-- What the body of the loop adds is the result handled. -/
lemma mem_sent_process (h : item ∈ (t.process count listening result).sent) :
    item = result ∨ item ∈ t.sent := by
  match result with
  | .ok (.data logs) =>
    rw [sent_process_data] at h
    exact Or.inr h
  | .ok (.notification (.reorgDetected _)) | .ok (.notification .switchingToLive)
  | .ok (.notification .noPastLogsFound) | .error _ =>
    unfold process at h
    split at h
    · first | exact mem_sent_trySend h | exact Or.inr h
    all_goals exact Or.inr h

/-- The end of the task adds no error. -/
lemma error_mem_sent_finish {e : ScannerError} (h : .error e ∈ (t.finish listening).sent) :
    .error e ∈ t.sent := by
  have hdeliver (collected : List (RpcLog D))
      (h : .error e ∈ (t.deliver listening collected).sent) : .error e ∈ t.sent := by
    unfold deliver at h
    split_ifs at h
    · exact (mem_sent_trySend h).resolve_left nofun
    · exact (mem_sent_trySend h).resolve_left nofun
  unfold finish at h
  split at h
  · exact hdeliver _ h
  · exact hdeliver _ h
  all_goals exact h

end CollectingTask

end EventScanner
