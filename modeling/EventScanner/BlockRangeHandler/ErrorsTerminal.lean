import EventScanner.BlockRangeHandler.Service

set_option relaxedAutoImplicit false
set_option autoImplicit false

/-!
# Errors on the subscriptions

Errors other than `Lagged` are meant to be the last item of a subscription. Both handlers count on
the block-range stream for this: it ends at such an error. But a log query that fails turns a range
in the middle of the stream into an error. `StreamHandler` sends it and goes on, and the collecting
task of `LatestEventsHandler` sends what it has gathered behind every error.

## Main definitions

* `EventScanner.ErrorsTerminal` — nothing stands behind a terminal error.
* `EventScanner.BlockRangeHandler.SilentBehindFailures` — no logs behind a failed query.
* `EventScanner.Relayed` — the messages that have come through to a processing task.

## Main results

* `EventScanner.Relayed.step` — what comes through ends at its first terminal error, too.
* `EventScanner.BlockRangeHandler.errorsTerminal` — errors are terminal on the subscriptions that
  meet the condition of their handler.
* `EventScanner.BlockRangeHandler.not_errorsTerminal_failedQuery` — two subscriptions that go on
  behind an error.
-/

namespace EventScanner

variable {n : ℕ} {T τ D : Type}

/-- The item is an error other than that the stream lags. -/
def IsTerminalError : ScannerResult T → Prop
  | .error e => e.isTerminal = true
  | .ok _ => False

instance (item : ScannerResult T) : Decidable (IsTerminalError item) :=
  match item with
  | .error e => inferInstanceAs (Decidable (e.isTerminal = true))
  | .ok _ => .isFalse id

/-- Nothing stands behind a terminal error. -/
def ErrorsTerminal (items : List (ScannerResult T)) : Prop :=
  items.Pairwise fun item _ => ¬IsTerminalError item

instance (items : List (ScannerResult T)) : Decidable (ErrorsTerminal items) :=
  inferInstanceAs (Decidable (items.Pairwise fun item _ => ¬IsTerminalError item))

section ErrorsTerminal

variable {items items' : List (ScannerResult T)} {item : ScannerResult T}

lemma ErrorsTerminal.sublist (h : ErrorsTerminal items) (hs : items'.Sublist items) :
    ErrorsTerminal items' := List.Pairwise.sublist hs h

/-- One more item behind others without a terminal error. -/
lemma errorsTerminal_concat (h : ∀ item ∈ items, ¬IsTerminalError item) :
    ErrorsTerminal (items ++ [item]) :=
  List.pairwise_append.mpr ⟨List.pairwise_of_forall_mem_list fun a ha _ _ => h a ha,
    List.pairwise_singleton _ _, fun a ha _ _ => h a ha⟩

/-- A terminal error is the last item. -/
lemma ErrorsTerminal.length_le (h : ErrorsTerminal items) {k : ℕ} (hk : k < items.length)
    (hterminal : IsTerminalError items[k]) : items.length ≤ k + 1 := by
  by_contra hmore
  exact List.pairwise_iff_getElem.mp h k (k + 1) hk (by omega) (Nat.lt_succ_self k) hterminal

end ErrorsTerminal

/-! ### The messages that come through -/

/-- What has come through ends at its first terminal error, behind which the stream has no more
messages. -/
structure Relayed (messages relayed : List BlockScannerResult) (next : ℕ) : Prop where
  /-- Nothing comes behind a terminal error. -/
  terminal : ErrorsTerminal relayed
  /-- A terminal error is the last message of the stream. -/
  last : ∀ item ∈ relayed, IsTerminalError item → messages.length ≤ next

/-- One more message comes through. -/
lemma Relayed.receive {messages relayed : List BlockScannerResult} {next next' : ℕ}
    (h : Relayed messages relayed next) (hmore : next < messages.length)
    {message : BlockScannerResult} (hlast : IsTerminalError message → messages.length ≤ next') :
    Relayed messages (relayed ++ [message]) next' := by
  have hclean : ∀ item ∈ relayed, ¬IsTerminalError item :=
    fun item hitem hterminal => absurd (h.last item hitem hterminal) (by omega)
  refine ⟨errorsTerminal_concat hclean, fun item hitem hterminal => ?_⟩
  rcases List.mem_append.mp hitem with hitem | hitem
  · exact absurd hterminal (hclean item hitem)
  · obtain rfl := List.mem_singleton.mp hitem
    exact hlast hterminal

/-- **One step keeps it**, behind a stream that ends at its first terminal error. -/
lemma Relayed.step {messages sent relayed relayed' : List BlockScannerResult} {next next' : ℕ}
    (hmessages : ErrorsTerminal messages) (hsent : sent <+: messages)
    (hst : Relays sent relayed relayed' next next') (h : Relayed messages relayed next) :
    Relayed messages relayed' next' := by
  have hlength := hsent.length_le
  cases hst with
  | keep hkept hnext =>
    exact ⟨h.terminal.sublist hkept.sublist,
      fun item hitem => hnext ▸ h.last item (hkept.subset hitem)⟩
  | receive hlt hrelayed hnext =>
    subst hrelayed hnext
    refine h.receive (by omega) fun hterminal => ?_
    rw [hsent.getElem hlt] at hterminal
    exact hmessages.length_le (by omega) hterminal
  | lag skipped hlt hrelayed =>
    subst hrelayed
    refine h.receive (by omega) fun hterminal => ?_
    cases hterminal

/-! ### What the listeners receive -/

namespace BlockRangeHandler

/-- The log query for a message that has been taken fails with a terminal error. -/
def FetchFails (getLogs : GetLogs D) (taken : List BlockScannerResult) (k : ℕ) : Prop :=
  ∃ range e, taken[k]? = some (dataItem range) ∧ getLogs k range = .error e ∧
    (ScannerError.ofProvider e).isTerminal = true

/-- Behind a query that has failed only ranges without logs are handled. -/
def SilentBehindFailures (handler : BlockRangeHandler n τ D) (s : ServiceState n τ D) (i : Fin n) :
    Prop :=
  ∀ j k result, j < k → FetchFails (handler.getLogs i) (s.taken i) j →
    (handler.handled s i)[k]? = some result → StreamTask.skipped result = true

section Received

variable {handler : BlockRangeHandler n τ D} {config : HandlerConfig} {count : ℕ}
  {getLogs : Fin n → GetLogs D} {messages : List BlockScannerResult} {i : Fin n}

/-- What the processing task of `StreamHandler` has sent, given the outcomes handled. -/
lemma sent_process_isPrefix {handled : List (EventScannerResult D)} {task : StreamTask D}
    {listening : Bool} {result : EventScannerResult D} (h : task.sent.reverse = kept handled) :
    ((StreamTask.process listening task result).returned = false →
        (StreamTask.process listening task result).sent.reverse = kept (handled ++ [result])) ∧
      (StreamTask.process listening task result).sent.reverse <+: kept (handled ++ [result]) := by
  unfold StreamTask.process
  rw [kept, List.filter_append, ← kept, ← h]
  split_ifs with hskipped hlistening
  · simp [hskipped]
  · simp [hskipped]
  · simp

/-- What `StreamHandler` has sent are the first of the outcomes handled, without the ranges that
have no logs. -/
lemma received_streamHandler_isPrefix {s : ServiceState n (StreamTask D) D}
    (hs : (streamHandler config getLogs).service.Reach
      ((streamHandler config getLogs).serviceStart messages) s) (i : Fin n) :
    (streamHandler config getLogs).received s i <+:
      kept ((streamHandler config getLogs).handled s i) := by
  have hattended := service_invariant (I := fun handled (task : StreamTask D) =>
      (task.returned = false → task.sent.reverse = kept handled) ∧
        task.sent.reverse <+: kept handled) ⟨fun _ => rfl, List.prefix_refl _⟩ ?_
      (fun _ _ _ h => h) hs i
  · exact hattended.task.2
  · rintro handled task listening result hlooping ⟨hsent, -⟩
    have hrunning : task.returned = false := by
      by_contra hreturned
      simp [streamHandler, streamTask, hreturned] at hlooping
    exact sent_process_isPrefix (hsent hrunning)

/-- The errors that `LatestEventsHandler` has sent are outcomes it has handled. -/
lemma error_mem_handled {s : ServiceState n (CollectingTask D) D}
    (hs : (latestEventsHandler config count getLogs).service.Reach
      ((latestEventsHandler config count getLogs).serviceStart messages) s) {e : ScannerError}
    (he : .error e ∈ (latestEventsHandler config count getLogs).received s i) :
    .error e ∈ (latestEventsHandler config count getLogs).handled s i := by
  have hattended := service_invariant (I := fun handled (task : CollectingTask D) =>
      ∀ e, .error e ∈ task.sent → .error e ∈ handled) nofun ?_ ?_ hs i
  · exact hattended.task e (List.mem_reverse.mp he)
  · intro handled task listening result _ h e he
    rcases CollectingTask.mem_sent_process he with heq | he
    · simp [heq]
    · exact List.mem_append_left _ (h e he)
  · exact fun handled task listening h e he => h e (CollectingTask.error_mem_sent_finish he)

/-- A terminal error is one of the stream, or that of a failed query. -/
lemma isTerminalError_fetchResult
    {getLogs : RangeInclusive → Except RobustProviderError (List (RpcLog D))}
    {message : BlockScannerResult} (h : IsTerminalError (fetchResult getLogs message)) :
    IsTerminalError message ∨ ∃ range e, message = dataItem range ∧ getLogs range = .error e ∧
      (ScannerError.ofProvider e).isTerminal = true := by
  match message with
  | .ok (.data range) =>
    match hlogs : getLogs range with
    | .ok logs =>
      rw [fetchResult_of_ok hlogs] at h
      exact h.elim
    | .error e =>
      rw [fetchResult_of_error hlogs] at h
      exact Or.inr ⟨range, e, rfl, hlogs, h⟩
  | .ok (.notification _) => exact Or.inl h
  | .error _ => exact Or.inl h

/-- The outcomes that `StreamHandler` sends end at the first terminal error, if it is silent behind
failed queries: the other errors come from the stream. -/
lemma errorsTerminal_kept {s : ServiceState n τ D} (hmessages : ErrorsTerminal messages)
    (hs : handler.service.Reach (handler.serviceStart messages) s)
    (hsilent : handler.SilentBehindFailures s i) : ErrorsTerminal (kept (handler.handled s i)) := by
  have htaken : ErrorsTerminal (s.taken i) := by
    have hrelayed := relayed_invariant (I := Relayed messages) ⟨List.Pairwise.nil, nofun⟩
      (fun _ _ _ _ _ hsent hst h => h.step hmessages hsent hst) hs i
    refine hrelayed.terminal.sublist ?_
    rw [Consumer.relayed, List.append_assoc]
    exact List.sublist_append_left _ _
  unfold kept ErrorsTerminal
  rw [List.pairwise_filter, List.pairwise_iff_getElem]
  intro j k hj hk hjk _ hkept hterminal
  have hlength : (handler.handled s i).length ≤ (s.taken i).length :=
    (List.length_take_le' _ _).trans_eq (length_outcomesOf _ _)
  have hj' : j < (s.taken i).length := by omega
  have hresult : (handler.handled s i)[j] = fetchResult (handler.getLogs i j) (s.taken i)[j] := by
    simp only [handled, Consumer.handled, outcomesOf, List.getElem_take, List.getElem_mapIdx]
  rw [hresult] at hterminal
  rcases isTerminalError_fetchResult hterminal with hstream | ⟨range, e, hrange, he, hfails⟩
  · exact List.pairwise_iff_getElem.mp htaken j k hj' (by omega) hjk hstream
  · have hskipped := hsilent j k (handler.handled s i)[k] hjk
      ⟨range, e, hrange ▸ List.getElem?_eq_getElem hj', he, hfails⟩ (List.getElem?_eq_getElem hk)
    simp [hskipped] at hkept

/-- **Errors are terminal on a subscription** to `StreamHandler` if no logs come behind a failed
query, and on one to `LatestEventsHandler` if the outcomes it handles have no terminal error. -/
theorem errorsTerminal (config : HandlerConfig) (getLogs : Fin n → GetLogs D)
    (hmessages : ErrorsTerminal messages) :
    (∀ s, (streamHandler config getLogs).service.Reach
        ((streamHandler config getLogs).serviceStart messages) s →
      ∀ i, (streamHandler config getLogs).SilentBehindFailures s i →
        ErrorsTerminal ((streamHandler config getLogs).received s i)) ∧
    ∀ count s, (latestEventsHandler config count getLogs).service.Reach
        ((latestEventsHandler config count getLogs).serviceStart messages) s →
      ∀ i, (∀ result ∈ (latestEventsHandler config count getLogs).handled s i,
          ¬IsTerminalError result) →
        ErrorsTerminal ((latestEventsHandler config count getLogs).received s i) := by
  refine ⟨fun s hs i hsilent => ?_, fun count s hs i hclean => ?_⟩
  · exact (errorsTerminal_kept hmessages hs hsilent).sublist
      (received_streamHandler_isPrefix hs i).sublist
  · refine List.pairwise_of_forall_mem_list fun item hitem _ _ hterminal => ?_
    match item with
    | .error e => exact hclean _ (error_mem_handled hs hitem) hterminal
    | .ok _ => exact hterminal

end Received

/-! ### A query that fails -/

/-- A stream of two ranges; a rewind has them the other way round. -/
def twoRanges : List BlockScannerResult := [dataItem ⟨1, 1⟩, dataItem ⟨2, 2⟩]

/-- There is a log in every range, but the query for one message times out. -/
def timingOut (k : ℕ) : Fin 1 → GetLogs Unit := fun _ j range =>
  if j = k then .error .timeout else .ok [⟨some range.start, some 0, ()⟩]

/-- A broadcast channel for two messages, and one fetch at a time. -/
def twoMessages : HandlerConfig := ⟨2, Nat.two_pos, 1, Nat.one_pos⟩

/-- Both messages are handled one after the other, and the tasks end. -/
def servedRun (i : Fin n) : List (ServiceAction n) := List.map ServiceAction.network
  [.next, .task i .recv, .task i .send, .task i .pull, .task i (.fetched 0), .task i .process,
    .next, .task i .recv, .task i .send, .task i .pull, .task i (.fetched 0), .task i .process,
    .next, .task i .recv, .task i .finish]

/-- The query for the second message times out: errors are terminal for `StreamHandler`. When no
query does, they are for `LatestEventsHandler`. -/
theorem errorsTerminal_failedLast :
    (∃ s, (streamHandler twoMessages (timingOut 1)).service.Reach
        ((streamHandler twoMessages (timingOut 1)).serviceStart twoRanges) s ∧
      ErrorsTerminal ((streamHandler twoMessages (timingOut 1)).received s 0) ∧
      (streamHandler twoMessages (timingOut 1)).received s 0 =
        [.ok (.data [⟨some 1, some 0, ()⟩]), .error .timeout]) ∧
    ∃ s, (latestEventsHandler twoMessages 2 (timingOut 2)).service.Reach
        ((latestEventsHandler twoMessages 2 (timingOut 2)).serviceStart twoRanges.reverse) s ∧
      ErrorsTerminal ((latestEventsHandler twoMessages 2 (timingOut 2)).received s 0) ∧
      (latestEventsHandler twoMessages 2 (timingOut 2)).received s 0 =
        [.ok (.data [⟨some 1, some 0, ()⟩, ⟨some 2, some 0, ()⟩])] := by
  have hstream : ((streamHandler twoMessages (timingOut 1)).service.run (servedRun 0)
      ((streamHandler twoMessages (timingOut 1)).serviceStart twoRanges)).map (fun s =>
        ((streamHandler twoMessages (timingOut 1)).received s 0,
          ((streamHandler twoMessages (timingOut 1)).handled s 0).length)) =
      some ([.ok (.data [⟨some 1, some 0, ()⟩]), .error .timeout], 2) := rfl
  have hlatest : ((latestEventsHandler twoMessages 2 (timingOut 2)).service.run (servedRun 0)
      ((latestEventsHandler twoMessages 2 (timingOut 2)).serviceStart twoRanges.reverse)).map
        (fun s => ((latestEventsHandler twoMessages 2 (timingOut 2)).received s 0,
          (latestEventsHandler twoMessages 2 (timingOut 2)).handled s 0)) =
      some ([.ok (.data [⟨some 1, some 0, ()⟩, ⟨some 2, some 0, ()⟩])],
        [.ok (.data [⟨some 2, some 0, ()⟩]), .ok (.data [⟨some 1, some 0, ()⟩])]) := rfl
  obtain ⟨s, hs, hfacts⟩ := Option.map_eq_some_iff.mp hstream
  obtain ⟨s', hs', hfacts'⟩ := Option.map_eq_some_iff.mp hlatest
  obtain ⟨hreceived, hlength⟩ := Prod.mk.inj hfacts
  obtain ⟨hreceived', hhandled'⟩ := Prod.mk.inj hfacts'
  have hreach := ActionSystem.reach_of_run hs
  have hreach' := ActionSystem.reach_of_run hs'
  refine ⟨⟨s, hreach, ?_, hreceived⟩, s', hreach', ?_, hreceived'⟩
  · refine (errorsTerminal twoMessages (timingOut 1) (by decide)).1 s hreach 0 ?_
    intro j k result hjk ⟨range, e, _, he, _⟩ hk
    have hlast : j = 1 := by
      by_contra hj
      simp [streamHandler, timingOut, hj] at he
    obtain ⟨hlt, -⟩ := List.getElem?_eq_some_iff.mp hk
    omega
  · refine (errorsTerminal twoMessages (timingOut 2) (by decide)).2 2 s' hreach' 0 ?_
    rw [hhandled']
    decide

/-- The query for the first message times out: `StreamHandler` sends the logs of the other range
behind the error, and `LatestEventsHandler` sends them as the latest ones. -/
theorem not_errorsTerminal_failedQuery :
    ErrorsTerminal twoRanges ∧ ErrorsTerminal twoRanges.reverse ∧
    (∃ s, (streamHandler twoMessages (timingOut 0)).service.Reach
        ((streamHandler twoMessages (timingOut 0)).serviceStart twoRanges) s ∧
      (streamHandler twoMessages (timingOut 0)).received s 0 =
        [.error .timeout, .ok (.data [⟨some 2, some 0, ()⟩])] ∧
      ¬ErrorsTerminal ((streamHandler twoMessages (timingOut 0)).received s 0)) ∧
    ∃ s, (latestEventsHandler twoMessages 2 (timingOut 0)).service.Reach
        ((latestEventsHandler twoMessages 2 (timingOut 0)).serviceStart twoRanges.reverse) s ∧
      (latestEventsHandler twoMessages 2 (timingOut 0)).received s 0 =
        [.error .timeout, .ok (.data [⟨some 1, some 0, ()⟩])] ∧
      ¬ErrorsTerminal ((latestEventsHandler twoMessages 2 (timingOut 0)).received s 0) := by
  have hstream : ((streamHandler twoMessages (timingOut 0)).service.run (servedRun 0)
      ((streamHandler twoMessages (timingOut 0)).serviceStart twoRanges)).map
        (fun s => (streamHandler twoMessages (timingOut 0)).received s 0) =
      some [.error .timeout, .ok (.data [⟨some 2, some 0, ()⟩])] := by decide
  have hlatest : ((latestEventsHandler twoMessages 2 (timingOut 0)).service.run (servedRun 0)
      ((latestEventsHandler twoMessages 2 (timingOut 0)).serviceStart twoRanges.reverse)).map
        (fun s => (latestEventsHandler twoMessages 2 (timingOut 0)).received s 0) =
      some [.error .timeout, .ok (.data [⟨some 1, some 0, ()⟩])] := by decide
  obtain ⟨s, hs, hreceived⟩ := Option.map_eq_some_iff.mp hstream
  obtain ⟨s', hs', hreceived'⟩ := Option.map_eq_some_iff.mp hlatest
  refine ⟨by decide, by decide, ⟨s, ActionSystem.reach_of_run hs, hreceived, ?_⟩,
    s', ActionSystem.reach_of_run hs', hreceived', ?_⟩
  · rw [hreceived]
    decide
  · rw [hreceived']
    decide

end BlockRangeHandler

end EventScanner
