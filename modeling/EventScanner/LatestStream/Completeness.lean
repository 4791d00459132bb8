import EventScanner.LatestStream.Chronology
import EventScanner.SyncStream.Consumer

set_option relaxedAutoImplicit false
set_option autoImplicit false

/-!
# The latest logs are the newest ones, also behind a reorg

Once the chain has settled behind the last reorg, the collecting task gathers the canonical logs
of the blocks it has been sent. It delivers the newest ones of them, unless the blocks sent again
behind the reorg make its buffer complete while newer ones of them are still to come: those
blocks are sent upwards, but the task stops as if they were sent downwards.

## Main definitions

* `EventScanner.fetchedLogs`, `EventScanner.heldLogs` — the logs fetched and not withdrawn, and the
  canonical logs of the blocks sent and not withdrawn.
* `EventScanner.Settled`, `EventScanner.Consumed` — the chain has settled behind a reorg.
* `EventScanner.RescanReachesNewest` — the condition on the ranges of the last rescan.
* `EventScanner.DeliversNewest` — what the listener should get.

## Main results

* `EventScanner.CollectingTask.delivered_newest` — the newest logs are delivered, in every run that
  meets the conditions.
* `EventScanner.CollectingTask.not_newest_stopsInRescan` — a run that delivers an old log instead.
-/

namespace EventScanner

open HashChain EventLog

variable {Hash R D : Type}

/-! ### The logs of the blocks sent -/

/-- The logs that have been fetched for the ranges sent and not been withdrawn by a reorg, when
`logs i` answers the query for the `i`-th message. -/
def fetchedLogs (logs : ℕ → RangeInclusive → List (RpcLog D)) : Log Hash → List (RpcLog D)
  | [] => []
  | .sent (.ok (.data r)) :: past => logs (messages past).length r ++ fetchedLogs logs past
  | .sent (.ok (.notification (.reorgDetected a))) :: past =>
    (fetchedLogs logs past).filter fun l => l.number ≤ a
  | _ :: past => fetchedLogs logs past

/-- The canonical logs of a range of blocks. -/
def logsIn (canon : List (RpcLog D)) (range : RangeInclusive) : List (RpcLog D) :=
  canon.filter fun l => range.Contains l.number

/-- The canonical logs of the blocks that have been sent and not been withdrawn by a reorg. -/
def heldLogs (canon : List (RpcLog D)) (log : Log Hash) : List (RpcLog D) :=
  canon.filter fun l => Held log l.number

/-- The ancestor of the last reorg. -/
def lastReorg : Log Hash → Option ℕ
  | [] => none
  | .sent (.ok (.notification (.reorgDetected a))) :: _ => some a
  | _ :: past => lastReorg past

/-- A reorg is reported. -/
def IsReorg : Event Hash → Log Hash → Prop
  | .sent (.ok (.notification (.reorgDetected _))), _ => True
  | _, _ => False

/-- A range is fetched from the settled chain, and no reorg is reported. -/
def Settled (logs : ℕ → RangeInclusive → List (RpcLog D)) (canon : List (RpcLog D)) :
    Event Hash → Log Hash → Prop
  | .sent (.ok (.data r)), past => logs (messages past).length r = logsIn canon r
  | .sent (.ok (.notification (.reorgDetected _))), _ => False
  | _, _ => True

/-- The collecting task of a listener that stays, when no query fails. -/
abbrev collector (count : ℕ) (logs : ℕ → RangeInclusive → List (RpcLog D)) (log : Log Hash) :
    CollectingTask D :=
  CollectingTask.after count (fun _ => true) (fun i r => .ok (logs i r)) log

/-- The task is still taking results. -/
def CollectingTask.isCollecting (t : CollectingTask D) : Bool :=
  match t.phase with
  | .collecting _ _ => true
  | .overflowing | .complete _ | .returned | .panicked => false

/-- A reorg is reported while the task is still collecting, and the logs it has fetched from the
blocks up to the ancestor are the canonical ones. -/
def Consumed (count : ℕ) (logs : ℕ → RangeInclusive → List (RpcLog D)) (canon : List (RpcLog D)) :
    Event Hash → Log Hash → Prop
  | .sent (.ok (.notification (.reorgDetected a))), past =>
    (collector count logs past).isCollecting = true ∧
      (∀ l ∈ fetchedLogs logs past, l.number ≤ a → l ∈ canon) ∧
      ∀ l ∈ heldLogs canon past, l.number ≤ a → l ∈ fetchedLogs logs past
  | _, _ => False

/-- A range of a rescan (one above the ancestor `a` of the last reorg) that brings the canonical
logs of the blocks sent to `count` leaves no canonical log of the requested range above it. -/
def RescanReachesNewest (count : ℕ) (requested : RangeInclusive) (canon : List (RpcLog D)) :
    Event Hash → Log Hash → Prop
  | .sent (.ok (.data r)), past =>
    (∀ a ∈ lastReorg past, a < r.start) →
      count ≤ (heldLogs canon (.sent (dataItem r) :: past)).length →
      ∀ l ∈ logsIn canon requested, l.number ≤ r.stop
  | _, _ => True

/-- What a listener should get: no canonical log of the requested range is missing that is newer
than a delivered one, and none at all if fewer than `count` are delivered. -/
structure DeliversNewest (count : ℕ) (requested : RangeInclusive) (canon : List (RpcLog D))
    (delivered : List (RpcLog D)) : Prop where
  /-- The delivered logs are the newest ones. -/
  newest : ∀ l ∈ logsIn canon requested, ∀ l' ∈ delivered, l'.Before l → l ∈ delivered
  /-- Fewer than `count` logs are all logs. -/
  all : delivered.length < count → ∀ l ∈ logsIn canon requested, l ∈ delivered

/-- The logs among the items a listener receives. -/
def deliveredLogs (items : List (EventScannerResult D)) : List (RpcLog D) :=
  items.flatMap fun item =>
    match item with
    | .ok (.data logs) => logs
    | .ok (.notification _) | .error _ => []

/-! ### Logs in order -/

section Lists

variable {canon : List (RpcLog D)} {range whole : RangeInclusive} {log : Log Hash}

/-- Lists of logs in order with the same logs are equal. -/
lemma eq_of_ascending {xs ys : List (RpcLog D)} (hx : xs.Pairwise RpcLog.Before)
    (hy : ys.Pairwise RpcLog.Before) (h : ∀ l, l ∈ xs ↔ l ∈ ys) : xs = ys := by
  have hnodup {zs : List (RpcLog D)} (hz : zs.Pairwise RpcLog.Before) : zs.Nodup := by
    refine hz.imp fun {l l'} hlt heq => ?_
    subst heq
    exact l.not_before_self hlt
  refine List.Perm.eq_of_pairwise (fun l l' _ _ hl hl' => ?_) hx hy
    ((List.perm_ext_iff_of_nodup (hnodup hx) (hnodup hy)).mpr h)
  exact absurd (hl.trans hl') l.not_before_self

lemma mem_logsIn {l : RpcLog D} : l ∈ logsIn canon range ↔ l ∈ canon ∧ range.Contains l.number := by
  simp [logsIn]

lemma mem_heldLogs {l : RpcLog D} : l ∈ heldLogs canon log ↔ l ∈ canon ∧ Held log l.number := by
  simp [heldLogs]

/-- A range above all blocks sent adds its logs behind those of the blocks sent. -/
lemma heldLogs_sent_above (hcanon : FetchedFrom whole canon)
    (h : ∀ n, Held log n → n < range.start) :
    heldLogs canon (.sent (dataItem range) :: log) = heldLogs canon log ++ logsIn canon range := by
  refine eq_of_ascending (hcanon.ascending.sublist List.filter_sublist) ?_ fun l => ?_
  · refine List.pairwise_append.mpr ⟨hcanon.ascending.sublist List.filter_sublist,
      hcanon.ascending.sublist List.filter_sublist, fun l hl l' hl' => ?_⟩
    have := h l.number (mem_heldLogs.mp hl).2
    have := (mem_logsIn.mp hl').2.1
    exact RpcLog.before_of_number_lt (by omega)
  · rw [List.mem_append, mem_heldLogs, mem_heldLogs, mem_logsIn]
    simp only [Held]
    tauto

/-- A range below all blocks sent adds its logs before those of the blocks sent. -/
lemma heldLogs_sent_below (hcanon : FetchedFrom whole canon)
    (h : ∀ n, Held log n → range.stop < n) :
    heldLogs canon (.sent (dataItem range) :: log) = logsIn canon range ++ heldLogs canon log := by
  refine eq_of_ascending (hcanon.ascending.sublist List.filter_sublist) ?_ fun l => ?_
  · refine List.pairwise_append.mpr ⟨hcanon.ascending.sublist List.filter_sublist,
      hcanon.ascending.sublist List.filter_sublist, fun l hl l' hl' => ?_⟩
    have := h l'.number (mem_heldLogs.mp hl').2
    have := (mem_logsIn.mp hl).2.2
    exact RpcLog.before_of_number_lt (by omega)
  · rw [List.mem_append, mem_heldLogs, mem_heldLogs, mem_logsIn]
    simp only [Held]
    tauto

/-- The newest logs of a buffer contain, with any log, all newer ones of the buffer. -/
lemma mem_take_of_before {buffer : List (RpcLog D)} {count : ℕ} {l l' : RpcLog D}
    (hb : buffer.Pairwise fun l l' => l'.Before l) (hl : l ∈ buffer)
    (hl' : l' ∈ buffer.take count) (hlt : l'.Before l) : l ∈ buffer.take count := by
  rw [← List.take_append_drop count buffer] at hb hl
  rcases List.mem_append.mp hl with hl | hl
  · exact hl
  · have := (List.pairwise_append.mp hb).2.2 l' hl' l hl
    exact absurd (this.trans hlt) l.not_before_self

end Lists

/-- Logs are fetched from blocks that were sent. -/
lemma held_of_mem_fetchedLogs {logs : ℕ → RangeInclusive → List (RpcLog D)}
    (hlogs : ∀ i r, FetchedFrom r (logs i r)) {log : Log Hash} {l : RpcLog D}
    (h : l ∈ fetchedLogs logs log) : Held log l.number := by
  induction log with
  | nil => simp [fetchedLogs] at h
  | cons e past ih =>
    match e with
    | .sent (.ok (.data r)) =>
      rcases List.mem_append.mp h with h | h
      · exact Or.inl ((hlogs _ r).mined l h).2
      · exact Or.inr (ih h)
    | .sent (.ok (.notification (.reorgDetected a))) =>
      obtain ⟨h, ha⟩ := List.mem_filter.mp h
      exact ⟨by simpa using ha, ih h⟩
    | .sent (.ok (.notification .switchingToLive)) | .sent (.ok (.notification .noPastLogsFound))
    | .sent (.error _) | .request _ | .received _ | .checked _ _ => exact ih h

/-! ### What a message does to what has been gathered -/

namespace CollectingTask

variable {count : ℕ} {requested : RangeInclusive} {canon : List (RpcLog D)}
  {logs : ℕ → RangeInclusive → List (RpcLog D)} {range whole : RangeInclusive} {log : Log Hash}

variable (count requested canon) in
/-- Behind the last reorg the task has gathered the canonical logs of the blocks sent, or it is
complete with the newest ones. -/
def Gathered (log : Log Hash) (t : CollectingTask D) : Prop :=
  match t.phase with
  | .collecting collected _ => collected = (heldLogs canon log).reverse
  | .complete collected =>
    count ≤ collected.length ∧
      ∀ l ∈ logsIn canon requested, ∀ l' ∈ collected, l'.Before l → l ∈ collected
  | .overflowing | .returned | .panicked => False

variable (count requested canon logs) in
/-- The task has in its buffer what was fetched and not withdrawn, and if the chain has settled
behind the last reorg, it has gathered the canonical logs of the blocks sent. -/
structure Tracks (log : Log Hash) : Prop where
  /-- The buffer has what was fetched and not withdrawn. -/
  mem_iff : ∀ collected ancestor,
    (collector count logs log).phase = .collecting collected ancestor →
    ∀ l, l ∈ collected ↔ l ∈ fetchedLogs logs log
  /-- If the chain has settled, the canonical logs have been gathered. -/
  gathered : Since (Settled logs canon) (Consumed count logs canon) log →
    Since (RescanReachesNewest count requested canon) IsReorg log →
    Gathered count requested canon log (collector count logs log)

/-- Events that are not sent change nothing. -/
lemma Tracks.append {X : Log Hash} (h : Tracks count requested canon logs log)
    (hX : ∀ e ∈ X, ∀ item, e ≠ .sent item) : Tracks count requested canon logs (X ++ log) := by
  induction X with
  | nil => exact h
  | cons e X ih =>
    have ih := ih fun e' he' => hX e' (List.mem_cons_of_mem _ he')
    cases e with
    | sent item => exact absurd rfl (hX _ List.mem_cons_self item)
    | request | received | checked =>
      exact ⟨ih.mem_iff, fun hS hR => ih.gathered (hS.of_not id).2 (hR.of_not id).2⟩

/-- A check of the tip changes nothing. -/
lemma Tracks.check {reqs : Log Hash} {b : Block Hash} {a : Option (Block Hash)}
    (h : Tracks count requested canon logs log) (hreqs : ∀ e ∈ reqs, e.isRequest = true) :
    Tracks count requested canon logs (.checked b a :: (reqs ++ log)) := by
  refine h.append (X := .checked b a :: reqs) fun e he item heq => ?_
  subst heq
  rcases List.mem_cons.mp he with he | he
  · cases he
  · exact absurd (hreqs _ he) (by simp)

/-- A range that is sent is fetched and put into the buffer. The first condition says where, the
second one that a buffer which becomes complete has the newest logs. -/
lemma Tracks.sent (h : Tracks count requested canon logs log)
    (hcanon : FetchedFrom whole canon)
    (hall : ∀ collected ancestor,
      (collector count logs log).phase = .collecting collected ancestor →
      ∃ all ancestor', (collector count logs (.sent (dataItem range) :: log)).phase =
          settle count all ancestor' ∧
        (∀ l, l ∈ all ↔ l ∈ logs (messages log).length range ∨ l ∈ collected) ∧
        (logs (messages log).length range = logsIn canon range →
          collected = (heldLogs canon log).reverse →
          all = (heldLogs canon (.sent (dataItem range) :: log)).reverse))
    (hnewest : RescanReachesNewest count requested canon (.sent (dataItem range)) log →
      count ≤ (heldLogs canon (.sent (dataItem range) :: log)).length →
      ∀ l ∈ logsIn canon requested, ∀ l' ∈ heldLogs canon (.sent (dataItem range) :: log),
        l'.Before l → l ∈ heldLogs canon (.sent (dataItem range) :: log)) :
    Tracks count requested canon logs (.sent (dataItem range) :: log) := by
  have hdesc : (heldLogs canon (.sent (dataItem range) :: log)).reverse.Pairwise
      fun l l' => l'.Before l :=
    List.pairwise_reverse.mpr (hcanon.ascending.sublist List.filter_sublist)
  cases hphase : (collector count logs log).phase with
  | collecting collected ancestor =>
    obtain ⟨all, ancestor', hphase', hmem, hgather⟩ := hall collected ancestor hphase
    constructor
    · intro collected' ancestor'' hcollecting l
      rw [hphase'] at hcollecting
      unfold settle at hcollecting
      split_ifs at hcollecting
      simp only [CollectingPhase.collecting.injEq] at hcollecting
      obtain ⟨rfl, rfl⟩ := hcollecting
      rw [hmem, h.mem_iff _ _ hphase l]
      exact List.mem_append.symm
    · intro hS hR
      obtain ⟨hsettled, hS⟩ := hS.of_not id
      obtain ⟨hreaches, hR⟩ := hR.of_not id
      have hold := h.gathered hS hR
      simp only [Gathered, hphase] at hold
      have hnew := hgather hsettled hold
      simp only [Gathered, hphase', settle]
      split_ifs with hfull
      · dsimp only
        have hlen : count ≤ (heldLogs canon (.sent (dataItem range) :: log)).length := by
          rw [hnew, List.length_reverse] at hfull
          exact hfull
        refine ⟨by rw [List.length_take]; omega, fun l hl l' hl' hlt => ?_⟩
        rw [hnew] at hl' ⊢
        refine mem_take_of_before hdesc ?_ hl' hlt
        rw [List.mem_reverse]
        exact hnewest hreaches hlen l hl l' (List.mem_reverse.mp (List.mem_of_mem_take hl')) hlt
      · exact hnew
  | overflowing | complete collected | returned | panicked =>
    have hsame :
        collector count logs (.sent (dataItem range) :: log) = collector count logs log := by
      unfold collector
      rw [after_sent, process_eq_self]
      simp [hphase]
    refine ⟨fun collected' ancestor hcollecting => ?_, fun hS hR => ?_⟩
    · rw [hsame, hphase] at hcollecting
      cases hcollecting
    · have hold := h.gathered (hS.of_not id).2 (hR.of_not id).2
      rw [hsame]
      simp only [Gathered, hphase] at hold ⊢
      try exact hold

/-- A reorg: what was fetched from the blocks behind the ancestor is withdrawn, and if the chain
settles now, the rest is canonical. -/
lemma Tracks.reorg {a : ℕ} (h : Tracks count requested canon logs log)
    (hcanon : FetchedFrom whole canon) (hlogs : ∀ i r, FetchedFrom r (logs i r))
    (hnew : ∀ collected ancestor,
      (collector count logs log).phase = .collecting collected ancestor → Newest collected) :
    Tracks count requested canon logs (.sent (reorgItem a) :: log) := by
  cases hphase : (collector count logs log).phase with
  | collecting collected ancestor =>
    have hphase' : (collector count logs (.sent (reorgItem a) :: log)).phase =
        .collecting (collected.filter fun l => l.number ≤ a) (some a) := by
      unfold collector
      rw [after_sent]
      exact phase_process_reorg hphase (hnew collected ancestor hphase) a
    have hmem : ∀ l, l ∈ collected.filter (fun l => l.number ≤ a) ↔
        l ∈ fetchedLogs logs (.sent (reorgItem a) :: log) := by
      intro l
      simp only [fetchedLogs, List.mem_filter, h.mem_iff _ _ hphase l]
    refine ⟨fun collected' ancestor' hcollecting l => ?_, fun hS _ => ?_⟩
    · rw [hphase'] at hcollecting
      simp only [CollectingPhase.collecting.injEq] at hcollecting
      obtain ⟨rfl, -⟩ := hcollecting
      exact hmem l
    · obtain ⟨-, hsound, hcomplete⟩ := hS.resolve_right fun hno => hno.1
      simp only [Gathered, hphase']
      rw [← List.reverse_inj, List.reverse_reverse]
      refine eq_of_ascending ?_ (hcanon.ascending.sublist List.filter_sublist) fun l => ?_
      · exact List.pairwise_reverse.mpr
          ((hnew collected ancestor hphase).descending.sublist List.filter_sublist)
      · rw [List.mem_reverse, hmem, mem_heldLogs]
        simp only [fetchedLogs, List.mem_filter, Held, decide_eq_true_eq]
        constructor
        · rintro ⟨hl, ha⟩
          exact ⟨hsound l hl ha, ha, held_of_mem_fetchedLogs hlogs hl⟩
        · rintro ⟨hl, ha, hheld⟩
          exact ⟨hcomplete l (mem_heldLogs.mpr ⟨hl, hheld⟩) ha, ha⟩
  | overflowing | complete collected | returned | panicked =>
    have hsame : collector count logs (.sent (reorgItem a) :: log) = collector count logs log := by
      unfold collector
      rw [after_sent, process_eq_self]
      simp [hphase]
    refine ⟨fun collected' ancestor hcollecting => ?_, fun hS _ => ?_⟩
    · rw [hsame, hphase] at hcollecting
      cases hcollecting
    · obtain ⟨hcollecting, -⟩ := hS.resolve_right fun hno => hno.1
      simp [isCollecting, hphase] at hcollecting

/-! ### The blocks that have been sent -/

section Rewind

variable [ReorgHandler Hash R] {maxBlockRange : MaxBlockRange} {checkReorg : Bool}
  {tipNumber toBlock : ℕ} {s u : RewindState Hash R}

/-- The blocks from `reached` up to the tip have been sent, and if the rewind goes on, no others
have. -/
def Reached (tipNumber reached : ℕ) (goesOn : Prop) (log : Log Hash) : Prop :=
  (∀ n, reached ≤ n → n ≤ tipNumber → Held log n) ∧ (goesOn → ∀ n, Held log n → reached ≤ n)

/-- The blocks behind the ancestor `a` are sent again, up to `next` (exclusively) so far: none
beyond, and the others as before the reorg. -/
structure Rescanned (tipNumber a next reached : ℕ) (goesOn : Prop) (log : Log Hash) : Prop where
  /-- Everything below `next` has been sent. -/
  cover : ∀ n, reached ≤ n → n < next → n ≤ tipNumber → Held log n
  /-- Nothing beyond has been sent. -/
  below : ∀ n, Held log n → n < next
  /-- If the rewind goes on, no block below `reached` has been sent. -/
  above : goesOn → reached ≤ a + 1 ∧ ∀ n, Held log n → reached ≤ n
  /-- The last reorg went back to `a`. -/
  last : lastReorg log = some a

variable (tipNumber) in
/-- Which blocks have been sent in each phase of the rewind. -/
def Spanning (s : RewindState Hash R) : Prop :=
  match s.phase with
  | .rewinding reached ranges | .checking reached ranges =>
    Reached tipNumber reached (ranges ≠ []) s.log
  | .refetching a reached ranges => Rescanned tipNumber a (a + 1) reached (ranges ≠ []) s.log
  | .rescanning a next _ reached ranges =>
    a < next ∧ Rescanned tipNumber a next reached (ranges ≠ []) s.log
  | .stopped => True

omit [ReorgHandler Hash R] in
/-- Silent events send no blocks. -/
lemma Reached.append {reached : ℕ} {goesOn : Prop} {X : Log Hash}
    (h : Reached tipNumber reached goesOn log) (hX : SilentLog X) :
    Reached tipNumber reached goesOn (X ++ log) :=
  ⟨fun n hn hle => (held_append hX n).mpr (h.1 n hn hle),
    fun hgo n hn => h.2 hgo n ((held_append hX n).mp hn)⟩

/-- **One step keeps the blocks sent together.** -/
lemma spanning_step (hst : RewindStep maxBlockRange checkReorg s u)
    (hA : Always (RescansAdjoin toBlock) u.log) (hcut : s.Cutting maxBlockRange tipNumber toBlock)
    {getLogs : GetLogs D} (horder : Orderly count (fun _ => true) getLogs s)
    (hI : Spanning tipNumber s) : Spanning tipNumber u := by
  cases hst with
  | @send range reached ranges _ _ log =>
    obtain ⟨hstop, hle, -⟩ := hcut.2.next
    obtain ⟨hcover, hlow⟩ : Reached tipNumber reached (range :: ranges ≠ []) log := hI
    refine ⟨fun n hn hT => ?_, fun _ n hn => ?_⟩
    · by_cases hnr : n ≤ range.stop
      · exact Or.inl ⟨hn, hnr⟩
      · exact Or.inr (hcover n (by omega) hT)
    · rcases hn with hn | hn
      · exact hn.1
      · have := hlow (by simp) n hn
        omega
  | skip => exact hI
  | @clean _ _ tip _ _ _ reqs _ hcheck hreqs =>
    have hsilent : SilentLog (.checked tip none :: reqs) := by
      simp [silentLog_of_isRequest hreqs]
    exact Reached.append (X := .checked tip none :: reqs) hI hsilent
  | @reorg reached ranges tip a _ _ log reqs _ hcheck hreqs =>
    obtain ⟨-, r, hr, hstart⟩ := horder
    have hsilent : SilentLog (.checked tip (some a) :: reqs) := by
      simp [silentLog_of_isRequest hreqs]
    have hadjoin : ranges ≠ [] → reached ≤ a.number + 1 := by
      have hr' : (sentRanges (.checked tip (some a) :: (reqs ++ log))).head? = some r :=
        (congrArg List.head? (sentRanges_of_silent (silentLog_of_isRequest hreqs) _)).trans hr
      exact hcut.2.reached_le hA.1 hr' hstart
    obtain ⟨hcover, hlow⟩ := Reached.append (X := .checked tip (some a) :: reqs)
      hI hsilent
    exact ⟨fun n hn hna hT => ⟨Nat.le_of_lt_succ hna, hcover n hn hT⟩,
      fun n hn => Nat.lt_succ_of_le hn.1, fun hgo => ⟨hadjoin hgo, fun n hn => hlow hgo n hn.2⟩,
      rfl⟩
  | @refetch a reached ranges _ _ _ log hnum =>
    have hI : Rescanned tipNumber a (a + 1) reached (ranges ≠ []) log := hI
    exact ⟨Nat.lt_succ_self a, hI.cover, hI.below, hI.above, hI.last⟩
  | @rescan range a next reached rescan ranges _ _ log =>
    obtain ⟨-, -, ha, hle, hr, -⟩ := hcut
    obtain ⟨-, hI⟩ : a < next ∧ Rescanned tipNumber a next reached (ranges ≠ []) log := hI
    have hstart : range.start = next := by rw [hr]
    have hstop : next ≤ range.stop := by
      rw [hr]
      dsimp only
      omega
    refine ⟨by omega, fun n hn hlt hT => ?_, fun n hn => ?_, fun hgo => ?_, hI.last⟩
    · by_cases hnr : n < next
      · exact Or.inr (hI.cover n hn hnr hT)
      · exact Or.inl ⟨by omega, by omega⟩
    · rcases hn with hn | hn
      · exact Nat.lt_succ_of_le hn.2
      · have := hI.below n hn
        omega
    · obtain ⟨hadjoin, hlow⟩ := hI.above hgo
      refine ⟨hadjoin, fun n hn => ?_⟩
      rcases hn with hn | hn
      · have := hn.1
        omega
      · exact hlow n hn
  | @rescanned a next reached ranges _ _ log =>
    obtain ⟨-, -, ha, hend⟩ := hcut
    obtain ⟨-, hI⟩ : a < next ∧ Rescanned tipNumber a next reached (ranges ≠ []) log := hI
    have hend : tipNumber < next := hend
    exact ⟨fun n hn hT => hI.cover n hn (by omega) hT, fun hgo => (hI.above hgo).2⟩
  | stop => trivial

/-! ### Following a run of the rewind -/

/-- A range of the rewind. Everything newer than a log of the blocks sent has been sent. -/
lemma tracks_send {reached : ℕ} {goesOn : Prop} (hgoesOn : goesOn)
    (h : Tracks count requested canon logs log) (hlogs : ∀ i r, FetchedFrom r (logs i r))
    (hcanon : FetchedFrom whole canon)
    (horder : InOrder count (AtLeast reached) (collector count logs log))
    (hstop : range.stop + 1 = reached) (hle : range.start ≤ range.stop)
    (hspan : Reached requested.stop reached goesOn log) :
    Tracks count requested canon logs (.sent (dataItem range) :: log) := by
  obtain ⟨hcover, hlow⟩ := hspan
  have hlow := hlow hgoesOn
  refine h.sent hcanon (fun collected ancestor hphase => ?_) fun _ _ l hl l' hl' hlt => ?_
  · -- below everything in the buffer
    obtain ⟨hlen, -, -, hanc⟩ := horder.collecting hphase
    obtain ⟨ancestor', -, hphase'⟩ := phase_process_append (fun _ => true) hphase hlen
      (hlogs (messages log).length range) fun a ha => by
        have := hanc a ha
        omega
    refine ⟨collected ++ (logs (messages log).length range).reverse, ancestor', ?_, ?_, ?_⟩
    · unfold collector
      rw [after_sent]
      exact hphase'
    · intro l
      rw [List.mem_append, List.mem_reverse, or_comm]
    · intro hsettled hold
      rw [hsettled, hold, ← List.reverse_append, heldLogs_sent_below hcanon]
      intro n hn
      have := hlow n hn
      omega
  · obtain ⟨hl, -, htop⟩ := mem_logsIn.mp hl
    have hreach : range.start ≤ l'.number := by
      rcases (mem_heldLogs.mp hl').2 with hn | hn
      · exact hn.1
      · have := hlow _ hn
        omega
    have hnewer := hlt.number_le
    refine mem_heldLogs.mpr ⟨hl, ?_⟩
    by_cases hn : l.number ≤ range.stop
    · exact Or.inl ⟨by omega, hn⟩
    · exact Or.inr (hcover _ (by omega) htop)

/-- A range of a rescan. By the condition everything newer than a log of the blocks sent has been
sent when the buffer becomes complete. -/
lemma tracks_rescan {a next reached : ℕ} {goesOn : Prop}
    (h : Tracks count requested canon logs log) (hlogs : ∀ i r, FetchedFrom r (logs i r))
    (hcanon : FetchedFrom whole canon)
    (horder : InOrder count (Within reached a next goesOn) (collector count logs log))
    (ha : a < next) (hstart : range.start = next)
    (hspan : Rescanned requested.stop a next reached goesOn log)
    (hend : ¬goesOn → reached ≤ requested.start) :
    Tracks count requested canon logs (.sent (dataItem range) :: log) := by
  refine h.sent hcanon (fun collected ancestor hphase => ?_)
    fun hreaches hfull l hl l' hl' hlt => ?_
  · -- above everything in the buffer
    obtain ⟨hlen, -, -, rfl, -⟩ := horder.collecting hphase
    refine ⟨(logs (messages log).length range).reverse ++ collected, some a, ?_, ?_, ?_⟩
    · unfold collector
      rw [after_sent]
      exact phase_process_prepend hphase hlen (hlogs _ range) (by omega)
    · intro l
      rw [List.mem_append, List.mem_reverse]
    · intro hsettled hold
      rw [hsettled, hold, ← List.reverse_append, heldLogs_sent_above hcanon]
      intro n hn
      have := hspan.below n hn
      omega
  · have hmax : l.number ≤ range.stop := by
      refine hreaches (fun a' ha' => ?_) hfull l hl
      rw [hspan.last] at ha'
      cases ha'
      omega
    obtain ⟨hl, hlow, htop⟩ := mem_logsIn.mp hl
    have hle := hlt.number_le
    have hreach : reached ≤ l.number := by
      by_cases hgo : goesOn
      · obtain ⟨hadjoin, habove⟩ := hspan.above hgo
        rcases (mem_heldLogs.mp hl').2 with hn | hn
        · have := hn.1
          omega
        · have := habove _ hn
          omega
      · exact (hend hgo).trans hlow
    refine mem_heldLogs.mpr ⟨hl, ?_⟩
    by_cases hn : l.number < next
    · exact Or.inr (hspan.cover _ hreach hn htop)
    · exact Or.inl ⟨by omega, hmax⟩

/-- **The task follows a step** of the rewind that does not end it early. -/
lemma tracks_step (hst : RewindStep maxBlockRange checkReorg s u)
    (hlogs : ∀ i r, FetchedFrom r (logs i r)) (hcanon : FetchedFrom whole canon)
    (hcut : s.Cutting maxBlockRange requested.stop requested.start)
    (horder : Orderly count (fun _ => true) (fun i r => .ok (logs i r)) s)
    (hspan : Spanning requested.stop s) (hI : Tracks count requested canon logs s.log)
    (hrunning : u.phase ≠ .stopped) : Tracks count requested canon logs u.log := by
  cases hst with
  | send =>
    obtain ⟨hstop, hle, -⟩ := hcut.2.next
    refine tracks_send (List.cons_ne_nil _ _) hI hlogs hcanon ?_ hstop hle hspan
    exact InOrder.mono horder fun _ _ h => h (List.cons_ne_nil _ _)
  | skip | rescanned => exact hI
  | clean _ _ hreqs => exact hI.check hreqs
  | @reorg _ _ tip a _ _ _ reqs _ _ hreqs =>
    have hsilent : SilentLog (.checked tip (some a) :: reqs) := by
      simp [silentLog_of_isRequest hreqs]
    have horder := horder.1.append hsilent
    exact Tracks.reorg (hI.check hreqs) hcanon hlogs
      fun collected ancestor hphase => (horder.collecting hphase).2.1
  | @refetch _ _ _ tip =>
    exact hI.append (X := [.request (.blockByNumber (.number tip.number))]) (by simp)
  | @rescan _ _ _ _ _ ranges =>
    obtain ⟨-, hleft, ha, -, hr, -⟩ := hcut
    refine tracks_rescan hI hlogs hcanon horder ha (by rw [hr]) hspan.2 fun hgo => ?_
    rw [not_not.mp hgo] at hleft
    exact hleft.le
  | stop => exact absurd rfl hrunning

variable (count requested canon logs maxBlockRange) in
/-- The state of the rewind and the task that follows it, until the rewind ends early. -/
structure Follows (s : RewindState Hash R) : Prop where
  /-- The ranges left are the cut of the blocks left. -/
  cutting : s.Cutting maxBlockRange requested.stop requested.start
  /-- The buffer is in order. -/
  orderly : Orderly count (fun _ => true) (fun i r => .ok (logs i r)) s
  /-- The blocks sent adjoin. -/
  spanning : Spanning requested.stop s
  /-- The buffer has the logs of the blocks sent. -/
  tracks : s.phase ≠ .stopped → Tracks count requested canon logs s.log

/-- Every step keeps the task following. -/
lemma Follows.step (h : Follows count requested canon logs maxBlockRange s)
    (hst : RewindStep maxBlockRange checkReorg s u) (hlogs : ∀ i r, FetchedFrom r (logs i r))
    (hcanon : FetchedFrom whole canon) (hadjoin : Always (RescansAdjoin requested.start) u.log) :
    Follows count requested canon logs maxBlockRange u where
  cutting := hst.cutting h.cutting
  orderly := by
    refine orderly_step hst (fun i r logs' heq => ?_) hadjoin h.cutting h.orderly
    cases heq
    exact hlogs i r
  spanning := spanning_step hst hadjoin h.cutting h.orderly h.spanning
  tracks hrunning := by
    have hs : s.phase ≠ .stopped := by
      cases hst with
      | stop => exact absurd rfl hrunning
      | send | skip | clean | reorg | refetch | rescan | rescanned => simp
    exact tracks_step hst hlogs hcanon h.cutting h.orderly h.spanning (h.tracks hs) hrunning

omit [ReorgHandler Hash R] in
/-- Before the first range the buffer is empty, and no block has been sent. -/
lemma follows_start (hcount : 1 ≤ count) (tip toBlock : Block Hash) (h : R) :
    Follows count ⟨toBlock.number, tip.number⟩ canon logs maxBlockRange
      (RewindState.start tip toBlock maxBlockRange h
        [.request (.blockNumberById (.number .finalized))]) where
  cutting := RewindState.cutting_start tip toBlock h _
  orderly := inOrder_new hcount fun _ => ⟨by simp, by simp⟩
  spanning := ⟨fun n hn hT => by dsimp only at hT; omega, fun _ _ hn => absurd hn id⟩
  tracks _ := by
    have hnil : Tracks count ⟨toBlock.number, tip.number⟩ canon logs ([] : Log Hash) := by
      refine ⟨fun collected ancestor hphase l => ?_, fun hS _ => absurd hS id⟩
      obtain ⟨rfl, rfl⟩ := eq_of_phase_new hphase
      exact Iff.rfl
    exact hnil.append (X := [.request (.blockNumberById (.number .finalized))]) (by simp)

end Rewind

/-! ### What is delivered -/

/-- A task that has sent no logs. -/
lemma Collects.deliveredLogs_eq {t : CollectingTask D} (h : t.Collects) :
    deliveredLogs t.sent = [] := by
  refine List.flatMap_eq_nil_iff.mpr fun item hitem => ?_
  match item with
  | .ok (.data _) => exact absurd hitem (h _)
  | .ok (.notification _) | .error _ => rfl

/-- The logs that a listener that stays receives are those in the buffer, oldest first. -/
lemma deliveredLogs_delivered {getLogs : GetLogs D} {collected : List (RpcLog D)}
    (h : (∃ a, (after count (fun _ => true) getLogs log).phase = .collecting collected a) ∨
      (after count (fun _ => true) getLogs log).phase = .complete collected) :
    deliveredLogs (delivered count (fun _ => true) getLogs log) = collected.reverse := by
  have hnone := (collects_after count (fun _ => true) getLogs log).deliveredLogs_eq
  have hdeliver : deliveredLogs
      ((after count (fun _ => true) getLogs log).deliver (fun _ => true) collected).sent =
        collected.reverse := by
    unfold deliver CollectingTask.trySend
    cases collected with
    | nil => exact hnone
    | cons l collected =>
      calc _ = (l :: collected).reverse ++
              deliveredLogs (after count (fun _ => true) getLogs log).sent := rfl
        _ = (l :: collected).reverse := by rw [hnone, List.append_nil]
  unfold delivered finish
  rcases h with ⟨a, hphase⟩ | hphase <;> simpa only [hphase] using hdeliver

/-- A task that has gathered the logs of all requested blocks delivers the newest ones. -/
lemma Gathered.deliversNewest (h : Gathered count requested canon log (collector count logs log))
    (hcover : ∀ n, requested.Contains n → Held log n) :
    DeliversNewest count requested canon (deliveredLogs
      (delivered count (fun _ => true) (fun i r => .ok (logs i r)) log)) := by
  cases hphase : (collector count logs log).phase with
  | collecting collected ancestor =>
    simp only [Gathered, hphase] at h
    rw [deliveredLogs_delivered (Or.inl ⟨ancestor, hphase⟩), h, List.reverse_reverse]
    have hall : ∀ l ∈ logsIn canon requested, l ∈ heldLogs canon log := fun l hl =>
      mem_heldLogs.mpr ⟨(mem_logsIn.mp hl).1, hcover _ (mem_logsIn.mp hl).2⟩
    exact ⟨fun l hl _ _ _ => hall l hl, fun _ => hall⟩
  | complete collected =>
    simp only [Gathered, hphase] at h
    obtain ⟨hfull, hnewest⟩ := h
    rw [deliveredLogs_delivered (Or.inr hphase)]
    refine ⟨fun l hl l' hl' hlt => ?_, fun hlt => ?_⟩
    · rw [List.mem_reverse] at hl' ⊢
      exact hnewest l hl l' hl' hlt
    · rw [List.length_reverse] at hlt
      omega
  | overflowing | returned | panicked => simp [Gathered, hphase] at h

/-- **The newest logs are delivered** in every complete run of the rewind with a reorg that meets
the conditions: every reorg goes back to the block before the range behind which it is found at
most, or is found behind the last range; the chain settles at the last reorg, which finds the
task collecting, with the canonical logs from the blocks up to the ancestor; and no range of the
last rescan brings the canonical logs of the blocks sent to `count` with newer ones to come.

**Proof sketch.** Along the run, the blocks sent are those from the block reached by the rewind up
to the tip, and the buffer has what was fetched from them. From the last reorg on this is what is
canonical there; the first condition keeps the ranges at the ends of the blocks sent, and the
last one makes a buffer that becomes complete have the newest logs. -/
theorem delivered_newest [ReorgHandler Hash R] (count : ℕ) (hcount : 1 ≤ count)
    (tip toBlock : Block Hash) (maxBlockRange : MaxBlockRange) (provider : RobustProvider Hash)
    (reorgHandler : R) (logs : ℕ → RangeInclusive → List (RpcLog D))
    (hlogs : ∀ i r, FetchedFrom r (logs i r)) (whole : RangeInclusive) (canon : List (RpcLog D))
    (hcanon : FetchedFrom whole canon) (log : Log Hash)
    (hrun : ((handleStreamRewind tip toBlock maxBlockRange ⟨none⟩ provider reorgHandler).run []).2 =
      log)
    (hcomplete : ∀ item ∈ messages log, item.isOk = true)
    (hadjoin : Always (RescansAdjoin toBlock.number) log)
    (hsettled : Since (Settled logs canon) (Consumed count logs canon) log)
    (hreaches : Since
      (RescanReachesNewest count ⟨toBlock.number, tip.number⟩ canon) IsReorg log) :
    DeliversNewest count ⟨toBlock.number, tip.number⟩ canon (deliveredLogs
      (delivered count (fun _ => true) (fun i r => .ok (logs i r)) log)) := by
  obtain ⟨checkReorg, u, hu, hlog, hend⟩ := handleStreamRewind_reach maxBlockRange ⟨none⟩ tip
    toBlock provider reorgHandler []
  rw [hrun] at hlog hend
  obtain ⟨reached, hphase⟩ : ∃ reached, u.phase = .rewinding reached [] := by
    rcases hend with hend | hclosed | ⟨e, he⟩
    · exact hend
    · exact absurd hclosed (by simp [Sender.isOpen])
    · exact absurd (hcomplete _ (mem_messages.mpr he)) Bool.false_ne_true
  have hI : Follows count ⟨toBlock.number, tip.number⟩ canon logs maxBlockRange u :=
    LoggedSystem.invariant (fun s t hst hadjoin hI => hI.step hst hlogs hcanon hadjoin) hu
      (follows_start hcount tip toBlock reorgHandler) (by rwa [rewindSystem_log, hlog])
  have htracks := hI.tracks (by simp [hphase])
  have hcut := hI.cutting
  have hspan := hI.spanning
  simp only [RewindState.Cutting, Spanning, hphase] at hcut hspan
  rw [hlog] at htracks hspan
  refine (htracks.gathered hsettled hreaches).deliversNewest fun n hn => ?_
  exact hspan.1 n (hcut.2.le.trans hn.1) hn.2

/-! ### A rescan that is cut short -/

section Decidable

variable [DecidableEq D] (count : ℕ) (requested : RangeInclusive) (canon : List (RpcLog D))
  (logs : ℕ → RangeInclusive → List (RpcLog D))

instance : ∀ (e : Event Hash) (past : Log Hash), Decidable (Settled logs canon e past)
  | .sent (.ok (.data r)), past =>
    inferInstanceAs (Decidable (logs (messages past).length r = logsIn canon r))
  | .sent (.ok (.notification (.reorgDetected _))), _ => .isFalse id
  | .sent (.ok (.notification .switchingToLive)), _
  | .sent (.ok (.notification .noPastLogsFound)), _ | .sent (.error _), _ | .request _, _
  | .received _, _ | .checked _ _, _ => .isTrue trivial

instance : ∀ (e : Event Hash) (past : Log Hash), Decidable (Consumed count logs canon e past)
  | .sent (.ok (.notification (.reorgDetected a))), past =>
    inferInstanceAs (Decidable ((collector count logs past).isCollecting = true ∧
      (∀ l ∈ fetchedLogs logs past, l.number ≤ a → l ∈ canon) ∧
      ∀ l ∈ heldLogs canon past, l.number ≤ a → l ∈ fetchedLogs logs past))
  | .sent (.ok (.data _)), _ | .sent (.ok (.notification .switchingToLive)), _
  | .sent (.ok (.notification .noPastLogsFound)), _ | .sent (.error _), _ | .request _, _
  | .received _, _ | .checked _ _, _ => .isFalse id

instance : ∀ (e : Event Hash) (past : Log Hash),
    Decidable (RescanReachesNewest count requested canon e past)
  | .sent (.ok (.data r)), past =>
    inferInstanceAs (Decidable ((∀ a ∈ lastReorg past, a < r.start) →
      count ≤ (heldLogs canon (.sent (dataItem r) :: past)).length →
      ∀ l ∈ logsIn canon requested, l.number ≤ r.stop))
  | .sent (.ok (.notification _)), _ | .sent (.error _), _ | .request _, _
  | .received _, _ | .checked _ _, _ => .isTrue trivial

instance : ∀ (e : Event Hash) (past : Log Hash), Decidable (IsReorg e past)
  | .sent (.ok (.notification (.reorgDetected _))), _ => .isTrue trivial
  | .sent (.ok (.data _)), _ | .sent (.ok (.notification .switchingToLive)), _
  | .sent (.ok (.notification .noPastLogsFound)), _ | .sent (.error _), _ | .request _, _
  | .received _, _ | .checked _ _, _ => .isFalse id

end Decidable

/-- The blocks from `1` on are replaced behind the first check, and found so behind `1..=2`. -/
def replacedBehindCheck : RobustProvider ℕ :=
  .healthy (switchAt 2 (.ofHashes 0 [1, 2, 3, 4] 0) (.ofHashes 0 [11, 12, 13, 14] 0))

/-- The new chain has a log in block `1` and one in block `4`. -/
def newLogs : List (RpcLog Unit) := [⟨some 1, some 0, ()⟩, ⟨some 4, some 0, ()⟩]

/-- The old chain, to which the first two ranges belong, has no logs. -/
def replacedLogs (i : ℕ) (range : RangeInclusive) : List (RpcLog Unit) :=
  if i < 2 then [] else logsIn newLogs range

lemma fetchedFrom_newLogs : FetchedFrom ⟨1, 4⟩ newLogs := ⟨by decide, by decide⟩

lemma fetchedFrom_replacedLogs (i : ℕ) (range : RangeInclusive) :
    FetchedFrom range (replacedLogs i range) := by
  unfold replacedLogs
  split_ifs
  · exact ⟨by simp, List.Pairwise.nil⟩
  · exact ⟨fun l hl => ⟨(fetchedFrom_newLogs.mined l (mem_logsIn.mp hl).1).1, (mem_logsIn.mp hl).2⟩,
      fetchedFrom_newLogs.ascending.sublist List.filter_sublist⟩

/-- Two logs are asked for: the rescan brings one with `1..=2` and the other one with `3..=4`. -/
theorem delivered_newest_replacedBehindCheck :
    DeliversNewest 2 ⟨1, 4⟩ newLogs (deliveredLogs (delivered 2 (fun _ => true)
      (fun i r => .ok (replacedLogs i r)) (rewindLog replacedBehindCheck))) :=
  delivered_newest 2 (by decide) ⟨4, 4⟩ ⟨1, 1⟩ ⟨2, by decide⟩ replacedBehindCheck
    (DefaultReorgHandler.new replacedBehindCheck .infinite) replacedLogs fetchedFrom_replacedLogs
    ⟨1, 4⟩ newLogs fetchedFrom_newLogs (rewindLog replacedBehindCheck) rfl
    (by decide) (by decide) (by decide) (by decide)

/-- One log is asked for: the rescan brings that of block `1` first, and the task stops with it. -/
theorem not_newest_stopsInRescan :
    FinalityKept replacedBehindCheck.view ∧
      (∀ item ∈ messages (rewindLog replacedBehindCheck), item.isOk = true) ∧
      Always (RescansAdjoin 1) (rewindLog replacedBehindCheck) ∧
      Since (Settled replacedLogs newLogs) (Consumed 1 replacedLogs newLogs)
        (rewindLog replacedBehindCheck) ∧
      ¬DeliversNewest 1 ⟨1, 4⟩ newLogs (deliveredLogs (delivered 1 (fun _ => true)
        (fun i r => .ok (replacedLogs i r)) (rewindLog replacedBehindCheck))) := by
  refine ⟨finalityKept_switchAt (by decide), by decide, by decide, by decide, fun h => ?_⟩
  have hnewest := h.newest ⟨some 4, some 0, ()⟩ (by decide) ⟨some 1, some 0, ()⟩ (by decide)
    (by decide)
  exact absurd hnewest (by decide)

end CollectingTask

end EventScanner
