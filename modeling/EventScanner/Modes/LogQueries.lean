import EventScanner.EventFilter
import EventScanner.LatestEventsHandler.MatchingLogs

set_option relaxedAutoImplicit false
set_option autoImplicit false

/-!
# The log queries of a subscription

`get_logs` in `block_range_handler.rs`: the filter of a listener is converted, narrowed to a range
and sent to the node. A node that answers from the logs of a chain returns the logs of the range
that the builder calls of the filter ask for.

## Main definitions

* `EventScanner.LogQuery`, `EventScanner.getLogs` — the query for a range.
* `EventScanner.MatchingLogs.answer` — the answer from the logs of a chain.
* `EventScanner.MatchingLogs.asked` — the logs that builder calls ask for.

## Main results

* `EventScanner.getLogs_eq_asked` — a query returns the logs of the range that were asked for.
-/

namespace EventScanner

variable {D : Type}

/-- A filter with the ends of a range, as it is sent to the node. -/
structure LogQuery where
  /-- The filter. -/
  filter : Filter
  /-- The first block. -/
  fromBlock : ℕ
  /-- The last block. -/
  toBlock : ℕ

/-- `provider.get_logs`: the answer to the `k`-th log query. -/
abbrev QueryLogs := ℕ → LogQuery → Except RobustProviderError (List (RpcLog PrimitiveLog))

/-- `get_logs`. -/
def getLogs (keccak256 : String → B256) (queryLogs : QueryLogs) (eventFilter : EventFilter) :
    GetLogs PrimitiveLog :=
  fun k range => queryLogs k
    ⟨Filter.ofEventFilterRef keccak256 eventFilter, range.start, range.stop⟩

instance {α : Type} [DecidableEq α] (s : FilterSet α) (value : Option α) :
    Decidable (s.Accepts value) :=
  inferInstanceAs (Decidable (_ ∨ _))

instance (filter : Filter) (log : PrimitiveLog) : Decidable (filter.Accepts log) :=
  inferInstanceAs (Decidable (_ ∧ _))

namespace MatchingLogs

variable (chain : MatchingLogs D)

/-- Those of the logs whose content is as required. -/
def restrict (p : D → Prop) [DecidablePred p] : MatchingLogs D where
  logs := chain.logs.filter fun l => p l.inner
  mined l hl := chain.mined l (List.mem_of_mem_filter hl)
  ascending := chain.ascending.filter _

/-- Requirements that are met alike leave the same logs. -/
lemma restrict_congr {p q : D → Prop} [DecidablePred p] [DecidablePred q]
    (h : ∀ content, p content ↔ q content) : chain.restrict p = chain.restrict q := by
  have hlogs : (fun l : RpcLog D => decide (p l.inner)) = fun l => decide (q l.inner) := by
    funext l
    exact decide_eq_decide.mpr (h l.inner)
  unfold restrict
  congr 1
  rw [hlogs]

/-- The answer to a query from the logs of a chain. -/
def answer (chain : MatchingLogs PrimitiveLog) (query : LogQuery) : List (RpcLog PrimitiveLog) :=
  (chain.restrict query.filter.Accepts).within query.fromBlock query.toBlock

/-- The logs of a chain that builder calls ask for. -/
noncomputable def asked (keccak256 : String → B256) (chain : MatchingLogs PrimitiveLog)
    (calls : List FilterCall) : MatchingLogs PrimitiveLog :=
  haveI := Classical.decPred (Meaning keccak256 calls)
  chain.restrict (Meaning keccak256 calls)

/-- A built filter leaves the logs that its calls ask for. -/
lemma restrict_accepts_build {keccak256 : String → B256} {calls : List FilterCall}
    (hnames : KeepsEmptyName calls → GivenTopic keccak256 calls (keccak256 ""))
    (chain : MatchingLogs PrimitiveLog) :
    chain.restrict (Filter.ofEventFilterRef keccak256 (EventFilter.build calls)).Accepts =
      chain.asked keccak256 calls := by
  unfold asked
  refine @restrict_congr _ chain _ _ _ (Classical.decPred _) fun log => ?_
  rw [ofEventFilterRef_eq]
  exact accepts_iff_meaning.mpr hnames log

end MatchingLogs

/-- The queries about blocks below the height `e` are answered from the logs of a chain. -/
def AnsweredFrom (queryLogs : QueryLogs) (chain : MatchingLogs PrimitiveLog) (e : ℕ) : Prop :=
  ∀ k query, query.toBlock < e → queryLogs k query = .ok (chain.answer query)

/-- A query about a range that a chain answers for. -/
lemma getLogs_eq_restrict {queryLogs : QueryLogs} {chain : MatchingLogs PrimitiveLog} {e : ℕ}
    (hanswers : AnsweredFrom queryLogs chain e) {range : RangeInclusive}
    (hrange : range.stop < e) (keccak256 : String → B256) (eventFilter : EventFilter) (k : ℕ) :
    getLogs keccak256 queryLogs eventFilter k range =
      .ok ((chain.restrict (Filter.ofEventFilterRef keccak256 eventFilter).Accepts).within
        range.start range.stop) :=
  hanswers k _ hrange

/-- **A query returns what was asked for**: the logs of the range that the builder calls of the
filter ask for, if no empty event name was kept, or its hash was asked for anyway. -/
theorem getLogs_eq_asked {queryLogs : QueryLogs} {chain : MatchingLogs PrimitiveLog} {e : ℕ}
    (hanswers : AnsweredFrom queryLogs chain e) {range : RangeInclusive}
    (hrange : range.stop < e) {keccak256 : String → B256} {calls : List FilterCall}
    (hnames : KeepsEmptyName calls → GivenTopic keccak256 calls (keccak256 "")) (k : ℕ) :
    getLogs keccak256 queryLogs (EventFilter.build calls) k range =
      .ok ((chain.asked keccak256 calls).within range.start range.stop) := by
  rw [getLogs_eq_restrict hanswers hrange, MatchingLogs.restrict_accepts_build hnames]

/-- A filter for an address keeps no empty name. -/
lemma not_keepsEmptyName_contractAddress (address : Address) :
    ¬KeepsEmptyName [.contractAddress address] := by
  rintro ⟨events, hevents, -⟩
  simp at hevents

end EventScanner
