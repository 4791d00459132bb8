import EventScanner.Modes.LogQueries
import EventScanner.Modes.Scanner
import EventScanner.StreamHandler.Delivery

set_option relaxedAutoImplicit false
set_option autoImplicit false

/-!
# What the listeners of a scanner receive

A scanner gives its stream to a stream handler, which queries the logs of every range for the filter
of each listener. If the node answers from the logs of a chain, each listener receives the logs that
the builder calls of its filter ask for.

## Main definitions

* `EventScanner.Scanner.Serves` — the listeners receive what they ask for.

## Main results

* `EventScanner.Scanner.serves` — a stream serves the listeners.
-/

namespace EventScanner

namespace Scanner

variable {Mode Hash : Type} {fetches : Mode → ℕ} (self : Scanner Mode Hash fetches)

/-- Let the queries about blocks below `e` be answered from the logs of a chain. In every
interleaving the listeners do not disturb each other, and what a listener whose filter keeps no
empty name receives of the items delivers, as required, the logs that the builder calls of its
filter ask for. -/
def Serves (items : List BlockScannerResult) (e : ℕ)
    (Delivers : MatchingLogs PrimitiveLog → List (EventScannerResult PrimitiveLog) → Prop) : Prop :=
  ∀ keccak256 queryLogs chain mayDrop, AnsweredFrom queryLogs chain e →
    let setup := self.streamHandler (getLogs keccak256 queryLogs) items mayDrop
    setup.Harmless → setup.Isolates ∧
      ∀ i calls, self.listeners.get i = EventFilter.build calls →
        (KeepsEmptyName calls → GivenTopic keccak256 calls (keccak256 "")) →
        Delivers (chain.asked keccak256 calls) (setup.expected i)

/-- **A stream serves the listeners** if its ranges lie below `e`, and deliver the logs of a
subscription whatever these are. -/
lemma serves {items : List BlockScannerResult} {e : ℕ}
    {Delivers : MatchingLogs PrimitiveLog → List (EventScannerResult PrimitiveLog) → Prop}
    (hbelow : ∀ range, dataItem range ∈ items → range.stop < e)
    (hdelivers : ∀ matching : MatchingLogs PrimitiveLog,
      Delivers matching (kept (outcomesOf matching.getLogs items))) :
    self.Serves items e Delivers := by
  intro keccak256 queryLogs chain mayDrop hanswers setup hharmless
  refine ⟨StreamHandler.isolates_of_harmless hharmless, fun i calls hcalls hnames => ?_⟩
  have hasked (j : ℕ) (range : RangeInclusive) (hrange : dataItem range ∈ items) :
      getLogs keccak256 queryLogs (self.listeners.get i) j range =
        .ok ((chain.asked keccak256 calls).within range.start range.stop) := by
    rw [hcalls]
    exact getLogs_eq_asked hanswers (hbelow range hrange) hnames j
  show Delivers _ (kept (outcomesOf (getLogs keccak256 queryLogs (self.listeners.get i)) items))
  rw [MatchingLogs.outcomesOf_eq hasked]
  exact hdelivers _

/-- Ranges that cover their blocks exactly serve the listeners with the logs of these blocks. -/
lemma serves_of_coversExactly {m start e : ℕ} {items : List BlockScannerResult}
    (hcovers : CoversExactly m start e items) :
    self.Serves items e fun matching => DeliversExactly matching start e :=
  self.serves (fun _ hrange => hcovers.stop_lt hrange) fun matching => hcovers.delivers matching

end Scanner

end EventScanner
