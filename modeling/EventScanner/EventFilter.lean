import Mathlib.Data.Finset.Lattice.Fold
import Mathlib.Data.List.Infix

set_option relaxedAutoImplicit false
set_option autoImplicit false

/-!
# Event filters

`EventFilter` (`filter.rs`): contract addresses, event names and event signature hashes collected
by builder calls, and the conversion into the filter that is sent to the node. What a filter is
meant to accept does not depend on the order and grouping of the calls that built it. The code
agrees, except that `events` keeps empty event names, which `event` drops.

## Main definitions

* `EventScanner.EventFilter`, `EventScanner.FilterCall`, `EventScanner.EventFilter.build` — the
  filter and its builder calls.
* `EventScanner.Filter.ofEventFilter`, `EventScanner.Filter.ofEventFilterRef` — the conversions.
* `EventScanner.Meaning` — what a sequence of builder calls asks for.
* `EventScanner.Rebuilt` — the same items in other calls, or in another order.
* `EventScanner.MeansTheSame` — the filter accepts what was asked for, however it was built.

## Main results

* `EventScanner.mem_allEvents_build` — the first topics that a built filter asks for.
* `EventScanner.meansTheSame_iff` — when a filter accepts what was asked for.

## Design

A `FilterSet` of `alloy` is a set of accepted values, empty for all of them, and `extend` is the
union. `keccak256` is a parameter: nothing depends on what it computes.
-/

namespace EventScanner

/-- An address of a contract. -/
abbrev Address := BitVec 160

/-- A 256-bit word, such as a hash. -/
abbrev B256 := BitVec 256

/-- A set of accepted values; the empty set accepts every value. -/
abbrev FilterSet (α : Type) := Finset α

/-- The accepted values of one topic. -/
abbrev Topic := FilterSet B256

/-- The set accepts a value, or its absence. -/
def FilterSet.Accepts {α : Type} (s : FilterSet α) (value : Option α) : Prop :=
  s = ∅ ∨ ∃ a ∈ value, a ∈ s

/-- The content of a log (`alloy::primitives::Log`), as far as filters look at it. -/
structure PrimitiveLog where
  /-- The contract. -/
  address : Address
  /-- The topics; the first one is the hash of the event's signature, if the event has one. -/
  topics : List B256

/-- The filter that is sent to the node, as far as an `EventFilter` sets it. -/
structure Filter where
  /-- The accepted contracts. -/
  addresses : FilterSet Address
  /-- The accepted first topics. -/
  topic0 : Topic

namespace Filter

/-- `Filter::new`: everything is accepted. -/
def new : Filter := ⟨∅, ∅⟩

/-- `Filter::event_signature`. -/
def eventSignature (self : Filter) (topic : Topic) : Filter := { self with topic0 := topic }

/-- `Filter::address`. -/
def address (self : Filter) (addresses : List Address) : Filter :=
  { self with addresses := addresses.toFinset }

/-- The filter accepts a log. -/
def Accepts (self : Filter) (log : PrimitiveLog) : Prop :=
  FilterSet.Accepts self.addresses (some log.address) ∧
    FilterSet.Accepts self.topic0 log.topics.head?

end Filter

/-- The filters that listeners subscribe with. -/
structure EventFilter where
  /-- The contracts to track; all of them if there are none. -/
  contractAddresses : List Address
  /-- Human-readable event signatures. -/
  events : List String
  /-- Event signature hashes. -/
  eventSignatures : Topic

/-- The builder calls of `EventFilter`. -/
inductive FilterCall
  | contractAddress (address : Address)
  | contractAddresses (addresses : List Address)
  | event (event : String)
  | events (events : List String)
  | eventSignature (eventSignature : Topic)
  | eventSignatures (eventSignatures : List Topic)

namespace EventFilter

/-- `EventFilter::new`. -/
def new : EventFilter := ⟨[], [], ∅⟩

/-- The builders of `EventFilter`, one branch each. Only `event` drops an empty name. -/
def apply (self : EventFilter) : FilterCall → EventFilter
  | .contractAddress address =>
    { self with contractAddresses := self.contractAddresses ++ [address] }
  | .contractAddresses addresses =>
    { self with contractAddresses := self.contractAddresses ++ addresses }
  | .event event =>
    if event.isEmpty then self else { self with events := self.events ++ [event] }
  | .events events => { self with events := self.events ++ events }
  | .eventSignature eventSignature =>
    { self with eventSignatures := self.eventSignatures ∪ eventSignature }
  | .eventSignatures eventSignatures =>
    { self with
      eventSignatures := eventSignatures.foldl (fun topic t => topic ∪ t) self.eventSignatures }

/-- The filter after a sequence of builder calls. -/
def build (calls : List FilterCall) : EventFilter := calls.foldl apply new

/-- `EventFilter::all_events`: all event signature hashes. -/
def allEvents (keccak256 : String → B256) (self : EventFilter) : Topic :=
  self.eventSignatures ∪ (self.events.map keccak256).toFinset

end EventFilter

/-- `From<EventFilter> for Filter`. -/
def Filter.ofEventFilter (keccak256 : String → B256) (value : EventFilter) : Filter :=
  let filter := new
  let events := value.allEvents keccak256
  let filter := if events = ∅ then filter else filter.eventSignature events
  if value.contractAddresses.isEmpty then filter else filter.address value.contractAddresses

/-- `From<&EventFilter> for Filter`; the addresses are cloned. -/
def Filter.ofEventFilterRef (keccak256 : String → B256) (value : EventFilter) : Filter :=
  let filter := new
  let events := value.allEvents keccak256
  let filter := if events = ∅ then filter else filter.eventSignature events
  if value.contractAddresses.isEmpty then filter else filter.address value.contractAddresses

/-! ### What a sequence of calls asks for -/

namespace FilterCall

/-- The addresses given by a call. -/
def addresses : FilterCall → List Address
  | .contractAddress item => [item]
  | .contractAddresses list => list
  | .event _ | .events _ | .eventSignature _ | .eventSignatures _ => []

/-- The event names given by a call. -/
def names : FilterCall → List String
  | .event item => [item]
  | .events list => list
  | .contractAddress _ | .contractAddresses _ | .eventSignature _ | .eventSignatures _ => []

/-- The sets of signature hashes given by a call. -/
def hashes : FilterCall → List Topic
  | .eventSignature item => [item]
  | .eventSignatures list => list
  | .contractAddress _ | .contractAddresses _ | .event _ | .events _ => []

/-- The items of a batch call, added one by one. -/
def items : FilterCall → List FilterCall
  | .contractAddresses list => list.map .contractAddress
  | .events list => list.map .event
  | .eventSignatures list => list.map .eventSignature
  | .contractAddress item => [.contractAddress item]
  | .event item => [.event item]
  | .eventSignature item => [.eventSignature item]

end FilterCall

/-- An address is given by one of the calls. -/
def GivenAddress (calls : List FilterCall) (address : Address) : Prop :=
  ∃ call ∈ calls, address ∈ call.addresses

/-- A nonempty event name is given by one of the calls. -/
def GivenName (calls : List FilterCall) (name : String) : Prop :=
  name ≠ "" ∧ ∃ call ∈ calls, name ∈ call.names

/-- A signature hash is given by one of the calls. -/
def GivenHash (calls : List FilterCall) (hash : B256) : Prop :=
  ∃ call ∈ calls, ∃ topic ∈ call.hashes, hash ∈ topic

/-- The topic is a given signature hash, or the hash of a given name. -/
def GivenTopic (keccak256 : String → B256) (calls : List FilterCall) (topic : B256) : Prop :=
  (∃ name, GivenName calls name ∧ topic = keccak256 name) ∨ GivenHash calls topic

/-- What the calls ask for: no address was given, or the log is from a given one; and neither a
nonempty name nor a hash was given, or the first topic is one of them. -/
def Meaning (keccak256 : String → B256) (calls : List FilterCall) (log : PrimitiveLog) : Prop :=
  ((∀ address, ¬GivenAddress calls address) ∨ GivenAddress calls log.address) ∧
    (((∀ name, ¬GivenName calls name) ∧ ∀ hash, ¬GivenHash calls hash) ∨
      ∃ topic ∈ log.topics.head?, GivenTopic keccak256 calls topic)

/-- The same items given otherwise: in another order, or one by one in place of a batch. -/
inductive Rebuilt : List FilterCall → List FilterCall → Prop
  /-- The calls are permuted. -/
  | permute {calls calls' : List FilterCall} : calls.Perm calls' → Rebuilt calls calls'
  /-- A batch call is replaced by its items. -/
  | unbatch {calls calls' : List FilterCall} {call : FilterCall} :
      Rebuilt (calls ++ call :: calls') (calls ++ call.items ++ calls')
  /-- One change after the other. -/
  | trans {calls calls' calls'' : List FilterCall} :
      Rebuilt calls calls' → Rebuilt calls' calls'' → Rebuilt calls calls''

/-- Both conversions accept what the calls ask for, and so does every filter rebuilt from the
same items. -/
structure MeansTheSame (keccak256 : String → B256) (calls : List FilterCall) : Prop where
  /-- The conversion of a filter. -/
  accepts_iff : ∀ log,
    (Filter.ofEventFilter keccak256 (EventFilter.build calls)).Accepts log ↔
      Meaning keccak256 calls log
  /-- The conversion of a reference. -/
  accepts_ref_iff : ∀ log,
    (Filter.ofEventFilterRef keccak256 (EventFilter.build calls)).Accepts log ↔
      Meaning keccak256 calls log
  /-- The filters that are rebuilt from the same items. -/
  rebuilt : ∀ calls', Rebuilt calls calls' → ∀ log,
    (Filter.ofEventFilter keccak256 (EventFilter.build calls')).Accepts log ↔
      (Filter.ofEventFilter keccak256 (EventFilter.build calls)).Accepts log

/-- An empty event name is given to `events`, which keeps it. -/
def KeepsEmptyName (calls : List FilterCall) : Prop :=
  ∃ events, .events events ∈ calls ∧ "" ∈ events

/-! ### What a filter holds -/

section Build

variable {calls : List FilterCall}

/-- A further call. -/
lemma build_concat (calls : List FilterCall) (call : FilterCall) :
    EventFilter.build (calls ++ [call]) = (EventFilter.build calls).apply call := by
  unfold EventFilter.build
  rw [List.foldl_append]
  rfl

/-- The union of topics, as the loop of `event_signatures` forms it. -/
lemma mem_foldl_union {topics : List Topic} {topic : Topic} {hash : B256} :
    hash ∈ topics.foldl (fun topic t => topic ∪ t) topic ↔
      hash ∈ topic ∨ ∃ t ∈ topics, hash ∈ t := by
  induction topics generalizing topic with
  | nil => simp
  | cons t topics ih =>
    rw [List.foldl_cons, ih, Finset.mem_union]
    simp only [List.mem_cons, exists_eq_or_imp, or_assoc]

/-- The addresses that a built filter holds are the given ones. -/
lemma mem_contractAddresses_build {address : Address} :
    address ∈ (EventFilter.build calls).contractAddresses ↔ GivenAddress calls address := by
  unfold GivenAddress
  induction calls using List.reverseRecOn with
  | nil => simp [EventFilter.build, EventFilter.new]
  | append_singleton calls call ih =>
    rw [build_concat]
    cases call with
    | event event =>
      simp only [EventFilter.apply]
      split_ifs <;> simp [ih, FilterCall.addresses, or_and_right, exists_or]
    | _ =>
      simp [EventFilter.apply, ih, FilterCall.addresses, or_and_right, exists_or]

/-- The names that a built filter holds are the given ones, and the empty one if it was kept. -/
lemma mem_events_build {name : String} :
    name ∈ (EventFilter.build calls).events ↔
      GivenName calls name ∨ KeepsEmptyName calls ∧ name = "" := by
  unfold GivenName KeepsEmptyName
  induction calls using List.reverseRecOn with
  | nil => simp [EventFilter.build, EventFilter.new]
  | append_singleton calls call ih =>
    rw [build_concat]
    cases call with
    | event item =>
      simp only [EventFilter.apply]
      split_ifs with hempty
      · obtain rfl : item = "" := by simpa using hempty
        simp only [ih, FilterCall.names, List.mem_append, List.mem_singleton]
        grind
      · have hne : item ≠ "" := by simpa using hempty
        simp only [List.mem_append, ih, FilterCall.names, List.mem_singleton]
        grind
    | events list =>
      simp only [EventFilter.apply, List.mem_append, ih, List.mem_singleton]
      by_cases hname : name = ""
      · subst hname
        grind
      · grind [FilterCall.names]
    | _ =>
      simp only [EventFilter.apply, ih, List.mem_append, List.mem_singleton]
      grind [FilterCall.names]

/-- The hashes that a built filter holds are the given ones. -/
lemma mem_eventSignatures_build {hash : B256} :
    hash ∈ (EventFilter.build calls).eventSignatures ↔ GivenHash calls hash := by
  unfold GivenHash
  induction calls using List.reverseRecOn with
  | nil => simp [EventFilter.build, EventFilter.new]
  | append_singleton calls call ih =>
    rw [build_concat]
    cases call with
    | event item =>
      simp only [EventFilter.apply]
      split_ifs <;> simp [ih, FilterCall.hashes, or_and_right, exists_or]
    | eventSignatures list =>
      simp [EventFilter.apply, mem_foldl_union, ih, FilterCall.hashes, or_and_right, exists_or]
    | _ =>
      simp [EventFilter.apply, ih, FilterCall.hashes, or_and_right, exists_or]

variable {keccak256 : String → B256}

/-- **The first topics that a built filter asks for** are the given ones, and the hash of the empty
name if that was kept. -/
theorem mem_allEvents_build {topic : B256} :
    topic ∈ (EventFilter.build calls).allEvents keccak256 ↔
      GivenTopic keccak256 calls topic ∨ KeepsEmptyName calls ∧ topic = keccak256 "" := by
  unfold EventFilter.allEvents GivenTopic
  simp only [Finset.mem_union, mem_eventSignatures_build, List.mem_toFinset, List.mem_map,
    mem_events_build]
  constructor
  · rintro (hhash | ⟨name, hname | ⟨hkeeps, rfl⟩, rfl⟩)
    · exact Or.inl (Or.inr hhash)
    · exact Or.inl (Or.inl ⟨name, hname, rfl⟩)
    · exact Or.inr ⟨hkeeps, rfl⟩
  · rintro ((⟨name, hname, rfl⟩ | hhash) | ⟨hkeeps, rfl⟩)
    · exact Or.inr ⟨name, Or.inl hname, rfl⟩
    · exact Or.inl hhash
    · exact Or.inr ⟨"", Or.inr ⟨hkeeps, rfl⟩, rfl⟩

end Build

/-! ### What a filter accepts -/

section Accepts

variable {keccak256 : String → B256} {calls calls' : List FilterCall} {log : PrimitiveLog}

/-- The conversion of a filter, branches resolved. -/
lemma ofEventFilter_eq (value : EventFilter) : Filter.ofEventFilter keccak256 value =
    ⟨value.contractAddresses.toFinset, value.allEvents keccak256⟩ := by
  unfold Filter.ofEventFilter
  have htopic : (if value.allEvents keccak256 = ∅ then Filter.new
      else Filter.new.eventSignature (value.allEvents keccak256)) =
        ⟨∅, value.allEvents keccak256⟩ := by
    split_ifs with hempty
    · rw [hempty]
      rfl
    · rfl
  dsimp only
  rw [htopic]
  cases haddresses : value.contractAddresses <;> rfl

/-- Both conversions give the same filter. -/
lemma ofEventFilterRef_eq (value : EventFilter) :
    Filter.ofEventFilterRef keccak256 value = Filter.ofEventFilter keccak256 value := rfl

/-- A set accepts a value if and only if it holds no value or that one. -/
lemma FilterSet.accepts_iff {α : Type} {s : FilterSet α} {value : Option α} :
    s.Accepts value ↔ (∀ a, a ∉ s) ∨ ∃ a ∈ value, a ∈ s := by
  unfold FilterSet.Accepts
  rw [Finset.eq_empty_iff_forall_notMem]

/-- What a built filter accepts. -/
lemma accepts_build_iff :
    (Filter.ofEventFilter keccak256 (EventFilter.build calls)).Accepts log ↔
      ((∀ address, ¬GivenAddress calls address) ∨ GivenAddress calls log.address) ∧
        ((∀ topic, topic ∉ (EventFilter.build calls).allEvents keccak256) ∨
          ∃ topic ∈ log.topics.head?, topic ∈ (EventFilter.build calls).allEvents keccak256) := by
  unfold Filter.Accepts
  rw [ofEventFilter_eq, FilterSet.accepts_iff, FilterSet.accepts_iff]
  simp only [List.mem_toFinset, mem_contractAddresses_build, Option.mem_def, Option.some.injEq,
    exists_eq_left']

/-- What the calls ask for, by the topics given. -/
lemma meaning_iff :
    Meaning keccak256 calls log ↔
      ((∀ address, ¬GivenAddress calls address) ∨ GivenAddress calls log.address) ∧
        ((∀ topic, ¬GivenTopic keccak256 calls topic) ∨
          ∃ topic ∈ log.topics.head?, GivenTopic keccak256 calls topic) := by
  have hnone : ((∀ name, ¬GivenName calls name) ∧ ∀ hash, ¬GivenHash calls hash) ↔
      ∀ topic, ¬GivenTopic keccak256 calls topic := by
    constructor
    · rintro ⟨hnames, hhashes⟩ topic (⟨name, hname, -⟩ | hhash)
      · exact hnames name hname
      · exact hhashes topic hhash
    · intro htopics
      exact ⟨fun name hname => htopics _ (Or.inl ⟨name, hname, rfl⟩),
        fun hash hhash => htopics hash (Or.inr hhash)⟩
  unfold Meaning
  rw [hnone]

/-- Some contract is asked for. -/
lemma exists_given_address (calls : List FilterCall) :
    ∃ address, (∀ address, ¬GivenAddress calls address) ∨ GivenAddress calls address := by
  by_cases hgiven : ∃ address, GivenAddress calls address
  · obtain ⟨address, haddress⟩ := hgiven
    exact ⟨address, Or.inr haddress⟩
  · exact ⟨0, Or.inl fun address haddress => hgiven ⟨address, haddress⟩⟩

/-- **A built filter accepts what the calls ask for** if and only if no empty name was kept, or its
hash was asked for anyway.

**Proof sketch.** If it was not, the two differ on the logs of an accepted contract: with no topic
given, on a log without topics, which is asked for; else on a log whose first topic is the hash of
the empty name, which is not. -/
lemma accepts_iff_meaning :
    (∀ log, (Filter.ofEventFilter keccak256 (EventFilter.build calls)).Accepts log ↔
        Meaning keccak256 calls log) ↔
      (KeepsEmptyName calls → GivenTopic keccak256 calls (keccak256 "")) := by
  constructor
  · intro h hkeeps
    by_contra hgiven
    obtain ⟨address, haddress⟩ := exists_given_address calls
    have hheld : keccak256 "" ∈ (EventFilter.build calls).allEvents keccak256 :=
      mem_allEvents_build.mpr (Or.inr ⟨hkeeps, rfl⟩)
    by_cases hnone : ∀ topic, ¬GivenTopic keccak256 calls topic
    · have haccepts := (h ⟨address, []⟩).mpr (meaning_iff.mpr ⟨haddress, Or.inl hnone⟩)
      rcases (accepts_build_iff.mp haccepts).2 with hempty | ⟨topic, htopic, -⟩
      · exact hempty _ hheld
      · simp at htopic
    · have hmeaning := (h ⟨address, [keccak256 ""]⟩).mp
        (accepts_build_iff.mpr ⟨haddress, Or.inr ⟨_, rfl, hheld⟩⟩)
      rcases (meaning_iff.mp hmeaning).2 with hempty | ⟨topic, htopic, hmem⟩
      · exact hnone hempty
      · obtain rfl : keccak256 "" = topic := by simpa using htopic
        exact hgiven hmem
  · intro h log
    have hheld (topic : B256) : topic ∈ (EventFilter.build calls).allEvents keccak256 ↔
        GivenTopic keccak256 calls topic := by
      rw [mem_allEvents_build]
      refine ⟨fun hmem => ?_, Or.inl⟩
      rcases hmem with hgiven | ⟨hkeeps, rfl⟩
      · exact hgiven
      · exact h hkeeps
    rw [accepts_build_iff, meaning_iff]
    simp only [hheld]

/-! ### Filters rebuilt from the same items -/

/-- The items of a call give what the call gives; only the batch call may keep an empty name. -/
lemma given_items (call : FilterCall) :
    (∀ address, (∃ item ∈ call.items, address ∈ item.addresses) ↔ address ∈ call.addresses) ∧
      (∀ name, (∃ item ∈ call.items, name ∈ item.names) ↔ name ∈ call.names) ∧
      (∀ hash, (∃ item ∈ call.items, ∃ topic ∈ item.hashes, hash ∈ topic) ↔
        ∃ topic ∈ call.hashes, hash ∈ topic) ∧
      ∀ events, .events events ∉ call.items := by
  cases call <;>
    simp [FilterCall.items, FilterCall.addresses, FilterCall.names, FilterCall.hashes]

/-- Rebuilding gives the same items, and keeps no empty name that was not kept before. -/
lemma Rebuilt.given (h : Rebuilt calls calls') :
    (∀ address, GivenAddress calls' address ↔ GivenAddress calls address) ∧
      (∀ name, GivenName calls' name ↔ GivenName calls name) ∧
      (∀ hash, GivenHash calls' hash ↔ GivenHash calls hash) ∧
      (KeepsEmptyName calls' → KeepsEmptyName calls) := by
  induction h with
  | permute hperm =>
    unfold GivenAddress GivenName GivenHash KeepsEmptyName
    simp only [hperm.mem_iff, implies_true]
    exact ⟨trivial, trivial, trivial, id⟩
  | @unbatch calls calls' call =>
    obtain ⟨haddresses, hnames, hhashes, hevents⟩ := given_items call
    unfold GivenAddress GivenName GivenHash KeepsEmptyName
    simp only [List.mem_append, List.mem_cons, or_and_right, exists_or, exists_eq_left,
      haddresses, hnames, hhashes, hevents, or_assoc, or_false]
    refine ⟨fun _ => trivial, fun _ => trivial, fun _ => trivial, ?_⟩
    rintro (hbefore | hbehind)
    · exact Or.inl hbefore
    · exact Or.inr (Or.inr hbehind)
  | trans _ _ ih ih' =>
    exact ⟨fun address => (ih'.1 address).trans (ih.1 address),
      fun name => (ih'.2.1 name).trans (ih.2.1 name),
      fun hash => (ih'.2.2.1 hash).trans (ih.2.2.1 hash), ih.2.2.2 ∘ ih'.2.2.2⟩

/-- Rebuilding asks for the same logs. -/
lemma Rebuilt.meaning_iff (h : Rebuilt calls calls') :
    Meaning keccak256 calls' log ↔ Meaning keccak256 calls log := by
  obtain ⟨haddresses, hnames, hhashes, -⟩ := h.given
  unfold Meaning GivenTopic
  simp only [haddresses, hnames, hhashes]

/-- **The meaning of a filter does not depend on how it was built**, and both conversions keep it,
if and only if no empty event name was given to `events`, or the hash of the empty name is among
the topics asked for. -/
theorem meansTheSame_iff (keccak256 : String → B256) (calls : List FilterCall) :
    MeansTheSame keccak256 calls ↔
      (KeepsEmptyName calls → GivenTopic keccak256 calls (keccak256 "")) := by
  constructor
  · intro h
    exact accepts_iff_meaning.mp h.accepts_iff
  · intro h
    have haccepts := accepts_iff_meaning.mpr h
    refine ⟨haccepts, fun log => ?_, fun calls' hrebuilt log => ?_⟩
    · rw [ofEventFilterRef_eq]
      exact haccepts log
    · obtain ⟨-, hnames, hhashes, hkeeps⟩ := hrebuilt.given
      have h' : KeepsEmptyName calls' → GivenTopic keccak256 calls' (keccak256 "") := by
        intro hkeeps'
        unfold GivenTopic
        simp only [hnames, hhashes]
        exact h (hkeeps hkeeps')
      rw [accepts_iff_meaning.mpr h' log, haccepts log]
      exact hrebuilt.meaning_iff

/-- The hash of the empty string. -/
def keccakOfEmpty : B256 := 0xc5d2460186f7233c927e7db2dcc703c0e500b653ca82273b7bfad8045d85a470

/-- A filter whose only event name is empty, given to `events`, rejects a log without topics. -/
theorem not_meansTheSame_emptyName :
    ¬MeansTheSame (fun _ => keccakOfEmpty) [.events [""]] := by
  intro h
  have hmeaning : Meaning (fun _ => keccakOfEmpty) [.events [""]] ⟨0, []⟩ :=
    ⟨Or.inl (by simp [GivenAddress, FilterCall.addresses]),
      Or.inl ⟨by simp [GivenName, FilterCall.names], by simp [GivenHash, FilterCall.hashes]⟩⟩
  have haccepts := ((h.accepts_iff ⟨0, []⟩).mpr hmeaning).2
  rcases haccepts with hempty | ⟨topic, htopic, -⟩
  · rw [ofEventFilter_eq] at hempty
    simp [EventFilter.build, EventFilter.new, EventFilter.apply, EventFilter.allEvents] at hempty
  · simp at htopic

end Accepts

end EventScanner
