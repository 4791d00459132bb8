import EventScanner.Lib.EventLog
import EventScanner.Lib.HashChain
import EventScanner.Lib.Triple
import EventScanner.Types

set_option relaxedAutoImplicit false
set_option autoImplicit false

/-!
# The provider and the channels, seen from the scanner

The scanner talks to a node through `robust_provider` and to its consumer through an `mpsc`
channel. Neither is code of this repository, so both are parameters of the model: what the
node answers is a function of the number of provider calls made so far, hence the chain may
change in any way between any two calls and every call may fail; the consumer may drop its
receiver at any point of the run.

Each run leaves a log of events (newest first): the provider calls, the subscription items
taken, the reorg checks answered and the items sent.

## Main definitions

* `EventScanner.RobustProvider` — a node, as an answer for every call in turn.
* `EventScanner.Event`, `EventScanner.clock`, `EventScanner.messages` — the log, the number of
  calls in it, and the messages sent.
* `EventScanner.getBlockByNumber`, `EventScanner.getBlockNumber`,
  `EventScanner.getBlockNumberById`, `EventScanner.getBlock`,
  `EventScanner.subscribeBlocks` — the provider calls.
* `EventScanner.Sender`, `EventScanner.tryStream` — the sending half of a stream.

## Design

The chain of the last call, `RobustProvider.current`, is "the chain now" for whatever the
scanner does before its next call: no change can be seen in between.
-/

namespace EventScanner

open HashChain

variable {Hash : Type}

/-- A block number or a tag (`BlockNumberOrTag`). -/
inductive BlockNumberOrTag
  | latest
  | finalized
  | safe
  | earliest
  | pending
  | number (n : ℕ)
  deriving DecidableEq, Repr

/-- A block id (`BlockId`). -/
inductive BlockId (Hash : Type)
  | hash (h : Hash)
  | number (tag : BlockNumberOrTag)
  deriving DecidableEq, Repr

/-- A node behind `robust_provider`: what it answers to its `k`-th call. -/
structure RobustProvider (Hash : Type) where
  /-- The canonical chain at the `k`-th call. -/
  view : ℕ → Chain Hash
  /-- The error of the `k`-th call, if it fails for a reason of its own. -/
  fault : ℕ → Option RobustProviderError
  /-- The block behind an id that the canonical chain does not determine: a hash, or the tags
  `safe` and `pending`. -/
  other : ℕ → BlockId Hash → Option (Block Hash)

/-- A node whose calls do not fail on their own. -/
def RobustProvider.healthy (view : ℕ → Chain Hash) : RobustProvider Hash :=
  ⟨view, fun _ => none, fun _ _ => none⟩

/-- The provider calls the scanner makes. -/
inductive Request (Hash : Type)
  | blockByNumber (tag : BlockNumberOrTag)
  | blockNumber
  | blockNumberById (id : BlockId Hash)
  | block (id : BlockId Hash)
  | subscribeBlocks
  deriving DecidableEq, Repr

/-- What happens in a run. -/
inductive Event (Hash : Type)
  /-- A provider call. -/
  | request (r : Request Hash)
  /-- An item taken from the block subscription: a header number or an error. -/
  | received (item : Except RobustProviderError ℕ)
  /-- A reorg check of a block returned `Ok` with this common ancestor. -/
  | checked (block : Block Hash) (commonAncestor : Option (Block Hash))
  /-- An item was sent to the consumer. -/
  | sent (item : BlockScannerResult)
  deriving DecidableEq

/-- The event is a provider call. -/
def Event.isRequest : Event Hash → Bool
  | .request _ => true
  | _ => false

@[simp] lemma Event.isRequest_request (r : Request Hash) : (Event.request r).isRequest = true :=
  rfl

@[simp] lemma Event.isRequest_received (i : Except RobustProviderError ℕ) :
    (Event.received i : Event Hash).isRequest = false := rfl

@[simp] lemma Event.isRequest_checked (b : Block Hash) (a : Option (Block Hash)) :
    (Event.checked b a).isRequest = false := rfl

@[simp] lemma Event.isRequest_sent (i : BlockScannerResult) :
    (Event.sent i : Event Hash).isRequest = false := rfl

/-- The log of a run, newest event first. -/
abbrev Log (Hash : Type) := List (Event Hash)

/-- The number of provider calls made so far. -/
def clock (log : Log Hash) : ℕ := log.countP Event.isRequest

@[simp] lemma clock_request (r : Request Hash) (log : Log Hash) :
    clock (.request r :: log) = clock log + 1 := by simp [clock, List.countP_cons]

@[simp] lemma clock_received (i : Except RobustProviderError ℕ) (log : Log Hash) :
    clock (.received i :: log) = clock log := by simp [clock]

@[simp] lemma clock_checked (b : Block Hash) (a : Option (Block Hash)) (log : Log Hash) :
    clock (.checked b a :: log) = clock log := by simp [clock]

@[simp] lemma clock_sent (i : BlockScannerResult) (log : Log Hash) :
    clock (.sent i :: log) = clock log := by simp [clock]

/-- The clock does not go back. -/
lemma clock_le_of_suffix {log log' : Log Hash} (h : log <:+ log') : clock log ≤ clock log' :=
  h.sublist.countP_le

/-- The messages of a stream, in order. -/
def messages : Log Hash → List BlockScannerResult
  | [] => []
  | .sent item :: log => messages log ++ [item]
  | _ :: log => messages log

@[simp] lemma messages_nil : messages ([] : Log Hash) = [] := rfl

@[simp] lemma messages_request (r : Request Hash) (log : Log Hash) :
    messages (.request r :: log) = messages log := rfl

@[simp] lemma messages_received (i : Except RobustProviderError ℕ) (log : Log Hash) :
    messages (.received i :: log) = messages log := rfl

@[simp] lemma messages_checked (b : Block Hash) (a : Option (Block Hash)) (log : Log Hash) :
    messages (.checked b a :: log) = messages log := rfl

@[simp] lemma messages_sent (item : BlockScannerResult) (log : Log Hash) :
    messages (.sent item :: log) = messages log ++ [item] := rfl

/-- The messages of a longer run come behind those of a shorter one. -/
lemma messages_append (new log : Log Hash) :
    messages (new ++ log) = messages log ++ messages new := by
  induction new with
  | nil => simp
  | cons e new ih => cases e <;> simp [ih]

/-- The messages are what was sent. -/
lemma mem_messages {item : BlockScannerResult} {log : Log Hash} :
    item ∈ messages log ↔ .sent item ∈ log := by
  induction log with
  | nil => simp
  | cons e log ih =>
    cases e with
    | sent item' =>
      rw [messages_sent, List.mem_append, List.mem_singleton, List.mem_cons, ih, or_comm,
        Event.sent.injEq]
    | request | received | checked => simpa using ih

/-- Provider calls are not messages. -/
lemma messages_of_isRequest {reqs : Log Hash} (h : ∀ e ∈ reqs, e.isRequest = true) :
    messages reqs = [] := by
  rw [List.eq_nil_iff_forall_not_mem]
  intro item hitem
  cases h _ (mem_messages.mp hitem)

namespace RobustProvider

/-- The chain at the last call: the chain now. -/
def current (provider : RobustProvider Hash) (log : Log Hash) : Chain Hash :=
  provider.view (clock log - 1)

/-- The answer to the `k`-th call, when that call asks for what `find` finds on the chain. -/
def answer {α : Type} (provider : RobustProvider Hash) (k : ℕ)
    (find : Chain Hash → Option α) : Except RobustProviderError α :=
  match provider.fault k with
  | some e => .error e
  | none =>
    match find (provider.view k) with
    | some a => .ok a
    | none => .error .blockNotFound

/-- The block behind a number or tag, on the chain of the `k`-th call. -/
def findTag (provider : RobustProvider Hash) (k : ℕ) (tag : BlockNumberOrTag)
    (chain : Chain Hash) : Option (Block Hash) :=
  match tag with
  | .latest => chain.blockAt chain.height
  | .finalized => chain.finalized.bind chain.blockAt
  | .earliest => chain.blockAt 0
  | .number n => chain.blockAt n
  | .safe | .pending => provider.other k (.number tag)

/-- The block behind an id, on the chain of the `k`-th call. -/
def findId (provider : RobustProvider Hash) (k : ℕ) (id : BlockId Hash)
    (chain : Chain Hash) : Option (Block Hash) :=
  match id with
  | .number tag => provider.findTag k tag chain
  | .hash _ => provider.other k id

end RobustProvider

/-- Make a provider call: note it in the log, and answer from the chain of that moment. -/
def call {α : Type} (provider : RobustProvider Hash) (r : Request Hash)
    (find : ℕ → Chain Hash → Option α) : Proc (Event Hash) (Except RobustProviderError α) := do
  let log ← Proc.past
  Proc.emit (.request r)
  pure (provider.answer (clock log) (find (clock log)))

@[simp] lemma run_call {α : Type} (provider : RobustProvider Hash) (r : Request Hash)
    (find : ℕ → Chain Hash → Option α) (log : Log Hash) :
    (call provider r find).run log =
      (some (provider.answer (clock log) (find (clock log))), .request r :: log) := rfl

/-- `provider.get_block_by_number`. -/
def getBlockByNumber (provider : RobustProvider Hash) (tag : BlockNumberOrTag) :
    Proc (Event Hash) (Except RobustProviderError (Block Hash)) :=
  call provider (.blockByNumber tag) fun k => provider.findTag k tag

/-- `provider.get_block_number`. -/
def getBlockNumber (provider : RobustProvider Hash) :
    Proc (Event Hash) (Except RobustProviderError ℕ) :=
  call provider .blockNumber fun _ chain => some chain.height

/-- `provider.get_block_number_by_id`: an explicit number stands for itself, whether or not
the chain is that high. -/
def getBlockNumberById (provider : RobustProvider Hash) (id : BlockId Hash) :
    Proc (Event Hash) (Except RobustProviderError ℕ) :=
  call provider (.blockNumberById id) fun k chain =>
    match id with
    | .number (.number n) => some n
    | id => (provider.findId k id chain).map Block.number

/-- `provider.get_block`. -/
def getBlock (provider : RobustProvider Hash) (id : BlockId Hash) :
    Proc (Event Hash) (Except RobustProviderError (Block Hash)) :=
  call provider (.block id) fun k => provider.findId k id

/-- `provider.subscribe_blocks`; the items of the subscription are a parameter of whoever
reads it. -/
def subscribeBlocks (provider : RobustProvider Hash) :
    Proc (Event Hash) (Except RobustProviderError Unit) :=
  call provider .subscribeBlocks fun _ _ => some ()

/-! ### The consumer's channel -/

/-- The sending half of the consumer's channel. The receiver is dropped when the log of the
run has reached a given length, or never. -/
structure Sender where
  /-- The length of the log from which on the receiver is gone. -/
  closesAt : Option ℕ
  deriving DecidableEq, Repr

/-- The receiver is still there. -/
def Sender.isOpen (sender : Sender) (log : Log Hash) : Bool :=
  match sender.closesAt with
  | none => true
  | some n => decide (log.length < n)

/-- `TryStream::try_stream`: send the item unless the receiver has been dropped. -/
def tryStream (sender : Sender) (item : BlockScannerResult) : Proc (Event Hash) ChannelState := do
  let log ← Proc.past
  if sender.isOpen log then
    Proc.emit (.sent item)
    pure .opened
  else
    pure .closed

/-- A receiver that is still there was there before. -/
lemma Sender.isOpen_of_suffix {sender : Sender} {log log' : Log Hash} (h : log <:+ log')
    (hopen : sender.isOpen log' = true) : sender.isOpen log = true := by
  obtain ⟨_ | n⟩ := sender
  · rfl
  · have hlen := h.length_le
    have hlt : log'.length < n := of_decide_eq_true hopen
    exact decide_eq_true (by omega)

lemma run_tryStream (sender : Sender) (item : BlockScannerResult) (log : Log Hash) :
    (tryStream sender item).run log =
      if sender.isOpen log then (some .opened, .sent item :: log) else (some .closed, log) := by
  unfold tryStream
  rw [Proc.run_bind_past]
  split_ifs <;> rfl

/-- A run has been cut short: an error was sent, or the receiver is gone. -/
def CutShort (sender : Sender) (log : Log Hash) : Prop :=
  (∃ e, .sent (.error e) ∈ log) ∨ sender.isOpen log = false

/-- An error is sent, unless the receiver is gone. -/
lemma cutShort_error (sender : Sender) (e : ScannerError) (log : Log Hash) :
    ∃ channel log', (tryStream sender (.error e)).run log = (some channel, log') ∧
      CutShort sender log' := by
  by_cases hopen : sender.isOpen log
  · exact ⟨_, _, by rw [run_tryStream, if_pos hopen], Or.inl ⟨e, List.mem_cons_self⟩⟩
  · exact ⟨_, _, by rw [run_tryStream, if_neg hopen], Or.inr (by simpa using hopen)⟩

section Triple

variable {P : Log Hash → Prop} {E : Log Hash → Prop}

/-- What a provider call does, whatever it answers. -/
lemma triple_call {α : Type} {provider : RobustProvider Hash} {r : Request Hash}
    {find : ℕ → Chain Hash → Option α} {Q : Except RobustProviderError α → Log Hash → Prop}
    (h : ∀ answer log, P log → Q answer (.request r :: log)) :
    Proc.Triple P (call provider r find) Q E := fun log hP => h _ log hP

/-- What sending an item does: it is sent, or the receiver is gone. -/
lemma triple_tryStream {sender : Sender} {item : BlockScannerResult}
    {Q : ChannelState → Log Hash → Prop} (hopen : ∀ log, P log → Q .opened (.sent item :: log))
    (hclosed : ∀ log, P log → Q .closed log) : Proc.Triple P (tryStream sender item) Q E := by
  intro log hP
  rw [run_tryStream]
  split_ifs
  · exact hopen log hP
  · exact hclosed log hP

end Triple

end EventScanner
