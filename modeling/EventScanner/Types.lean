import EventScanner.Lib.RangeInclusive
import Mathlib.Algebra.Group.Nat.Defs

set_option relaxedAutoImplicit false
set_option autoImplicit false

/-!
# Messages, errors and channel states

The item types of the streams (`types.rs`, `error.rs`): what a block-range stream or a
subscription yields, and what a failed provider call turns into.

## Main definitions

* `EventScanner.Notification`, `EventScanner.ScannerMessage`, `EventScanner.ScannerError`,
  `EventScanner.ScannerResult` — the items of a stream.
* `EventScanner.RobustProviderError` — the errors of the provider, with their conversion
  `EventScanner.ScannerError.ofProvider`.
* `EventScanner.FitsInMemory` — what `with_capacity` accepts.
-/

namespace EventScanner

/-- The state of a channel after an attempt to send (`ChannelState::Open`, `::Closed`). -/
inductive ChannelState
  /-- The message was sent. -/
  | opened
  /-- The receiver has been dropped. -/
  | closed
  deriving DecidableEq, Repr

/-- `ChannelState::is_closed`. -/
def ChannelState.isClosed : ChannelState → Bool
  | .opened => false
  | .closed => true

/-- Notifications of the scanner. -/
inductive Notification
  /-- Live streaming begins. -/
  | switchingToLive
  /-- A reorg was found; the block number is that of the reported common ancestor. -/
  | reorgDetected (commonAncestor : ℕ)
  /-- The latest-events phase found nothing. -/
  | noPastLogsFound
  deriving DecidableEq, Repr

/-- Messages streamed to subscribers. -/
inductive ScannerMessage (T : Type)
  /-- Data. -/
  | data (t : T)
  /-- A notification. -/
  | notification (n : Notification)
  deriving DecidableEq, Repr

/-- The errors of the scanner. The payload of a transport error is kept as its text. -/
inductive ScannerError
  | rpcError (err : String)
  | blockNotFound
  | timeout
  | blockExceedsLatest (what : String) (number latest : ℕ)
  | invalidEventCount
  | invalidMaxBlockRange
  | invalidBufferCapacity
  | invalidMaxConcurrentFetches
  | subscriptionClosed
  | lagged (skipped : ℕ)
  deriving DecidableEq, Repr

/-- All errors except `Lagged` are terminal. -/
def ScannerError.isTerminal : ScannerError → Bool
  | .lagged _ => false
  | .rpcError _ | .blockNotFound | .timeout | .blockExceedsLatest _ _ _ | .invalidEventCount
  | .invalidMaxBlockRange | .invalidBufferCapacity | .invalidMaxConcurrentFetches
  | .subscriptionClosed => true

/-- `ScannerResult<T>`. -/
abbrev ScannerResult (T : Type) := Except ScannerError (ScannerMessage T)

/-- The errors of the provider and of its block subscriptions (`robust_provider::Error`). -/
inductive RobustProviderError
  | timeout
  | rpcError (err : String)
  | blockNotFound
  | lagged (blocks : ℕ)
  | closed
  deriving DecidableEq, Repr

/-- `impl From<RobustProviderError> for ScannerError`. -/
def ScannerError.ofProvider : RobustProviderError → ScannerError
  | .timeout => .timeout
  | .rpcError err => .rpcError err
  | .blockNotFound => .blockNotFound
  | .lagged blocks => .lagged blocks
  | .closed => .subscriptionClosed

/-- The item type of block-range streams (`BlockScannerResult`). -/
abbrev BlockScannerResult := ScannerResult RangeInclusive

/-- The item that carries a block range. -/
abbrev dataItem (r : RangeInclusive) : BlockScannerResult := .ok (.data r)

/-- The item that carries a notification. -/
abbrev notificationItem (n : Notification) : BlockScannerResult := .ok (.notification n)

/-- The item that reports a reorg. -/
abbrev reorgItem (commonAncestor : ℕ) : BlockScannerResult :=
  notificationItem (.reorgDetected commonAncestor)

/-- The message is a range. -/
def isRange : BlockScannerResult → Bool
  | .ok (.data _) => true
  | .ok (.notification _) | .error _ => false

/-- The message reports a reorg. -/
def isReorg : BlockScannerResult → Bool
  | .ok (.notification (.reorgDetected _)) => true
  | .ok (.notification .switchingToLive) | .ok (.notification .noPastLogsFound) | .ok (.data _)
  | .error _ => false

/-- The most bytes that a collection may take (`isize::MAX`). -/
def isizeMax : ℕ := 2 ^ 63 - 1

/-- A collection with room for `capacity` elements of `size` bytes can be asked for: `with_capacity`
panics with more bytes. -/
def FitsInMemory (capacity size : ℕ) : Prop := capacity * size ≤ isizeMax

instance (capacity size : ℕ) : Decidable (FitsInMemory capacity size) :=
  inferInstanceAs (Decidable (capacity * size ≤ isizeMax))

end EventScanner
