import EventScanner.BlockRangeHandler.Concurrency
import EventScanner.BlockRangeHandler.ErrorsTerminal
import EventScanner.BlockRangeHandler.Lag
import EventScanner.BlockRangeScanner.Capacities
import EventScanner.BlockRangeScanner.RangeIteratorU64
import EventScanner.BlockRangeStream.ErrorsTerminal
import EventScanner.BlockRangeStream.ExactCoverage
import EventScanner.BlockRangeStream.ProviderCalls
import EventScanner.BlockRangeStream.ShallowReorgs
import EventScanner.BlockRangeStream.Settling
import EventScanner.BlockRangeStream.ZeroCapacity
import EventScanner.LatestEventsHandler.Agreement
import EventScanner.LatestEventsHandler.Panic
import EventScanner.LatestEventsHandler.Protocol
import EventScanner.LatestEventsHandler.Result
import EventScanner.LatestEventsScanner.Confirmations
import EventScanner.LatestStream.Completeness
import EventScanner.LiveStream.Bounds
import EventScanner.LiveStream.Coverage
import EventScanner.LiveStream.Iteration
import EventScanner.LiveStream.RangeEnd
import EventScanner.LiveStream.Rollback
import EventScanner.Modes.SyncFromLatest
import EventScanner.RewindStream.TipCheck
import EventScanner.StreamHandler.Delivery
import EventScanner.StreamHandler.Panic
import EventScanner.StreamHandler.Replica
import EventScanner.SyncFromLatest.Concurrency
import EventScanner.SyncFromLatest.Delivery
import EventScanner.SyncFromLatest.PhaseOrder
import EventScanner.SyncStream.HandOver
