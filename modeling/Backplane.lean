import Backplane.Bus
import Backplane.Cache.Hybrid
import Backplane.Cache.Options
import Backplane.Cache.Store
import Backplane.Config
import Backplane.Errors
import Backplane.Fiber.Kernel
import Backplane.Fiber.Machine
import Backplane.Fiber.Prog
import Backplane.Host
import Backplane.Host.Hybrid
import Backplane.Host.Locks
import Backplane.Host.Queue
import Backplane.Host.Runner
import Backplane.Hub
import Backplane.Jobs.Options
import Backplane.Jobs.Result
import Backplane.Jobs.WorkItem
import Backplane.Json.Reader
import Backplane.Json.Shape
import Backplane.Json.Value
import Backplane.Lock.Lock
import Backplane.Lock.Options
import Backplane.Proofs.Bus.Delivery
import Backplane.Proofs.Cache.Counter
import Backplane.Proofs.Cache.Eviction
import Backplane.Proofs.Cache.Refinement
import Backplane.Proofs.Cache.Store
import Backplane.Proofs.Cache.Times
import Backplane.Proofs.Fiber.Run
import Backplane.Proofs.Fiber.Timed
import Backplane.Proofs.Hub.FanOut
import Backplane.Proofs.Jobs.Continuous
import Backplane.Proofs.Jobs.Dispatch
import Backplane.Proofs.Jobs.Renewer
import Backplane.Proofs.Jobs.Settlement
import Backplane.Proofs.Jobs.Start
import Backplane.Proofs.Lock.Exclusion
import Backplane.Proofs.Lock.Periods
import Backplane.Proofs.Lock.Buckets
import Backplane.Proofs.Lock.Polling
import Backplane.Proofs.Lock.Probe
import Backplane.Proofs.Lock.Pacing
import Backplane.Proofs.Lock.Throttle
import Backplane.Proofs.Queue.Backoff
import Backplane.Proofs.Queue.Conservation
import Backplane.Proofs.Queue.Dequeue
import Backplane.Proofs.Queue.Lease
import Backplane.Proofs.Queue.Lifecycle
import Backplane.Proofs.Queue.ParkOrder
import Backplane.Proofs.Queue.Pull
import Backplane.Proofs.Queue.Store
import Backplane.Proofs.Queue.Unreadable
import Backplane.Proofs.Queue.Waiting
import Backplane.Proofs.Queue.WellFormed
import Backplane.Proofs.Queue.World
import Backplane.Queue.Backend
import Backplane.Queue.Options
import Backplane.Queue.Record
import Backplane.Queue.Store
import Backplane.Session.BusSteps
import Backplane.Session.CacheSteps
import Backplane.Session.EventSteps
import Backplane.Session.Fields
import Backplane.Session.Format
import Backplane.Session.HybridSteps
import Backplane.Session.JobSteps
import Backplane.Session.Line
import Backplane.Session.LockSteps
import Backplane.Session.Outcome
import Backplane.Session.QueueSteps
import Backplane.Session.Settings
import Backplane.Session.Steps
import Backplane.Text.Literal
import Backplane.Text.Lower
import Backplane.Text.Shortest
import Backplane.Time.Civil
import Backplane.Time.Duration
import Backplane.Time.Rfc3339
import Backplane.Uuid
import Backplane.Wire
