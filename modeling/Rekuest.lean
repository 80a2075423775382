import Rekuest.Backend.Admission
import Rekuest.Backend.Created
import Rekuest.Backend.Dispatched
import Rekuest.Backend.Lineage
import Rekuest.Backend.Serving
import Rekuest.Bloks.Callbacks
import Rekuest.Bloks.Declarations
import Rekuest.Bloks.Reads
import Rekuest.Bsx.Braces
import Rekuest.Bsx.Complete
import Rekuest.Bsx.Cuts
import Rekuest.Bsx.Ids
import Rekuest.Bsx.Language
import Rekuest.Concurrent.Beside
import Rekuest.Concurrent.Custody
import Rekuest.Concurrent.Discipline
import Rekuest.Concurrent.Grants
import Rekuest.Concurrent.Locks
import Rekuest.Concurrent.Parties
import Rekuest.Concurrent.Pool
import Rekuest.Concurrent.System
import Rekuest.Demands.Shape
import Rekuest.Documents.Pointer
import Rekuest.Events.Latest
import Rekuest.Events.Runs
import Rekuest.Formulas.Checked
import Rekuest.HigherOrder.Calls
import Rekuest.Intake.Acks
import Rekuest.Intake.Replays
import Rekuest.Intake.Signals
import Rekuest.JsonPath.Query
import Rekuest.JsonPath.Spelled
import Rekuest.Leases.Fencing
import Rekuest.Leases.Lease
import Rekuest.Live.Exact
import Rekuest.Liveness
import Rekuest.Ports.Accepted
import Rekuest.Ports.Admission
import Rekuest.Ports.AsMeant
import Rekuest.Positions.HandledOnce
import Rekuest.Positions.Session
import Rekuest.Positions.Watermark
import Rekuest.Probes.Fence
import Rekuest.Probes.Final
import Rekuest.Probes.Slots
import Rekuest.Progress.Gate
import Rekuest.Progress.Runs
import Rekuest.Progress.Spacing
import Rekuest.Provenance.Mint
import Rekuest.Queue.AgentQueue
import Rekuest.Queue.Delivery
import Rekuest.Queue.Order
import Rekuest.Registration.Batch
import Rekuest.Replay.AnySession
import Rekuest.Replay.OneHistory
import Rekuest.Retention.Moves
import Rekuest.Retention.Passes
import Rekuest.Retention.Sweeps
import Rekuest.Revisions.Commit
import Rekuest.Revisions.Head
import Rekuest.Revisions.History
import Rekuest.Schedules.Planning
import Rekuest.Schedules.Refunds
import Rekuest.Schedules.Runs
import Rekuest.Server.AfterEnd
import Rekuest.Server.Answers
import Rekuest.Server.Assign
import Rekuest.Server.Deadlines
import Rekuest.Server.Decisions
import Rekuest.Server.Dispatches
import Rekuest.Server.Guarantee
import Rekuest.Server.HeldChildren
import Rekuest.Server.Holds
import Rekuest.Server.Interrupts
import Rekuest.Server.Outcomes
import Rekuest.Server.Rely
import Rekuest.Server.Reports
import Rekuest.Server.Runs
import Rekuest.Server.SafeReports
import Rekuest.Server.Safety
import Rekuest.Server.Standing
import Rekuest.Server.Steps
import Rekuest.Server.Sweeps
import Rekuest.Server.Transitions
import Rekuest.Server.Txn
import Rekuest.State.Resumed
import Rekuest.State.Store
import Rekuest.State.Watched
import Rekuest.Task.Assign
import Rekuest.Task.Holds
import Rekuest.Task.Row
import Rekuest.Task.Transitions
import Rekuest.Task.Tree
import Rekuest.Triggers.Agreement
import Rekuest.Triggers.Books
import Rekuest.Triggers.Chains
import Rekuest.Triggers.Cover
import Rekuest.Widgets.Calls
import Rekuest.Widgets.References
import Rekuest.Widgets.Resolved
