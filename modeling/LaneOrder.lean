import LaneOrder.Json.Entity
import LaneOrder.LockPlan
import LaneOrder.Main
import LaneOrder.Proofs.Command.Calls
import LaneOrder.Proofs.Command.Knowledge
import LaneOrder.Proofs.Crowd.Locking
import LaneOrder.Proofs.Crowd.Tenants
import LaneOrder.Proofs.Crowd.Ties
import LaneOrder.Proofs.Crowd.Trail
import LaneOrder.Proofs.Crowd.Updates
import LaneOrder.Proofs.Sequence.Isolation
import LaneOrder.Proofs.Sql.Tenants
import LaneOrder.Session.Step
import LaneOrder.Sql.Session
import LaneOrder.Tracing
import LaneOrder.Uuid.Fresh
import LaneOrder.Proofs.Quiet.Calls
import LaneOrder.Proofs.Quiet.Gap
import LaneOrder.Proofs.Quiet.Move
import LaneOrder.Proofs.Quiet.Verdict
import LaneOrder.Proofs.Quiet.Elsewhere
import LaneOrder.Proofs.Quiet.Commute
import LaneOrder.Proofs.Quiet.Renormalize
import LaneOrder.Proofs.Binary64.Rounding
import LaneOrder.Proofs.Config
import LaneOrder.Proofs.Allocation
import LaneOrder.Proofs.Quiet.Readings
import LaneOrder.Proofs.Text.Names
import LaneOrder.Proofs.Sql.LockTimeout
import LaneOrder.Proofs.Config.Variables
import LaneOrder.Proofs.Uuid
import LaneOrder.Proofs.Timestamp.Text
import LaneOrder.Proofs.Json.Requests
import LaneOrder.Proofs.Json.Tasks
import LaneOrder.Proofs.Crowd.Retries
import LaneOrder.Proofs.Command.Widening
