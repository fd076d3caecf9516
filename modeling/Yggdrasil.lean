import Yggdrasil.Capacity.Planner.Hysteresis
import Yggdrasil.Capacity.Intent.Drain
import Yggdrasil.Capacity.Mutation.WriteOnce
import Yggdrasil.Capacity.Mutation.Budget
import Yggdrasil.Capacity.Dispatch.Honest
import Yggdrasil.Capacity.LockKeys
import Yggdrasil.Executor.Idle
import Yggdrasil.Schedule.Worker
import Yggdrasil.Events.Stream
import Yggdrasil.Events.Retention
import Yggdrasil.Events.Emit
import Yggdrasil.Triggers.Once
import Yggdrasil.WorkflowRuns.Machine
import Yggdrasil.WorkflowRuns.Result
import Yggdrasil.Sessions.Rotation
import Yggdrasil.Sessions.Termination
import Yggdrasil.Sessions.EndSession
import Yggdrasil.Catalog.Versions
import Yggdrasil.Catalog.History
import Yggdrasil.Catalog.Repeat
import Yggdrasil.Reconciler.Versions
import Yggdrasil.Reactions.Attempts
import Yggdrasil.Manifest.CatchAll
import Yggdrasil.Manifest.Conditions
import Yggdrasil.Scim.Match
import Yggdrasil.Identity.Grants
import Yggdrasil.Identity.Ancestors
import Yggdrasil.Auth.Lockout
import Yggdrasil.Auth.Recovery
import Yggdrasil.Auth.Password
import Yggdrasil.Templates.Foreign
import Yggdrasil.Templates.Keys
import Yggdrasil.Templates.Compare
import Yggdrasil.Runs.Report
import Yggdrasil.Runs.Redaction
