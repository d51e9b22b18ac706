import Hepha.PhaseGate.Soundness
import Hepha.Runtime.Reopen
import Hepha.Runtime.Forward
import Hepha.Review.Sound
import Hepha.Replan.Readable
import Hepha.Replan.Dispatch
import Hepha.Exchange.Revision
import Hepha.Prompt.RoundTrip
import Hepha.Connections.InStep
import Hepha.Debt.Clients
import Hepha.Debt.Quotable
import Hepha.Debt.Ready
import Hepha.Lib.Search
import Hepha.Routing.Agreement
import Hepha.Routing.Reset
import Hepha.Rollout.Controlled
import Hepha.Artifacts.Published
import Hepha.Artifacts.Publisher
import Hepha.Reconcile.Retried
import Hepha.Reconcile.Migrated
import Hepha.Verification.Counted
import Hepha.Phases.Contract
import Hepha.Phases.Document
import Hepha.Phases.Events
import Hepha.Phases.Parity
import Hepha.Phases.Projection
import Hepha.Coverage.Groups
import Hepha.Coverage.Lossless
import Hepha.Payload.Exact
import Hepha.Preview.PlanHash
import Hepha.Coverage.Selected
import Hepha.Delivery.Repeated
import Hepha.Workflow.Layouts
import Hepha.Verification.Executed
import Hepha.Phases.Checkpoint
import Hepha.Preview.Candidates
import Hepha.Phases.Numbered
import Hepha.Preview.Order
import Hepha.Exchange.DeepDive
import Hepha.Review.Canonical
import Hepha.Exchange.DuplicateKeys
import Hepha.Verification.PlanAdmitted
import Hepha.Verification.Continued
import Hepha.Routing.History
import Hepha.Routing.Cycles
import Hepha.Catalog.Turns
import Hepha.Catalog.Agreement
import Hepha.Runtime.Executed
import Hepha.Runtime.Reported
import Hepha.Autonomous.Passes
import Hepha.Recovery.Chain
import Hepha.Continuation.Announced
import Hepha.PhaseExit.Reviewed
