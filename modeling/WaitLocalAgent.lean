import WaitLocalAgent.Verification.Events.StatusAgreement
import WaitLocalAgent.Verification.Events.Exclusive
import WaitLocalAgent.Verification.Access.Deactivation
import WaitLocalAgent.Verification.Polling.SyncTime
import WaitLocalAgent.Verification.SmartActions.SingleRun
import WaitLocalAgent.Verification.Agents.Sessions
import WaitLocalAgent.Verification.Assets.Ownership
import WaitLocalAgent.Verification.Backup.FailedRestore
import WaitLocalAgent.Verification.Shelves.History
import WaitLocalAgent.Verification.Knowledge.VectorIndex
import WaitLocalAgent.Verification.Founder.Polling
import WaitLocalAgent.Verification.Scheduler.Mirror
import WaitLocalAgent.Verification.ProviderWrites.Once
import WaitLocalAgent.Verification.Events.Completions
import WaitLocalAgent.Verification.Supervisor.Cancellation
import WaitLocalAgent.Verification.Playbooks.Preflight
import WaitLocalAgent.Verification.Agents.Orphans
import WaitLocalAgent.Verification.Tickets.Atomicity
import WaitLocalAgent.Verification.PowerPlatform.Status
import WaitLocalAgent.Verification.PowerPlatform.Closure
import WaitLocalAgent.Verification.PowerPlatform.Materialization
import WaitLocalAgent.Verification.SmartActions.Payloads
import WaitLocalAgent.Verification.PowerPlatform.Rebuild
import WaitLocalAgent.Verification.AgentPlatform.Skills
import WaitLocalAgent.Verification.Access.RoleAdditions
import WaitLocalAgent.Verification.Events.OrderIndependence
import WaitLocalAgent.Verification.Polling.Sweep
import WaitLocalAgent.Verification.Agents.Exhaustion
import WaitLocalAgent.Verification.Shelves.Restored
import WaitLocalAgent.Verification.Playbooks.Authored
import WaitLocalAgent.Verification.Agents.Recordings
import WaitLocalAgent.Verification.OperationalGraph.Views
import WaitLocalAgent.Verification.Tickets.Reingestion
import WaitLocalAgent.Verification.Redaction.Config
import WaitLocalAgent.Verification.FounderBundle.Hiding
import WaitLocalAgent.Verification.Baselines.Unchanged
import WaitLocalAgent.Verification.Workflows.FixedPoints
import WaitLocalAgent.Verification.Updates.Order
import WaitLocalAgent.Verification.Updates.Grammar
import WaitLocalAgent.Verification.AgentPlatform.Context
import WaitLocalAgent.Verification.AgentPlatform.Verdicts
import WaitLocalAgent.Verification.ClientDiscovery.Current
import WaitLocalAgent.Verification.NetSecurity.Pinned
