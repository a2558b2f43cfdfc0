import RecoverAI.Store.Table
import RecoverAI.Store.Txn
import RecoverAI.Store.Wp
import RecoverAI.Store.Schedule
import RecoverAI.Text.Python
import RecoverAI.Text.Uuid
import RecoverAI.Text.Json
import RecoverAI.Models.Enums
import RecoverAI.Models.Tables
import RecoverAI.Models.Statements
import RecoverAI.Models.Views
import RecoverAI.Models.Rules
import RecoverAI.Config
import RecoverAI.Domain.Money
import RecoverAI.Domain.RecoveryState
import RecoverAI.Domain.Recovery
import RecoverAI.Domain.Policy
import RecoverAI.Domain.PolicyLaws
import RecoverAI.Domain.RecoveryEngine
import RecoverAI.Services.PolicyService
import RecoverAI.Services.RecoveryActions
import RecoverAI.Services.RecoveryCases
import RecoverAI.Agents.RecoveryAgent
import RecoverAI.Webhooks.Schemas
import RecoverAI.Webhooks.Handlers
import RecoverAI.Webhooks.Razorpay
import RecoverAI.Integrations
import RecoverAI.Services.ActionExecutor
import RecoverAI.Tasks.Recovery
import RecoverAI.System.Processes
import RecoverAI.Effects.Services
import RecoverAI.Effects.Eligible
import RecoverAI.Effects.Executor
import RecoverAI.Effects.Webhook
import RecoverAI.Effects.Commits
import RecoverAI.Effects.Work
import RecoverAI.Invariants.Growth
import RecoverAI.Invariants.Sound
import RecoverAI.Concurrency.Ledger
import RecoverAI.Concurrency.Once
import RecoverAI.Concurrency.History
import RecoverAI.Concurrency.StaleClaims
import RecoverAI.Concurrency.Audits
import RecoverAI.Serial.Statements
import RecoverAI.Serial.Decision
import RecoverAI.Serial.Claim
import RecoverAI.Serial.Outcome
import RecoverAI.Serial.Influence
import RecoverAI.Serial.Ignored
import RecoverAI.Serial.Agreement
import RecoverAI.Outbox.Dispatcher
import RecoverAI.Outbox.Accounting
import RecoverAI.Simulation.Strategies
import RecoverAI.Simulation.Experiment
import RecoverAI.Simulation.Production
import RecoverAI.Serial.Limits
import RecoverAI.Serial.Gates
import RecoverAI.Outbox.Draining
import RecoverAI.Store.Writes
import RecoverAI.Concurrency.Amounts
import RecoverAI.Concurrency.Creation
import RecoverAI.Store.Total
import RecoverAI.Serial.Columns
import RecoverAI.Serial.Storable
import RecoverAI.Concurrency.Tenants
import RecoverAI.System.World
import RecoverAI.Runs.Lifecycle
import RecoverAI.Concurrency.Intents
import RecoverAI.Store.Paging
import RecoverAI.Services.Dashboard
import RecoverAI.Domain.Conversion
import RecoverAI.Runs.Captures
import RecoverAI.Runs.Messages
import RecoverAI.Runs.Redelivery
import RecoverAI.Runs.Accountable
import RecoverAI.Runs.Limits
import RecoverAI.Runs.Explained
import RecoverAI.Runs.Metrics
