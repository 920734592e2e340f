import Chennix.Foundations.Budget
import Chennix.Foundations.Calendar
import Chennix.Foundations.Checked
import Chennix.Foundations.Emitter
import Chennix.Foundations.Float64
import Chennix.Foundations.Framing
import Chennix.Foundations.History
import Chennix.Foundations.Json
import Chennix.Foundations.Lines
import Chennix.Foundations.Lockstep
import Chennix.Foundations.Lossy
import Chennix.Foundations.Map
import Chennix.Foundations.Merging
import Chennix.Foundations.Mirroring
import Chennix.Foundations.Path
import Chennix.Foundations.Program
import Chennix.Foundations.Reordering
import Chennix.Foundations.Rollback
import Chennix.Foundations.Rounding
import Chennix.Foundations.Simulation
import Chennix.Foundations.Slots
import Chennix.Foundations.StableSort
import Chennix.Foundations.Table
import Chennix.Foundations.Text
import Chennix.Foundations.Transaction
import Chennix.Foundations.Unwinding
import Chennix.Foundations.Utf8
import Chennix.Foundations.Views
import Chennix.Foundations.WeightedDraw
import Chennix.Common.Display
import Chennix.Common.Types
import Chennix.Storage.Accounts
import Chennix.Storage.Bootstrap
import Chennix.Storage.Channels
import Chennix.Storage.Import
import Chennix.Storage.Keys
import Chennix.Storage.Models
import Chennix.Storage.Reports
import Chennix.Storage.Schema
import Chennix.Translator.C2O
import Chennix.Translator.ClaudeToOpenaiStream
import Chennix.Translator.Conversation
import Chennix.Translator.O2C
import Chennix.Translator.OpenaiToClaudeStream
import Chennix.Translator.ResponseRoundTrip
import Chennix.Translator.RoundTrip
import Chennix.Translator.Schema
import Chennix.Translator.ToolCalls
import Chennix.Adaptor.Usage
import Chennix.Core.Billing
import Chennix.Core.Cache
import Chennix.Core.Executor
import Chennix.Core.Health
import Chennix.Core.Interface
import Chennix.Core.LoadBalance
import Chennix.Core.Normalizer
import Chennix.Core.Pricing
import Chennix.Core.Router
import Chennix.Core.Tracker
import Chennix.Server.Accounts
import Chennix.Server.Admin
import Chennix.Server.Administration
import Chennix.Server.Auth
import Chennix.Server.Candidates
import Chennix.Server.ConnectionTest
import Chennix.Server.Events
import Chennix.Server.Gateway
import Chennix.Server.Loader
import Chennix.Server.Middleware
import Chennix.Server.Pipeline
import Chennix.Server.PriorityOrder
import Chennix.Server.Process
import Chennix.Server.ProxyRequest
import Chennix.Server.Reports
import Chennix.Server.Service
import Chennix.Server.Setup
import Chennix.Server.Site
import Chennix.Server.SseFrameParser
import Chennix.Server.State
import Chennix.Server.StreamResponse
import Chennix.Server.StreamTask
import Chennix.Health.Availability
import Chennix.Health.Backoff
import Chennix.Health.HeldBack
import Chennix.Health.History
import Chennix.Billing.Books
import Chennix.Billing.Conservation
import Chennix.Billing.Exhaustion
import Chennix.Billing.Overdraft
import Chennix.Billing.Refinement
import Chennix.Billing.Sessions
import Chennix.Billing.Shutdown
import Chennix.Billing.TokenCounts
import Chennix.Execution.Audit
import Chennix.Execution.BindingCap
import Chennix.Execution.Calls
import Chennix.Execution.Cancellation
import Chennix.Execution.Failover
import Chennix.Execution.Ledger
import Chennix.Execution.Outgoing
import Chennix.Execution.Retries
import Chennix.Execution.Routing
import Chennix.Execution.Secrecy
import Chennix.Execution.Settlement
import Chennix.Execution.Story
import Chennix.Config.ApiKeys
import Chennix.Config.Coherence
import Chennix.Config.Deletion
import Chennix.Config.Discovery
import Chennix.Config.Enforcement
import Chennix.Config.Invalidation
import Chennix.Config.KeyOrders
import Chennix.Config.LastInLine
import Chennix.Config.Names
import Chennix.Config.QuotaCopies
import Chennix.Config.Reordering
import Chennix.Config.Tally
import Chennix.Config.Wiring
import Chennix.Access.Isolation
import Chennix.Access.Mediation
import Chennix.Access.Ownership
import Chennix.Access.Privilege
import Chennix.Access.Sessions
import Chennix.Streaming.Agreement
import Chennix.Streaming.Answers
import Chennix.Streaming.Bracketing
import Chennix.Streaming.Chunking
import Chennix.Streaming.Clients
import Chennix.Streaming.Content
import Chennix.Streaming.Delivery
import Chennix.Streaming.Departure
import Chennix.Streaming.FinalUsage
import Chennix.Streaming.Messages
import Chennix.Streaming.Metering
import Chennix.Streaming.Termination
import Chennix.Streaming.Totals
