import Ochestrate.Agents.Confirmation
import Ochestrate.Agents.Executor
import Ochestrate.Agents.Idempotency
import Ochestrate.Agents.Outcomes
import Ochestrate.Agents.Planner
import Ochestrate.Agents.Requirements
import Ochestrate.Agents.Reviewer
import Ochestrate.Api.Administration
import Ochestrate.Api.Agent
import Ochestrate.Api.AgentIsolation
import Ochestrate.Api.Entry
import Ochestrate.Api.Errors
import Ochestrate.Api.Events
import Ochestrate.Api.Evidence
import Ochestrate.Api.Feedback
import Ochestrate.Api.Gateway
import Ochestrate.Api.Identity
import Ochestrate.Api.Isolation
import Ochestrate.Api.Knowledge
import Ochestrate.Api.Platform
import Ochestrate.Api.RequestContext
import Ochestrate.Api.Skills
import Ochestrate.Api.Tasks
import Ochestrate.Api.Turns
import Ochestrate.Api.Users
import Ochestrate.Auth.AccessTokens
import Ochestrate.Auth.Bootstrap
import Ochestrate.Auth.FailedRefresh
import Ochestrate.Auth.FirstAdmin
import Ochestrate.Auth.Passwords
import Ochestrate.Auth.RefreshRace
import Ochestrate.Auth.Schemas
import Ochestrate.Auth.Service
import Ochestrate.Auth.Sessions
import Ochestrate.Auth.UserUpdates
import Ochestrate.Auth.Verification
import Ochestrate.Context.Budget
import Ochestrate.Framework.Agree
import Ochestrate.Framework.Along
import Ochestrate.Framework.Batches
import Ochestrate.Framework.Candidate
import Ochestrate.Framework.Dict
import Ochestrate.Framework.Disk
import Ochestrate.Framework.EventSource
import Ochestrate.Framework.Fault
import Ochestrate.Framework.Files
import Ochestrate.Framework.Glob
import Ochestrate.Framework.Groups
import Ochestrate.Framework.Interference
import Ochestrate.Framework.Labels
import Ochestrate.Framework.Machine
import Ochestrate.Framework.Observer
import Ochestrate.Framework.Paths
import Ochestrate.Framework.Ranking
import Ochestrate.Framework.Rounding
import Ochestrate.Framework.Slices
import Ochestrate.Framework.SqlTokens
import Ochestrate.Framework.StateGraph
import Ochestrate.Framework.Strings
import Ochestrate.Framework.Text
import Ochestrate.Framework.TextLines
import Ochestrate.Framework.Transcript
import Ochestrate.Framework.Window
import Ochestrate.Framework.Words
import Ochestrate.Learning.Batches
import Ochestrate.Learning.Pipeline
import Ochestrate.Memory.LongTerm
import Ochestrate.Memory.Service
import Ochestrate.Models.Clients
import Ochestrate.Models.Router
import Ochestrate.Observability.AuditLog
import Ochestrate.Observability.Metrics
import Ochestrate.Orchestration.Graph
import Ochestrate.Orchestration.Outcome
import Ochestrate.Orchestration.Platform
import Ochestrate.Orchestration.Service
import Ochestrate.Orchestration.TenantView
import Ochestrate.Orchestration.ToolRuns
import Ochestrate.Prompts.Assembly
import Ochestrate.Rag.Chunks
import Ochestrate.Rag.Ingestion
import Ochestrate.Rag.Retriever
import Ochestrate.Rag.Store
import Ochestrate.Schemas.Api
import Ochestrate.Schemas.Json
import Ochestrate.Schemas.JsonText
import Ochestrate.Schemas.Same
import Ochestrate.Schemas.Value
import Ochestrate.Skills.Center
import Ochestrate.Skills.Context
import Ochestrate.Skills.Latest
import Ochestrate.Skills.Listing
import Ochestrate.Skills.ScanOrder
import Ochestrate.Skills.Store
import Ochestrate.Skills.Versions
import Ochestrate.Storage.AuthRepo
import Ochestrate.Storage.AuthTables
import Ochestrate.Storage.AuthTenants
import Ochestrate.Storage.FeedbackRepo
import Ochestrate.Storage.KnowledgeModes
import Ochestrate.Storage.KnowledgeRepo
import Ochestrate.Storage.TaskRepo
import Ochestrate.Storage.TaskTables
import Ochestrate.Tools.Accounting
import Ochestrate.Tools.Base
import Ochestrate.Tools.Cache
import Ochestrate.Tools.Confinement
import Ochestrate.Tools.Database
import Ochestrate.Tools.Domains
import Ochestrate.Tools.FileTool
import Ochestrate.Tools.Hub
import Ochestrate.Tools.Office
import Ochestrate.Tools.SearchResults
import Ochestrate.Tools.Security
import Ochestrate.Tools.TenantScope
import Ochestrate.Tools.TextFiles
import Ochestrate.Tools.WebFetch
import Ochestrate.Tools.WebSearch
import Ochestrate.Tools.WriteGuard
import Ochestrate.Workers.Agreement
import Ochestrate.Workers.Cluster
import Ochestrate.Workers.Delivery
import Ochestrate.Workers.Faults
import Ochestrate.Workers.Life
import Ochestrate.Workers.Manager
import Ochestrate.Workers.Node
import Ochestrate.Workers.Placement
import Ochestrate.Workers.Recovery
import Ochestrate.Workers.Reexecution
import Ochestrate.Workers.Step
import Ochestrate.Workers.Streams
