import InferenceControlPlane.Distribution
import InferenceControlPlane.Exceptions
import InferenceControlPlane.Gateway.Access
import InferenceControlPlane.Gateway.Admission
import InferenceControlPlane.Gateway.Authentication
import InferenceControlPlane.Gateway.Breaker
import InferenceControlPlane.Gateway.Cache
import InferenceControlPlane.Gateway.CacheKeys
import InferenceControlPlane.Gateway.CacheSoundness
import InferenceControlPlane.Gateway.Configuration
import InferenceControlPlane.Gateway.Dashboard
import InferenceControlPlane.Gateway.Extraction
import InferenceControlPlane.Gateway.Fallback
import InferenceControlPlane.Gateway.Inference
import InferenceControlPlane.Gateway.Ledger
import InferenceControlPlane.Gateway.Lifespan
import InferenceControlPlane.Gateway.LlmClient
import InferenceControlPlane.Gateway.LogRows
import InferenceControlPlane.Gateway.Metrics
import InferenceControlPlane.Gateway.Outages
import InferenceControlPlane.Gateway.Phases
import InferenceControlPlane.Gateway.Pricing
import InferenceControlPlane.Gateway.Quotas
import InferenceControlPlane.Gateway.RateLimiter
import InferenceControlPlane.Gateway.Redaction
import InferenceControlPlane.Gateway.Reports
import InferenceControlPlane.Gateway.Responses
import InferenceControlPlane.Gateway.Retries
import InferenceControlPlane.Gateway.RetryAfter
import InferenceControlPlane.Gateway.Router
import InferenceControlPlane.Gateway.Schemas
import InferenceControlPlane.Gateway.Seeding
import InferenceControlPlane.Gateway.Service
import InferenceControlPlane.Gateway.Spending
import InferenceControlPlane.Gateway.Usage
import InferenceControlPlane.Gateway.Windows
import InferenceControlPlane.Inclusion
import InferenceControlPlane.Interleaving
import InferenceControlPlane.Interruptions
import InferenceControlPlane.Moments
import InferenceControlPlane.Overlap
import InferenceControlPlane.Procedures
import InferenceControlPlane.Programs
import InferenceControlPlane.Pruning
import InferenceControlPlane.Python.DateTime
import InferenceControlPlane.Python.Decimals
import InferenceControlPlane.Python.Dict
import InferenceControlPlane.Python.Files
import InferenceControlPlane.Python.Grouping
import InferenceControlPlane.Python.JsonBeginnings
import InferenceControlPlane.Python.JsonDocument
import InferenceControlPlane.Python.JsonText
import InferenceControlPlane.Python.Numbers
import InferenceControlPlane.Python.Overwriting
import InferenceControlPlane.Python.Regex
import InferenceControlPlane.Python.Renaming
import InferenceControlPlane.Python.Statistics
import InferenceControlPlane.Python.Substitution
import InferenceControlPlane.Python.Values
import InferenceControlPlane.Rearrangement
import InferenceControlPlane.Relational
import InferenceControlPlane.Runs
import InferenceControlPlane.Sli.Accounting
import InferenceControlPlane.Sli.Additivity
import InferenceControlPlane.Sli.Aggregator
import InferenceControlPlane.Sli.AtomicSave
import InferenceControlPlane.Sli.Batch
import InferenceControlPlane.Sli.Cardinality
import InferenceControlPlane.Sli.Checkpoint
import InferenceControlPlane.Sli.Cli
import InferenceControlPlane.Sli.Commit
import InferenceControlPlane.Sli.CompleteReads
import InferenceControlPlane.Sli.Concurrency
import InferenceControlPlane.Sli.Config
import InferenceControlPlane.Sli.Coverage
import InferenceControlPlane.Sli.Delivery
import InferenceControlPlane.Sli.Document
import InferenceControlPlane.Sli.DynamoItems
import InferenceControlPlane.Sli.DynamoRequests
import InferenceControlPlane.Sli.Emit
import InferenceControlPlane.Sli.ExportFiles
import InferenceControlPlane.Sli.ExportHistories
import InferenceControlPlane.Sli.Governance
import InferenceControlPlane.Sli.Governed
import InferenceControlPlane.Sli.Hardening
import InferenceControlPlane.Sli.Histories
import InferenceControlPlane.Sli.Horizon
import InferenceControlPlane.Sli.Instants
import InferenceControlPlane.Sli.LangfuseApi
import InferenceControlPlane.Sli.LeaveOneOut
import InferenceControlPlane.Sli.Models
import InferenceControlPlane.Sli.Normalize
import InferenceControlPlane.Sli.Pagination
import InferenceControlPlane.Sli.Percentiles
import InferenceControlPlane.Sli.Pipeline
import InferenceControlPlane.Sli.Privacy
import InferenceControlPlane.Sli.Quality
import InferenceControlPlane.Sli.ReadSteps
import InferenceControlPlane.Sli.Reconcile
import InferenceControlPlane.Sli.Reload
import InferenceControlPlane.Sli.Replay
import InferenceControlPlane.Sli.Reservoir
import InferenceControlPlane.Sli.ScoringOrder
import InferenceControlPlane.Sli.Stream
import InferenceControlPlane.Sli.Tables
import InferenceControlPlane.Sli.Totality
import InferenceControlPlane.Sli.Transmission
import InferenceControlPlane.Sli.VersionChain
import InferenceControlPlane.Tallies
