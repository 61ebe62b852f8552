import EvalOps.Adapters
import EvalOps.AgentEvaluators
import EvalOps.Aggregate
import EvalOps.Api.Create
import EvalOps.Api.Diagnostics
import EvalOps.Api.Reads
import EvalOps.Api.Results
import EvalOps.Api.Runs
import EvalOps.Api.Store
import EvalOps.BuiltEvaluators
import EvalOps.Calibration
import EvalOps.Ci
import EvalOps.Cli
import EvalOps.ConcurrentExecutions
import EvalOps.Config
import EvalOps.ConfigFile
import EvalOps.Contracts
import EvalOps.Dashboard.DiagnosticsPanel
import EvalOps.Dashboard.Jsonl
import EvalOps.Dashboard.Proxy
import EvalOps.Dashboard.ResultPanel
import EvalOps.Dashboard.RunConfig
import EvalOps.Datasets
import EvalOps.Db.AsyncJobs
import EvalOps.Db.Mapping
import EvalOps.Db.Repositories
import EvalOps.Db.Session
import EvalOps.Diagnostics
import EvalOps.Domain.Constructors
import EvalOps.Domain.Entities
import EvalOps.Domain.Errors
import EvalOps.Domain.ValueObjects
import EvalOps.EvaluatorSpecs
import EvalOps.Evaluators
import EvalOps.Execution
import EvalOps.ExecutionLog
import EvalOps.ExecutionService
import EvalOps.Gate
import EvalOps.Judge
import EvalOps.Lib.CodePoints
import EvalOps.Lib.Dict
import EvalOps.Lib.Doubles
import EvalOps.Lib.EffectRules
import EvalOps.Lib.ExceptRules
import EvalOps.Lib.FloatText
import EvalOps.Lib.Grouping
import EvalOps.Lib.Interpolation
import EvalOps.Lib.JsText
import EvalOps.Lib.Json
import EvalOps.Lib.JsonEquality
import EvalOps.Lib.JsonLayouts
import EvalOps.Lib.JsonLimits
import EvalOps.Lib.JsonReader
import EvalOps.Lib.JsonReading
import EvalOps.Lib.JsonRoundTrip
import EvalOps.Lib.Lists
import EvalOps.Lib.LossyText
import EvalOps.Lib.Numerals
import EvalOps.Lib.Occurrences
import EvalOps.Lib.Positions
import EvalOps.Lib.Programs
import EvalOps.Lib.PyFloat
import EvalOps.Lib.PyText
import EvalOps.Lib.Raises
import EvalOps.Lib.Regex
import EvalOps.Lib.Repetition
import EvalOps.Lib.Runs
import EvalOps.Lib.Sorting
import EvalOps.Lib.Subsequences
import EvalOps.Lib.Substitution
import EvalOps.Lib.TextFiles
import EvalOps.Lib.Transactions
import EvalOps.Lib.Trimming
import EvalOps.Lib.Watched
import EvalOps.Lib.WireText
import EvalOps.Lib.Words
import EvalOps.Lib.Yields
import EvalOps.MockProvider
import EvalOps.Obs.LogScopes
import EvalOps.Obs.Logging
import EvalOps.Obs.Middleware
import EvalOps.Obs.Redact
import EvalOps.Prompt
import EvalOps.Proofs.Adapters
import EvalOps.Proofs.Aggregate
import EvalOps.Proofs.Agreement
import EvalOps.Proofs.Assess
import EvalOps.Proofs.AsyncJobs
import EvalOps.Proofs.BearerTokens
import EvalOps.Proofs.Bootstrap
import EvalOps.Proofs.BuiltEvaluators
import EvalOps.Proofs.Calibration
import EvalOps.Proofs.CaseIds
import EvalOps.Proofs.Ci
import EvalOps.Proofs.CiReport
import EvalOps.Proofs.Cli
import EvalOps.Proofs.ConcurrentExecutions
import EvalOps.Proofs.ConfigErrors
import EvalOps.Proofs.ConfigFile
import EvalOps.Proofs.Confusion
import EvalOps.Proofs.Datasets
import EvalOps.Proofs.Diagnostics
import EvalOps.Proofs.DiagnosticsPanel
import EvalOps.Proofs.DiagnosticsTotals
import EvalOps.Proofs.EvaluatorNames
import EvalOps.Proofs.Evidence
import EvalOps.Proofs.EvidencePanel
import EvalOps.Proofs.ExecutionLog
import EvalOps.Proofs.Explains
import EvalOps.Proofs.Framing
import EvalOps.Proofs.Gate
import EvalOps.Proofs.GateLines
import EvalOps.Proofs.Interleaving
import EvalOps.Proofs.Intervals
import EvalOps.Proofs.Isolation
import EvalOps.Proofs.Jsonl
import EvalOps.Proofs.Judge
import EvalOps.Proofs.Latency
import EvalOps.Proofs.LoadedPlans
import EvalOps.Proofs.LogScopes
import EvalOps.Proofs.Logged
import EvalOps.Proofs.Mapping
import EvalOps.Proofs.Middleware
import EvalOps.Proofs.MockProvider
import EvalOps.Proofs.Order
import EvalOps.Proofs.Percentile
import EvalOps.Proofs.Pipeline
import EvalOps.Proofs.Policy
import EvalOps.Proofs.Promotion
import EvalOps.Proofs.Quality
import EvalOps.Proofs.Rag
import EvalOps.Proofs.Reads
import EvalOps.Proofs.Redact
import EvalOps.Proofs.Replay
import EvalOps.Proofs.ResultPanel
import EvalOps.Proofs.Results
import EvalOps.Proofs.Returns
import EvalOps.Proofs.Runner
import EvalOps.Proofs.Security
import EvalOps.Proofs.StuckJobs
import EvalOps.Proofs.TokenPasses
import EvalOps.Proofs.ToolArguments
import EvalOps.Proofs.Trajectory
import EvalOps.Proofs.Units
import EvalOps.Providers
import EvalOps.RagEvaluators
import EvalOps.Report
import EvalOps.Runner
import EvalOps.Security
import EvalOps.Stats
import EvalOps.Worker.Interleaving
import EvalOps.Worker.Logged
import EvalOps.Worker.Tasks
import EvalOps.Yaml
