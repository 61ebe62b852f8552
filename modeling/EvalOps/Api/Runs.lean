import EvalOps.Api.Diagnostics

/-!
# `EvalOps.Api.Runs`: the runs of a persisted experiment

The route `GET /experiments/{id}/runs` behind its lookup of the experiment, and the schemas of a run
in `api/schemas.py`. The rows are taken as the domain objects that they map to.
-/

set_option autoImplicit false

namespace EvalOps

/-- `UsageRead`. -/
structure UsageRead where
  promptTokens : ℕ
  completionTokens : ℕ
  totalTokens : ℕ
  costUsd : ℚ
  latencyMs : ℚ

/-- `EvaluatorScoreRead`. -/
structure EvaluatorScoreRead where
  evaluator : String
  family : EvaluatorFamily
  score : ℚ
  passed : Option Bool
deriving DecidableEq

/-- `RetrievedItemRead`. -/
structure RetrievedItemRead where
  docId : String
  content : String
  rank : ℕ
  score : Option ℚ

/-- `ToolCallRead`. -/
structure ToolCallRead where
  name : String
  arguments : List (String × Json)
  result : Json
  ok : Bool
  error : Option String

/-- `EvaluationRunRead`. -/
structure EvaluationRunRead where
  id : String
  systemVersionId : String
  caseId : String
  repeatIndex : ℕ
  output : String
  error : Option String
  usage : UsageRead
  scores : List EvaluatorScoreRead
  retrieval : List RetrievedItemRead
  toolCalls : List ToolCallRead
  createdAt : Timestamp

/-- The score of one evaluator in `EvaluationRunRead.of`. -/
def EvaluatorScoreRead.of (score : EvaluatorScore) : EvaluatorScoreRead where
  evaluator := score.evaluator.text
  family := score.family
  score := score.score
  passed := score.passed

/-- `EvaluationRunRead.of`. -/
def EvaluationRunRead.of (run : EvaluationRun) (caseResult : Option CaseResult) :
    EvaluationRunRead where
  id := run.id.text
  systemVersionId := run.systemVersionId.text
  caseId := run.caseId.text
  repeatIndex := run.repeatIndex
  output := run.output
  error := run.error.map NonBlank.text
  usage :=
    { promptTokens := run.usage.promptTokens
      completionTokens := run.usage.completionTokens
      totalTokens := run.usage.promptTokens + run.usage.completionTokens
      costUsd := run.usage.costUsd
      latencyMs := run.usage.latencyMs }
  scores :=
    match caseResult with
    | none => []
    | some caseResult => caseResult.scores.map EvaluatorScoreRead.of
  retrieval := run.retrieval.map fun item =>
    { docId := item.docId.text, content := item.content, rank := item.rank, score := item.score }
  toolCalls := run.toolCalls.map fun call =>
    { name := call.name.text
      arguments := call.arguments
      result := call.result
      ok := call.ok
      error := call.error.map NonBlank.text }
  createdAt := run.createdAt

/-- `list_experiment_runs`, behind the lookup of the experiment. -/
def listExperimentRuns (records : EvaluationRecords) (experimentId : EntityId) :
    Py (List EvaluationRunRead) :=
  (records.listForExperiment experimentId).mapM fun run => do
    let caseResult ← records.getCaseResultForRun run.id
    pure (.of run caseResult)

end EvalOps
