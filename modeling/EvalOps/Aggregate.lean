import EvalOps.Runner

/-!
# `EvalOps.Aggregate`: experiment-level aggregation

`aggregate.py`. `aggregateResults` validates a `RunOutcome`, splits its runs by version and
computes the fixed set of metrics: `success_rate`, a `pass_rate` and a `mean_score` for each
evaluator, `latency_ms.mean`, `latency_ms.p95` and `cost_usd.total`.
-/

set_option autoImplicit false

namespace EvalOps

/-- `f"{name}.pass_rate"`. -/
def passRateMetric (name : String) : String := name ++ ".pass_rate"

/-- `f"{name}.mean_score"`. -/
def meanScoreMetric (name : String) : String := name ++ ".mean_score"

/-- `expected_metric_names`: what `aggregateResults` produces, in order. -/
def expectedMetricNames (evaluatorNames : List String) : List String :=
  "success_rate" ::
    (evaluatorNames.flatMap fun name => [passRateMetric name, meanScoreMetric name]) ++
      ["latency_ms.mean", "latency_ms.p95", "cost_usd.total"]

/-- `_success_rate`. -/
def successRate (runs : List EvaluationRun) : ℚ :=
  if runs.isEmpty then 0
  else (runs.countP fun r => r.error.isNone : ℚ) / runs.length

/-- `{s.evaluator: s for s in scores}.get(name)`. -/
def scoreOf (scores : List EvaluatorScore) (name : String) : Option EvaluatorScore :=
  (Dict.ofList (scores.map fun s => (s.evaluator.text, s))).get? name

/-- `results_by_run[run.id].scores`, and the score of the evaluator in it. -/
def requireScore (resultsByRun : Dict EntityId CaseResult) (run : EvaluationRun)
    (evaluatorName : String) : Py EvaluatorScore :=
  match resultsByRun.get? run.id with
  | none => throw ⟨.keyError, PyText.repr run.id.text⟩
  | some caseResult =>
      match scoreOf caseResult.scores evaluatorName with
      | none =>
          throw (.config ("successful run " ++ PyText.repr run.id.text ++ " is missing the " ++
            PyText.repr evaluatorName ++ " evaluator score"))
      | some score => pure score

/-- `_pass_rate`. A failed run counts in the denominator and does not pass. -/
def passRate (runs : List EvaluationRun) (resultsByRun : Dict EntityId CaseResult)
    (evaluatorName : String) : Py ℚ := do
  if runs.isEmpty then pure 0
  else
    let passed ← runs.foldlM (fun (passed : ℕ) run => do
      if run.error.isSome then pure passed
      else
        let score ← requireScore resultsByRun run evaluatorName
        pure (if score.passed = some true then passed + 1 else passed)) 0
    pure ((passed : ℚ) / runs.length)

/-- `_mean_score`. A failed run contributes `0` and counts in the denominator. -/
def meanScore (runs : List EvaluationRun) (resultsByRun : Dict EntityId CaseResult)
    (evaluatorName : String) : Py ℚ := do
  if runs.isEmpty then pure 0
  else
    let total ← runs.foldlM (fun (total : ℚ) run => do
      if run.error.isSome then pure total
      else
        let score ← requireScore resultsByRun run evaluatorName
        pure (total + score.score)) 0
    pure (total / runs.length)

/-- `_successful_latencies`. -/
def successfulLatencies (runs : List EvaluationRun) : List ℚ :=
  (runs.filter fun r => r.error.isNone).map fun r => r.usage.latencyMs

/-- `_latency_mean`: `0` when no run succeeded. -/
def latencyMean (runs : List EvaluationRun) : ℚ :=
  let values := successfulLatencies runs
  if values.isEmpty then 0 else values.sum / values.length

/-- `_latency_p95`: the nearest-rank percentile, `0` when no run succeeded. -/
def latencyP95 (runs : List EvaluationRun) : Py ℚ :=
  let values := Sorting.sorted (successfulLatencies runs)
  if values.isEmpty then pure 0
  else
    let rank := ⌈(19 / 20 : ℚ) * values.length⌉
    pyIndex values (rank - 1)

/-- `_cost_total`. -/
def costTotal (runs : List EvaluationRun) : ℚ := (runs.map fun r => r.usage.costUsd).sum

/-- The alignment check of `_validate_outcome` at one index. -/
def requireAligned (entry : (EvaluationRun × CaseResult) × ℕ) : Py Unit :=
  let ((run, caseResult), index) := entry
  if caseResult.runId ≠ run.id then
    throw (.config (s!"RunOutcome misaligned at index {index}: case_result.run_id " ++
      PyText.repr caseResult.runId.text ++ " != run.id " ++ PyText.repr run.id.text))
  else pure ()

/-- The per-run checks of `_validate_outcome`. -/
def requireRunOf (experiment : Experiment) (required : List String)
    (entry : EvaluationRun × CaseResult) : Py Unit := do
  let (run, caseResult) := entry
  if run.experimentId ≠ experiment.id then
    throw (.config ("run " ++ PyText.repr run.id.text ++ " has experiment_id " ++
      PyText.repr run.experimentId.text ++ ", expected " ++ PyText.repr experiment.id.text))
  if run.systemVersionId ∉ [experiment.baselineVersionId, experiment.candidateVersionId] then
    throw (.config ("run " ++ PyText.repr run.id.text ++ " has unexpected system_version_id " ++
      PyText.repr run.systemVersionId.text))
  if run.error.isNone then
    let missing := Sorting.sorted
      (required.filter fun name => name ∉ caseResult.scores.map fun s => s.evaluator.text)
    if missing ≠ [] then
      throw (.config ("successful run " ++ PyText.repr run.id.text ++
        " is missing evaluator score(s): " ++ PyText.reprList missing))

/-- `_validate_outcome`. -/
def validateOutcome (experiment : Experiment) (outcome : RunOutcome)
    (evaluatorNames : List String) : Py Unit := do
  if outcome.runs.length ≠ outcome.caseResults.length then
    throw (.config (s!"RunOutcome has {outcome.runs.length} runs but " ++
      s!"{outcome.caseResults.length} case results"))
  if ¬(outcome.runs.map EvaluationRun.id).Nodup then
    throw (.config "RunOutcome contains duplicate EvaluationRun ids")
  let scored := outcome.runs.zip outcome.caseResults
  scored.zipIdx.forM requireAligned
  if ¬evaluatorNames.Nodup then
    throw (.config ("evaluator_names contains duplicates: " ++
      PyText.reprList (Sorting.sorted evaluatorNames)))
  scored.forM (requireRunOf experiment evaluatorNames.dedup)

/-- The two comparisons that `aggregate_results` appends for one evaluator. -/
def evaluatorMetrics (baselineRuns candidateRuns : List EvaluationRun)
    (resultsByRun : Dict EntityId CaseResult) (name : String) : Py (List MetricComparison) := do
  let passRates ← MetricComparison.make (passRateMetric name)
    (← passRate baselineRuns resultsByRun name) (← passRate candidateRuns resultsByRun name)
  let meanScores ← MetricComparison.make (meanScoreMetric name)
    (← meanScore baselineRuns resultsByRun name) (← meanScore candidateRuns resultsByRun name)
  pure [passRates, meanScores]

/-- `aggregate_results`. -/
def aggregateResults (experiment : Experiment) (outcome : RunOutcome)
    (evaluatorNames : List String) (stamp : Stamp) : Py EvaluationResult := do
  validateOutcome experiment outcome evaluatorNames
  let baselineId := experiment.baselineVersionId
  let candidateId := experiment.candidateVersionId
  let baselineRuns := outcome.runs.filter fun r => decide (r.systemVersionId = baselineId)
  let candidateRuns := outcome.runs.filter fun r => decide (r.systemVersionId = candidateId)
  if baselineRuns.isEmpty then
    throw (.config ("no runs for baseline version " ++ PyText.repr baselineId.text))
  if candidateRuns.isEmpty then
    throw (.config ("no runs for candidate version " ++ PyText.repr candidateId.text))
  let resultsByRun := Dict.ofList (outcome.caseResults.map fun cr => (cr.runId, cr))
  let success ← MetricComparison.make "success_rate"
    (successRate baselineRuns) (successRate candidateRuns)
  let perEvaluator ← evaluatorNames.mapM
    (evaluatorMetrics baselineRuns candidateRuns resultsByRun)
  let latencyMeans ← MetricComparison.make "latency_ms.mean"
    (latencyMean baselineRuns) (latencyMean candidateRuns)
  let latencyP95s ← MetricComparison.make "latency_ms.p95"
    (← latencyP95 baselineRuns) (← latencyP95 candidateRuns)
  let costs ← MetricComparison.make "cost_usd.total"
    (costTotal baselineRuns) (costTotal candidateRuns)
  EvaluationResult.make experiment.id
    (success :: perEvaluator.flatten ++ [latencyMeans, latencyP95s, costs]) [] stamp

end EvalOps
