import EvalOps.Api.Create
import EvalOps.Db.Repositories
import EvalOps.Report

/-!
# `EvalOps.Api.Results`: the response of a run and the results view

The routes `POST /experiments/{id}/run` and `GET /experiments/{id}/results`, and their schemas of
`api/schemas.py`. The release decision is not stored: the second route gates the stored result
again.
-/

set_option autoImplicit false

namespace EvalOps

/-! ### Schemas -/

/-- `MetricLineRead`. -/
structure MetricLineRead where
  metric : String
  baselineValue : ℚ
  candidateValue : ℚ
  delta : ℚ
  relativeDelta : Option ℚ
  direction : String
  threshold : Option ℚ
  adverseChange : Option ℚ
  regression : Bool
  gateOutcome : String
deriving DecidableEq

/-- `SampleSummaryRead`. -/
structure SampleSummaryRead where
  n : ℕ
  mean : ℚ
  median : ℚ
  stdev : ℚ
deriving DecidableEq

/-- `_summary`. -/
def SampleSummaryRead.of (s : SampleSummary) : SampleSummaryRead := ⟨s.n, s.mean, s.median, s.stdev⟩

/-- `MetricEvidenceRead`. -/
structure MetricEvidenceRead where
  metric : String
  kind : String
  nPairs : ℕ
  baseline : SampleSummaryRead
  candidate : SampleSummaryRead
  pairedDelta : SampleSummaryRead
  delta : ℚ
  relativeChange : Option ℚ
  confidenceLevel : ℚ
  ciLow : Option ℚ
  ciHigh : Option ℚ
  ciExcludesZero : Bool
  insufficientEvidence : Bool
  droppedProviderFailures : ℕ
  method : String
deriving DecidableEq

/-- `MetricEvidenceRead.of`. -/
def MetricEvidenceRead.of (value : MetricEvidence) : MetricEvidenceRead where
  metric := value.metric
  kind := value.kind.value
  nPairs := value.nPairs
  baseline := .of value.baseline
  candidate := .of value.candidate
  pairedDelta := .of value.pairedDelta
  delta := value.delta
  relativeChange := value.relativeChange
  confidenceLevel := value.confidenceLevel
  ciLow := value.ciLow
  ciHigh := value.ciHigh
  ciExcludesZero := value.ciExcludesZero
  insufficientEvidence := value.insufficientEvidence
  droppedProviderFailures := value.droppedProviderFailures
  method := value.method

/-- The line of one metric, with the verdict under its name. -/
def metricLineRead (verdicts : Dict String MetricVerdict) (mc : MetricComparison) :
    Py MetricLineRead :=
  match verdicts.get? mc.metric with
  | none => throw ⟨.keyError, PyText.repr mc.metric⟩
  | some verdict =>
      pure
        { metric := mc.metric
          baselineValue := mc.baselineValue
          candidateValue := mc.candidateValue
          delta := mc.delta
          relativeDelta := mc.relativeDelta
          direction := verdict.direction.value
          threshold := verdict.threshold
          adverseChange := verdict.adverseChange
          regression := verdict.regression
          gateOutcome := verdict.outcome.value }

/-- The metric lines of a result. -/
def metricLineReads (result : EvaluationResult) (gate : GateReport) : Py (List MetricLineRead) :=
  result.metrics.mapM (metricLineRead (Dict.ofList (gate.verdicts.map fun v => (v.metric, v))))

/-- `RunResponse`. -/
structure RunResponse where
  evaluationResultId : String
  experimentId : String
  dataset : String
  baseline : String
  candidate : String
  repeats : ℕ
  counts : List (String × ℕ)
  decision : String
  gated : Bool
  reasons : List String
  metrics : List MetricLineRead
  advisories : List String
  evidence : List MetricEvidenceRead

/-- `RunResponse.of`. -/
def RunResponse.of (experiment : Experiment) (dataset : Dataset)
    (baseline candidate : SystemVersion) (runs : List EvaluationRun) (result : EvaluationResult)
    (gate : GateReport) (evaluationResultId : EntityId) : Py RunResponse := do
  let metrics ← metricLineReads result gate
  pure
    { evaluationResultId := evaluationResultId.text
      experimentId := experiment.id.text
      dataset := dataset.name.text
      baseline := baseline.name.text ++ " " ++ baseline.version.text
      candidate := candidate.name.text ++ " " ++ candidate.version.text
      repeats := experiment.repeats
      counts :=
        [("cases", dataset.cases.length), ("runs", runs.length),
          ("failures", runs.countP fun run => run.error.isSome)]
      decision := gate.decision.value
      gated := gate.gated
      reasons := gate.reasons
      metrics
      advisories := gate.advisories
      evidence := result.evidence.map MetricEvidenceRead.of }

/-- `EvaluationResultRead`. -/
structure EvaluationResultRead where
  id : String
  experimentId : String
  createdAt : Timestamp
  decision : String
  gated : Bool
  reasons : List String
  metrics : List MetricLineRead
  advisories : List String
  evidence : List MetricEvidenceRead

/-- `EvaluationResultRead.of`. -/
def EvaluationResultRead.of (value : EvaluationResult) (gate : GateReport) :
    Py EvaluationResultRead := do
  let metrics ← metricLineReads value gate
  pure
    { id := value.id.text
      experimentId := value.experimentId.text
      createdAt := value.createdAt
      decision := gate.decision.value
      gated := gate.gated
      reasons := gate.reasons
      metrics
      advisories := gate.advisories
      evidence := value.evidence.map MetricEvidenceRead.of }

/-! ### The routes -/

/-- `run_experiment_route`: `execute_experiment` up to its response, with the evaluation. -/
def runExperimentRoute (env : Environment) (rt : Runtime) (repos : Repositories)
    (experimentId : EntityId) (buildEvaluators : Py (List Evaluator))
    (buildProviders : SystemVersion → SystemVersion → Py (Dict ProviderName ProviderClient)) :
    RunM (EvaluationOutcome × RunResponse) := do
  let plan ← Effect.lift (loadPersisted repos experimentId buildEvaluators buildProviders)
  let evaluation ← plan.evaluate env rt
  let stored ← Effect.lift (persist repos evaluation)
  let response ← Effect.lift
    (RunResponse.of plan.experiment plan.dataset plan.baseline plan.candidate
      evaluation.outcome.runs evaluation.result evaluation.gate stored.2)
  pure (evaluation, response)

/-- `execute_experiment_in_uow`. `commit` is what the commit of the session answers. No experiment
has a blank id. -/
def executeExperimentInUow (env : Environment) (rt : Runtime) (repos : Repositories)
    (commit : Py Unit) (experimentId : String) (buildEvaluators : Py (List Evaluator))
    (buildProviders : SystemVersion → SystemVersion → Py (Dict ProviderName ProviderClient)) :
    RunM RunResponse :=
  if h : PyText.isBlank experimentId = false then do
    let ran ← runExperimentRoute env rt repos ⟨experimentId, h⟩ buildEvaluators buildProviders
    Effect.lift commit
    pure ran.2
  else
    throw ⟨.recordNotFound, "experiment " ++ PyText.repr experimentId ++ " not found"⟩

/-- `list_experiment_results`. -/
def listExperimentResults (tables : DbTables) (experimentId : String) :
    Py (List EvaluationResultRead) := do
  let experiment ← found (← tables.getExperiment experimentId) "experiment not found"
  let policy ← match experiment.releasePolicyId with
    | none => pure none
    | some policyId => do
        let policy ← found (← tables.getReleasePolicy policyId.text) "release policy not found"
        pure (some policy)
  let results ← tables.listResults experimentId
  results.mapM fun result => do
    let gate ← evaluateGate result policy
    EvaluationResultRead.of result gate

/-! ### Sequences of writes -/

/-- A row whose children the table keeps in another order. -/
def EvaluationResultRow.Reordered (row row' : EvaluationResultRow) : Prop :=
  ∃ metrics evidence, metrics.Perm row.metrics ∧ evidence.Perm row.evidence ∧
    row' = { row with metrics, evidence }

/-- The tables with child rows in another order. -/
structure DbTables.Reordered (tables tables' : DbTables) : Prop where
  datasets : List.Forall₂ (fun row row' => ∃ cases, cases.Perm row.cases ∧
    row' = { row with cases }) tables.datasets tables'.datasets
  caseResults : List.Forall₂ (fun row row' => ∃ scores, scores.Perm row.scores ∧
    row' = { row with scores }) tables.caseResults tables'.caseResults
  evaluationResults :
    List.Forall₂ EvaluationResultRow.Reordered tables.evaluationResults tables'.evaluationResults
  projects : tables'.projects = tables.projects
  systemVersions : tables'.systemVersions = tables.systemVersions
  releasePolicies : tables'.releasePolicies = tables.releasePolicies
  experiments : tables'.experiments = tables.experiments
  evaluationRuns : tables'.evaluationRuns = tables.evaluationRuns

/-- What happens to the tables. -/
inductive TableWrite
  | created
  | reordered
  | executed (evaluation : EvaluationOutcome) (response : RunResponse)

/-- One write. No route changes or deletes a row. The create routes add rows to the first five
tables, and only an execution adds rows to the other three. -/
inductive Wrote (conv : Conversions) : DbTables → TableWrite → DbTables → Prop
  | created (tables : DbTables) (projects : List ProjectRow) (datasets : List DatasetRow)
      (systemVersions : List SystemVersionRow) (releasePolicies : List ReleasePolicyRow)
      (experiments : List ExperimentRow) :
      Wrote conv tables .created
        { tables with
          projects := tables.projects ++ projects
          datasets := tables.datasets ++ datasets
          systemVersions := tables.systemVersions ++ systemVersions
          releasePolicies := tables.releasePolicies ++ releasePolicies
          experiments := tables.experiments ++ experiments }
  | reordered {tables tables' : DbTables} (h : tables.Reordered tables') :
      Wrote conv tables .reordered tables'
  | executed {tables : DbTables} {env : Environment} {rt : Runtime} {flushes : Flushes}
      {experimentId : EntityId} {buildEvaluators : Py (List Evaluator)}
      {buildProviders : SystemVersion → SystemVersion → Py (Dict ProviderName ProviderClient)}
      {s t : ℕ} {evaluation : EvaluationOutcome} {response : RunResponse}
      (h : Effect.exec (runExperimentRoute env rt (tables.repositories conv flushes) experimentId
        buildEvaluators buildProviders) s = (.ok (evaluation, response), t)) :
      Wrote conv tables (.executed evaluation response) (tables.persisted evaluation)

end EvalOps
