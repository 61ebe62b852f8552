import EvalOps.Db.AsyncJobs
import EvalOps.Domain.Constructors
import EvalOps.Lib.Positions

/-!
# `EvalOps.Db.Mapping`: the rows and their conversions

`db/mapping.py`, over the rows of `db/models.py`. `xToOrm` flattens a domain object into a row, and
`xFromOrm` passes the columns to the constructor of the domain class, which checks them. A child
row has the position of the child, and the relationship of its parent orders the children by it.
The mapping of `AsyncJob` is in `EvalOps.Db.AsyncJobs`.

A JSON column whose type the reader tests is a `Json`. A column with a `CHECK` on its sign is a
natural number.
-/

set_option autoImplicit false

namespace EvalOps

/-! ### JSON values -/

/-- `bool(value)`. -/
def Json.truthy : Json → Bool
  | .null => false
  | .bool b => b
  | .int n => decide (n ≠ 0)
  | .float x => decide (x ≠ 0)
  | .str s => decide (s ≠ "")
  | .arr items => !items.isEmpty
  | .obj fields => !fields.isEmpty

/-- `entry.get(key)`. -/
def entryGet (entry : List (String × Json)) (key : String) : Json :=
  (entry.lookup key).getD .null

/-- An optional value, `null` when it is absent. -/
def nullable {α : Type} (encode : α → Json) : Option α → Json
  | none => .null
  | some x => encode x

/-- `None if value is None else convert(value)`. -/
def whenSet {α : Type} (convert : Json → Py α) : Json → Py (Option α)
  | .null => pure none
  | value => some <$> convert value

/-- `str`, `int`, `float` and `dict` of a value that is none. -/
structure Conversions where
  str : Json → String
  int : Json → Py ℤ
  float : Json → Py ℚ
  dict : Json → Py (List (String × Json))

namespace Conversions

variable (conv : Conversions)

/-- `str(value)`. -/
def toStr : Json → String
  | .str s => s
  | value => conv.str value

/-- `int(value)`. -/
def toInt : Json → Py ℤ
  | .int n => pure n
  | value => conv.int value

/-- `float(value)`. -/
def toFloat : Json → Py ℚ
  | .float x => pure x
  | value => conv.float value

/-- `dict(value)`. -/
def toDict : Json → Py (List (String × Json))
  | .obj fields => pure fields
  | value => conv.dict value

/-- `dict(value or {})`. -/
def dictOrEmpty (value : Json) : Py (List (String × Json)) :=
  if Json.truthy value then conv.toDict value else pure []

end Conversions

/-- The objects of a list that have a true value at a key, with their positions in the list. -/
def entriesWith (key : String) (raw : Json) : List (List (String × Json) × ℕ) :=
  match raw with
  | .arr entries =>
      entries.zipIdx.filterMap fun (entry, position) =>
        match entry with
        | .obj fields => if Json.truthy (entryGet fields key) then some (fields, position) else none
        | _ => none
  | _ => []

/-! ### The JSON list codecs -/

/-- The entry of one item. -/
def retrievedItemEntry (it : RetrievedItem) : List (String × Json) :=
  [("doc_id", .str it.docId.text), ("content", .str it.content), ("rank", .int it.rank),
    ("score", nullable .float it.score)]

/-- `_retrieval_to_json`. -/
def retrievalToJson (items : List RetrievedItem) : Json :=
  .arr (items.map fun it => .obj (retrievedItemEntry it))

/-- The item of one entry. -/
def retrievedItemOf (conv : Conversions) (entry : List (String × Json)) (position : ℕ) :
    Py RetrievedItem := do
  let docId := conv.toStr (entryGet entry "doc_id")
  let content := conv.toStr ((entry.lookup "content").getD (.str ""))
  let rank ← conv.toInt ((entry.lookup "rank").getD (.int position))
  let score ← whenSet conv.toFloat (entryGet entry "score")
  RetrievedItem.init docId content rank score

/-- `_retrieval_from_json`. -/
def retrievalFromJson (conv : Conversions) (raw : Json) : Py (List RetrievedItem) :=
  (entriesWith "doc_id" raw).mapM fun (entry, position) => retrievedItemOf conv entry position

/-- The entry of one call. -/
def toolCallEntry (c : ToolCall) : List (String × Json) :=
  [("name", .str c.name.text), ("arguments", .obj c.arguments), ("result", c.result),
    ("ok", .bool c.ok), ("error", nullable .str (c.error.map NonBlank.text))]

/-- `_tool_calls_to_json`. -/
def toolCallsToJson (calls : List ToolCall) : Json :=
  .arr (calls.map fun c => .obj (toolCallEntry c))

/-- The error that `__post_init__` strips: `None` or a text. -/
def strippedText : Json → Py (Option String)
  | .null => pure none
  | .str s => pure (some s)
  | _ => throw ⟨.other "AttributeError", "object has no attribute 'strip'"⟩

/-- The call of one entry. -/
def toolCallOf (conv : Conversions) (entry : List (String × Json)) : Py ToolCall := do
  let name := conv.toStr (entryGet entry "name")
  let arguments ← conv.dictOrEmpty (entryGet entry "arguments")
  let result := entryGet entry "result"
  let ok := Json.truthy ((entry.lookup "ok").getD (.bool true))
  -- `__post_init__` strips the name before it strips the error.
  let _ ← requireNonEmpty name "ToolCall.name"
  let error ← strippedText (entryGet entry "error")
  ToolCall.init name arguments result ok error

/-- `_tool_calls_from_json`. -/
def toolCallsFromJson (conv : Conversions) (raw : Json) : Py (List ToolCall) :=
  (entriesWith "name" raw).mapM fun (entry, _) => toolCallOf conv entry

/-- The entry of one expected call. -/
def expectedToolCallEntry (c : ExpectedToolCall) : List (String × Json) :=
  [("name", .str c.name.text), ("arguments", nullable .obj c.arguments)]

/-- `_expected_tool_calls_to_json`. -/
def expectedToolCallsToJson (calls : List ExpectedToolCall) : Json :=
  .arr (calls.map fun c => .obj (expectedToolCallEntry c))

/-- The expected call of one entry. -/
def expectedToolCallOf (conv : Conversions) (entry : List (String × Json)) :
    Py ExpectedToolCall := do
  let name := conv.toStr (entryGet entry "name")
  let arguments ← whenSet conv.toDict (entryGet entry "arguments")
  ExpectedToolCall.init name arguments

/-- `_expected_tool_calls_from_json`. -/
def expectedToolCallsFromJson (conv : Conversions) (raw : Json) : Py (List ExpectedToolCall) :=
  (entriesWith "name" raw).mapM fun (entry, _) => expectedToolCallOf conv entry

/-! ### Projects, datasets, versions, policies and experiments -/

/-- `orm.Project`. -/
structure ProjectRow where
  id : String
  name : String
  createdAt : Moment

/-- `project_to_orm`. -/
def projectToOrm (value : Project) : ProjectRow where
  id := value.id.text
  name := value.name.text
  createdAt := .aware value.createdAt

/-- `project_from_orm`. -/
def projectFromOrm (row : ProjectRow) : Py Project :=
  Project.init row.name row.id row.createdAt.attachUtc

/-- `orm.DatasetCase`. -/
structure DatasetCaseRow where
  id : String
  position : ℕ
  input : String
  expectedOutput : Option String
  expectedRetrievalIds : Option (List String)
  expectedToolCalls : Json
  origin : CaseOrigin
  sourceTraceId : Option String

/-- `_case_to_orm`. -/
def caseToOrm (value : DatasetCase) (position : ℕ) : DatasetCaseRow where
  id := value.id.text
  position := position
  input := value.input.text
  expectedOutput := value.expectedOutput
  expectedRetrievalIds := some (value.expectedRetrievalIds.map NonBlank.text)
  expectedToolCalls := expectedToolCallsToJson value.expectedToolCalls
  origin := value.origin
  sourceTraceId := value.sourceTraceId

/-- `_case_from_orm`. -/
def caseFromOrm (conv : Conversions) (row : DatasetCaseRow) : Py DatasetCase := do
  let expectedToolCalls ← expectedToolCallsFromJson conv row.expectedToolCalls
  DatasetCase.init row.input row.expectedOutput row.origin row.sourceTraceId
    (row.expectedRetrievalIds.getD []) expectedToolCalls row.id

/-- `orm.Dataset`, with its children as they are stored. -/
structure DatasetRow where
  id : String
  projectId : String
  name : String
  version : ℤ
  createdAt : Moment
  cases : List DatasetCaseRow

/-- `dataset_to_orm`. -/
def datasetToOrm (value : Dataset) : DatasetRow where
  id := value.id.text
  projectId := value.projectId.text
  name := value.name.text
  version := value.version
  createdAt := .aware value.createdAt
  cases := Positions.number caseToOrm value.cases

/-- `dataset_from_orm`. -/
def datasetFromOrm (conv : Conversions) (row : DatasetRow) : Py Dataset := do
  let cases ← Positions.readBack DatasetCaseRow.position (caseFromOrm conv) row.cases
  Dataset.init row.projectId row.name row.version cases row.id row.createdAt.attachUtc

/-- `orm.SystemVersion`. -/
structure SystemVersionRow where
  id : String
  projectId : String
  name : String
  version : String
  provider : ProviderName
  model : String
  promptTemplate : String
  parameters : List (String × Json)
  ragConfig : Option (List (String × Json))
  toolPolicy : Option (List (String × Json))
  createdAt : Moment

/-- `system_version_to_orm`. -/
def systemVersionToOrm (value : SystemVersion) : SystemVersionRow where
  id := value.id.text
  projectId := value.projectId.text
  name := value.name.text
  version := value.version.text
  provider := value.provider
  model := value.model.text
  promptTemplate := value.promptTemplate.text
  parameters := value.parameters
  ragConfig := value.ragConfig
  toolPolicy := value.toolPolicy
  createdAt := .aware value.createdAt

/-- `system_version_from_orm`. -/
def systemVersionFromOrm (row : SystemVersionRow) : Py SystemVersion :=
  SystemVersion.init row.projectId row.name row.version row.provider row.model
    row.promptTemplate row.parameters row.ragConfig row.toolPolicy row.id
    row.createdAt.attachUtc

/-- `orm.ReleasePolicy`. -/
structure ReleasePolicyRow where
  id : String
  name : String
  thresholds : Dict String ℚ
  maxSafetyViolations : ℤ

/-- `release_policy_to_orm`. -/
def releasePolicyToOrm (value : ReleasePolicy) : ReleasePolicyRow where
  id := value.id.text
  name := value.name.text
  thresholds := value.thresholds
  maxSafetyViolations := value.maxSafetyViolations

/-- `release_policy_from_orm`. -/
def releasePolicyFromOrm (row : ReleasePolicyRow) : Py ReleasePolicy :=
  ReleasePolicy.init row.name row.thresholds row.maxSafetyViolations row.id

/-- `orm.Experiment`. -/
structure ExperimentRow where
  id : String
  projectId : String
  datasetId : String
  baselineVersionId : String
  candidateVersionId : String
  releasePolicyId : Option String
  repeats : ℤ
  createdAt : Moment

/-- `experiment_to_orm`. -/
def experimentToOrm (value : Experiment) : ExperimentRow where
  id := value.id.text
  projectId := value.projectId.text
  datasetId := value.datasetId.text
  baselineVersionId := value.baselineVersionId.text
  candidateVersionId := value.candidateVersionId.text
  releasePolicyId := value.releasePolicyId.map NonBlank.text
  repeats := value.repeats
  createdAt := .aware value.createdAt

/-- `experiment_from_orm`. -/
def experimentFromOrm (row : ExperimentRow) : Py Experiment :=
  Experiment.init row.projectId row.datasetId row.baselineVersionId row.candidateVersionId
    row.repeats row.releasePolicyId row.id row.createdAt.attachUtc

/-! ### Runs and results -/

/-- `orm.EvaluationRun`. -/
structure EvaluationRunRow where
  id : String
  experimentId : String
  systemVersionId : String
  caseId : String
  repeatIndex : ℤ
  output : String
  error : Option String
  retrieval : Json
  toolCalls : Json
  promptTokens : ℤ
  completionTokens : ℤ
  costUsd : ℚ
  latencyMs : ℚ
  createdAt : Moment

/-- `evaluation_run_to_orm`. -/
def evaluationRunToOrm (value : EvaluationRun) : EvaluationRunRow where
  id := value.id.text
  experimentId := value.experimentId.text
  systemVersionId := value.systemVersionId.text
  caseId := value.caseId.text
  repeatIndex := value.repeatIndex
  output := value.output
  error := value.error.map NonBlank.text
  retrieval := retrievalToJson value.retrieval
  toolCalls := toolCallsToJson value.toolCalls
  promptTokens := value.usage.promptTokens
  completionTokens := value.usage.completionTokens
  costUsd := value.usage.costUsd
  latencyMs := value.usage.latencyMs
  createdAt := .aware value.createdAt

/-- `evaluation_run_from_orm`. -/
def evaluationRunFromOrm (conv : Conversions) (row : EvaluationRunRow) : Py EvaluationRun := do
  let retrieval ← retrievalFromJson conv row.retrieval
  let toolCalls ← toolCallsFromJson conv row.toolCalls
  let usage ← UsageMetrics.init row.promptTokens row.completionTokens row.costUsd row.latencyMs
  EvaluationRun.init row.experimentId row.systemVersionId row.caseId row.repeatIndex row.output
    usage row.error retrieval toolCalls row.id row.createdAt.attachUtc

/-- `orm.EvaluatorScore`. -/
structure EvaluatorScoreRow where
  evaluator : String
  position : ℕ
  family : EvaluatorFamily
  score : ℚ
  passed : Option Bool

/-- The row of one score. -/
def scoreToOrm (score : EvaluatorScore) (position : ℕ) : EvaluatorScoreRow where
  evaluator := score.evaluator.text
  position := position
  family := score.family
  score := score.score
  passed := score.passed

/-- The score of one row. -/
def scoreFromOrm (row : EvaluatorScoreRow) : Py EvaluatorScore :=
  EvaluatorScore.make row.evaluator row.family row.score row.passed

/-- `orm.CaseResult`, with its children as they are stored. -/
structure CaseResultRow where
  id : String
  runId : String
  createdAt : Moment
  scores : List EvaluatorScoreRow

/-- `case_result_to_orm`. -/
def caseResultToOrm (value : CaseResult) : CaseResultRow where
  id := value.id.text
  runId := value.runId.text
  createdAt := .aware value.createdAt
  scores := Positions.number scoreToOrm value.scores

/-- `case_result_from_orm`. -/
def caseResultFromOrm (row : CaseResultRow) : Py CaseResult := do
  let scores ← Positions.readBack EvaluatorScoreRow.position scoreFromOrm row.scores
  CaseResult.init row.runId scores row.id row.createdAt.attachUtc

/-- `orm.MetricComparison`. -/
structure MetricComparisonRow where
  metric : String
  position : ℕ
  baselineValue : ℚ
  candidateValue : ℚ

/-- The row of one comparison. -/
def metricToOrm (metric : MetricComparison) (position : ℕ) : MetricComparisonRow where
  metric := metric.metric
  position := position
  baselineValue := metric.baselineValue
  candidateValue := metric.candidateValue

/-- The comparison of one row. -/
def metricFromOrm (row : MetricComparisonRow) : Py MetricComparison :=
  MetricComparison.make row.metric row.baselineValue row.candidateValue

/-- The literal of a metric kind. -/
def MetricKind.value : MetricKind → String
  | binary => "binary"
  | continuous => "continuous"

/-- `orm.MetricEvidence`. The three summaries are flattened, and their `n` is `n_pairs`. -/
structure MetricEvidenceRow where
  metric : String
  position : ℕ
  kind : String
  nPairs : ℕ
  baselineMean : ℚ
  baselineMedian : ℚ
  baselineStdev : ℚ
  candidateMean : ℚ
  candidateMedian : ℚ
  candidateStdev : ℚ
  pairedDeltaMean : ℚ
  pairedDeltaMedian : ℚ
  pairedDeltaStdev : ℚ
  delta : ℚ
  relativeChange : Option ℚ
  confidenceLevel : ℚ
  ciLow : Option ℚ
  ciHigh : Option ℚ
  ciExcludesZero : Bool
  insufficientEvidence : Bool
  droppedProviderFailures : ℕ
  method : String
  resamples : ℤ
  seed : ℤ

/-- `_metric_evidence_to_orm`. -/
def metricEvidenceToOrm (value : MetricEvidence) (position : ℕ) : MetricEvidenceRow where
  metric := value.metric
  position := position
  kind := value.kind.value
  nPairs := value.nPairs
  baselineMean := value.baseline.mean
  baselineMedian := value.baseline.median
  baselineStdev := value.baseline.stdev
  candidateMean := value.candidate.mean
  candidateMedian := value.candidate.median
  candidateStdev := value.candidate.stdev
  pairedDeltaMean := value.pairedDelta.mean
  pairedDeltaMedian := value.pairedDelta.median
  pairedDeltaStdev := value.pairedDelta.stdev
  delta := value.delta
  relativeChange := value.relativeChange
  confidenceLevel := value.confidenceLevel
  ciLow := value.ciLow
  ciHigh := value.ciHigh
  ciExcludesZero := value.ciExcludesZero
  insufficientEvidence := value.insufficientEvidence
  droppedProviderFailures := value.droppedProviderFailures
  method := value.method
  resamples := value.resamples
  seed := value.seed

/-- `_metric_evidence_from_orm`. -/
def metricEvidenceFromOrm (row : MetricEvidenceRow) : Py MetricEvidence := do
  let kind := if row.kind = "binary" then MetricKind.binary else .continuous
  let baseline ←
    SampleSummary.init row.nPairs row.baselineMean row.baselineMedian row.baselineStdev
  let candidate ←
    SampleSummary.init row.nPairs row.candidateMean row.candidateMedian row.candidateStdev
  let pairedDelta ←
    SampleSummary.init row.nPairs row.pairedDeltaMean row.pairedDeltaMedian row.pairedDeltaStdev
  MetricEvidence.make
    { metric := row.metric
      kind, nPairs := row.nPairs
      baseline, candidate, pairedDelta
      delta := row.delta
      relativeChange := row.relativeChange
      confidenceLevel := row.confidenceLevel
      ciLow := row.ciLow
      ciHigh := row.ciHigh
      ciExcludesZero := row.ciExcludesZero
      insufficientEvidence := row.insufficientEvidence
      method := row.method
      resamples := row.resamples
      seed := row.seed
      droppedProviderFailures := row.droppedProviderFailures }

/-- `orm.EvaluationResult`, with its children as they are stored. -/
structure EvaluationResultRow where
  id : String
  experimentId : String
  createdAt : Moment
  metrics : List MetricComparisonRow
  evidence : List MetricEvidenceRow

/-- `evaluation_result_to_orm`. -/
def evaluationResultToOrm (value : EvaluationResult) : EvaluationResultRow where
  id := value.id.text
  experimentId := value.experimentId.text
  createdAt := .aware value.createdAt
  metrics := Positions.number metricToOrm value.metrics
  evidence := Positions.number metricEvidenceToOrm value.evidence

/-- `evaluation_result_from_orm`. -/
def evaluationResultFromOrm (row : EvaluationResultRow) : Py EvaluationResult := do
  let metrics ← Positions.readBack MetricComparisonRow.position metricFromOrm row.metrics
  let evidence ← Positions.readBack MetricEvidenceRow.position metricEvidenceFromOrm row.evidence
  EvaluationResult.init row.experimentId metrics evidence row.id row.createdAt.attachUtc

/-! ### Calibrations and traces -/

/-- `orm.JudgeCalibrationCase`. -/
structure JudgeCalibrationCaseRow where
  position : ℕ
  input : String
  output : String
  reference : Option String
  humanPass : Bool
  judgePass : Option Bool
  judgeScore : Option ℚ
  judgeReasoning : Option String
  error : Option String

/-- The row of one labeled case. -/
def calibrationCaseToOrm (case : JudgeCalibrationCase) (position : ℕ) :
    JudgeCalibrationCaseRow where
  position := position
  input := case.input
  output := case.output
  reference := case.reference
  humanPass := case.humanPass
  judgePass := case.judgePass
  judgeScore := case.judgeScore
  judgeReasoning := case.judgeReasoning
  error := case.error

/-- The labeled case of one row. -/
def calibrationCaseFromOrm (row : JudgeCalibrationCaseRow) : Py JudgeCalibrationCase :=
  JudgeCalibrationCase.init row.input row.output row.reference row.humanPass row.judgePass
    row.judgeScore row.judgeReasoning row.error

/-- `orm.JudgeCalibration`, with its children as they are stored. -/
structure JudgeCalibrationRow where
  id : String
  createdAt : Moment
  judgeProvider : ProviderName
  judgeModel : String
  judgeName : String
  judgeTemperature : ℚ
  rubricId : String
  total : ℤ
  scored : ℤ
  failures : ℤ
  agreements : ℤ
  agreementRate : Option ℚ
  truePositives : ℤ
  trueNegatives : ℤ
  falsePositives : ℤ
  falseNegatives : ℤ
  precision : Option ℚ
  «recall» : Option ℚ
  f1 : Option ℚ
  cases : List JudgeCalibrationCaseRow

/-- `judge_calibration_to_orm`. -/
def judgeCalibrationToOrm (value : JudgeCalibration) : JudgeCalibrationRow where
  id := value.id.text
  createdAt := .aware value.createdAt
  judgeProvider := value.judgeProvider
  judgeModel := value.judgeModel.text
  judgeName := value.judgeName.text
  judgeTemperature := value.judgeTemperature
  rubricId := value.rubricId.text
  total := value.metrics.total
  scored := value.metrics.scored
  failures := value.metrics.failures
  agreements := value.metrics.agreements
  agreementRate := value.metrics.agreementRate
  truePositives := value.metrics.truePositives
  trueNegatives := value.metrics.trueNegatives
  falsePositives := value.metrics.falsePositives
  falseNegatives := value.metrics.falseNegatives
  precision := value.metrics.precision
  «recall» := value.metrics.recall
  f1 := value.metrics.f1
  cases := Positions.number calibrationCaseToOrm value.cases

/-- `judge_calibration_from_orm`. -/
def judgeCalibrationFromOrm (row : JudgeCalibrationRow) : Py JudgeCalibration := do
  let metrics ← JudgeCalibrationMetrics.init row.total row.scored row.failures row.agreements
    row.agreementRate row.truePositives row.trueNegatives row.falsePositives row.falseNegatives
    row.precision row.recall row.f1
  let cases ←
    Positions.readBack JudgeCalibrationCaseRow.position calibrationCaseFromOrm row.cases
  JudgeCalibration.init row.judgeProvider row.judgeModel row.judgeName row.judgeTemperature
    row.rubricId metrics cases row.id row.createdAt.attachUtc

/-- `orm.ProductionTrace`. -/
structure ProductionTraceRow where
  id : String
  projectId : String
  systemVersionId : String
  createdAt : Moment
  input : String
  output : String
  referenceOutput : Option String
  traceMetadata : List (String × Json)
  latencyMs : Option ℚ
  costUsd : Option ℚ
  error : Option String
  origin : TraceOrigin

/-- `production_trace_to_orm`. -/
def productionTraceToOrm (value : ProductionTrace) : ProductionTraceRow where
  id := value.id.text
  projectId := value.projectId.text
  systemVersionId := value.systemVersionId.text
  createdAt := .aware value.createdAt
  input := value.input.text
  output := value.output
  referenceOutput := value.referenceOutput
  traceMetadata := value.metadata
  latencyMs := value.latencyMs
  costUsd := value.costUsd
  error := value.error.map NonBlank.text
  origin := value.origin

/-- `production_trace_from_orm`. -/
def productionTraceFromOrm (row : ProductionTraceRow) : Py ProductionTrace :=
  ProductionTrace.init row.projectId row.systemVersionId row.input row.output
    row.referenceOutput row.traceMetadata row.latencyMs row.costUsd row.error row.origin row.id
    row.createdAt.attachUtc

end EvalOps
