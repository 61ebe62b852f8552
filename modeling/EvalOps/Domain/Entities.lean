import EvalOps.Domain.ValueObjects
import EvalOps.Lib.Dict

/-!
# `EvalOps.Domain.Entities`: the domain entities

The entities of `domain/entities.py` that evaluation, gating and the job lifecycle read. Each
carries its `__post_init__` checks as fields, so every value of these types is one that the
constructor accepts.
-/

set_option autoImplicit false

namespace EvalOps

/-- An entity identifier. -/
abbrev EntityId := NonBlank

/-- What the construction of an entity draws from outside: `new_id()` and `utcnow()`. -/
structure Stamp where
  id : EntityId
  createdAt : Timestamp

/-- `Project`. -/
structure Project where
  name : NonBlank
  id : EntityId
  createdAt : Timestamp

/-- `SystemVersion`: an immutable configuration of a system under evaluation. -/
structure SystemVersion where
  projectId : EntityId
  name : NonBlank
  version : NonBlank
  provider : ProviderName
  model : NonBlank
  promptTemplate : NonBlank
  parameters : List (String × Json)
  ragConfig : Option (List (String × Json))
  toolPolicy : Option (List (String × Json))
  id : EntityId
  createdAt : Timestamp

/-- `DatasetCase`: one evaluation case. -/
structure DatasetCase where
  input : NonBlank
  expectedOutput : Option String
  origin : CaseOrigin
  sourceTraceId : Option String
  expectedRetrievalIds : List NonBlank
  expectedToolCalls : List ExpectedToolCall
  id : EntityId
  promoted_has_trace :
    origin = .promotedTrace → ∃ trace, sourceTraceId = some trace ∧ PyText.isBlank trace = false
  authored_has_no_trace : origin = .authored → sourceTraceId = none

/-- `Dataset`: a versioned collection of cases with distinct ids. -/
structure Dataset where
  projectId : EntityId
  name : NonBlank
  version : ℕ
  cases : List DatasetCase
  id : EntityId
  createdAt : Timestamp
  version_pos : 1 ≤ version
  cases_ne_nil : cases ≠ []
  cases_nodup : (cases.map DatasetCase.id).Nodup

/-- `Experiment`: a comparison of a baseline version with a candidate version. -/
structure Experiment where
  projectId : EntityId
  datasetId : EntityId
  baselineVersionId : EntityId
  candidateVersionId : EntityId
  repeats : ℕ
  releasePolicyId : Option EntityId
  id : EntityId
  createdAt : Timestamp
  versions_ne : baselineVersionId ≠ candidateVersionId
  repeats_pos : 1 ≤ repeats

/-- `EvaluationRun`: one execution of one case against one version. -/
structure EvaluationRun where
  experimentId : EntityId
  systemVersionId : EntityId
  caseId : EntityId
  repeatIndex : ℕ
  output : String
  usage : UsageMetrics
  error : Option NonBlank
  retrieval : List RetrievedItem
  toolCalls : List ToolCall
  id : EntityId
  createdAt : Timestamp

/-- `CaseResult`: the scores of one run, at most one for each evaluator. -/
structure CaseResult where
  runId : EntityId
  scores : List EvaluatorScore
  id : EntityId
  createdAt : Timestamp
  scores_nodup : (scores.map EvaluatorScore.evaluator).Nodup

namespace CaseResult

/-- `CaseResult(run_id=..., scores=...)`. -/
def make (runId : EntityId) (scores : List EvaluatorScore) (stamp : Stamp) : Py CaseResult :=
  if h : (scores.map EvaluatorScore.evaluator).Nodup then
    pure { runId, scores, id := stamp.id, createdAt := stamp.createdAt, scores_nodup := h }
  else throw (.domainValidation "CaseResult.scores has duplicate evaluator names")

/-- A constructed case result has the given run and scores. -/
theorem make_eq_ok {runId : EntityId} {scores : List EvaluatorScore} {stamp : Stamp}
    {caseResult : CaseResult} (h : make runId scores stamp = .ok caseResult) :
    caseResult.runId = runId ∧ caseResult.scores = scores := by
  unfold make at h
  split at h
  · cases h
    exact ⟨rfl, rfl⟩
  · exact nomatch h

end CaseResult

/-- `EvaluationResult`: one comparison for each metric, and the evidence. -/
structure EvaluationResult where
  experimentId : EntityId
  metrics : List MetricComparison
  evidence : List MetricEvidence
  id : EntityId
  createdAt : Timestamp
  metrics_nodup : (metrics.map MetricComparison.metric).Nodup
  evidence_nodup : (evidence.map fun e => e.metric).Nodup

namespace EvaluationResult

/-- `EvaluationResult(experiment_id=..., metrics=..., evidence=...)`. -/
def make (experimentId : EntityId) (metrics : List MetricComparison)
    (evidence : List MetricEvidence) (stamp : Stamp) : Py EvaluationResult :=
  if hm : (metrics.map MetricComparison.metric).Nodup then
    if he : (evidence.map fun e => e.metric).Nodup then
      pure
        { experimentId, metrics, evidence, id := stamp.id, createdAt := stamp.createdAt,
          metrics_nodup := hm, evidence_nodup := he }
    else throw (.domainValidation "EvaluationResult.evidence has duplicate metric names")
  else throw (.domainValidation "EvaluationResult.metrics has duplicate metric names")

/-- The constructor accepts distinct metric names. -/
theorem make_of_nodup {experimentId : EntityId} {metrics : List MetricComparison}
    {evidence : List MetricEvidence} {stamp : Stamp}
    (hm : (metrics.map MetricComparison.metric).Nodup)
    (he : (evidence.map fun e => e.metric).Nodup) :
    make experimentId metrics evidence stamp
      = .ok
        { experimentId, metrics, evidence, id := stamp.id, createdAt := stamp.createdAt,
          metrics_nodup := hm, evidence_nodup := he } := by
  unfold make
  rw [dif_pos hm, dif_pos he]
  rfl

end EvaluationResult

/-- `ReleasePolicy`: the maximum tolerated adverse change of each gated metric. -/
structure ReleasePolicy where
  name : NonBlank
  thresholds : Dict String ℚ
  maxSafetyViolations : ℕ
  id : EntityId
  thresholds_nonblank : ∀ e ∈ thresholds.entries, PyText.isBlank e.1 = false
  thresholds_nonneg : ∀ e ∈ thresholds.entries, 0 ≤ e.2

/-- `JudgeCalibration`: the agreement of one configured judge with human labels. -/
structure JudgeCalibration where
  judgeProvider : ProviderName
  judgeModel : NonBlank
  judgeName : NonBlank
  judgeTemperature : ℚ
  rubricId : NonBlank
  metrics : JudgeCalibrationMetrics
  cases : List JudgeCalibrationCase
  id : EntityId
  createdAt : Timestamp
  judgeTemperature_nonneg : 0 ≤ judgeTemperature
  total_eq : metrics.total = cases.length

/-- `ProductionTrace`: one interaction observed in a running system. -/
structure ProductionTrace where
  projectId : EntityId
  systemVersionId : EntityId
  input : NonBlank
  output : String
  referenceOutput : Option String
  metadata : List (String × Json)
  latencyMs : Option ℚ
  costUsd : Option ℚ
  error : Option NonBlank
  origin : TraceOrigin
  id : EntityId
  createdAt : Timestamp
  latencyMs_nonneg : ∀ x, latencyMs = some x → 0 ≤ x
  costUsd_nonneg : ∀ x, costUsd = some x → 0 ≤ x

/-! ### Background jobs -/

/-- The fields of an `AsyncJob`, before `__post_init__`. -/
structure AsyncJobData where
  experimentId : String
  status : JobStatus
  celeryTaskId : Option String
  evaluationResultId : Option String
  error : Option String
  id : String
  createdAt : Timestamp
  startedAt : Option Timestamp
  completedAt : Option Timestamp
deriving DecidableEq

/-- `bool(text)`: a missing or empty text is false. -/
def truthy (text : Option String) : Bool := decide (text ≠ none ∧ text ≠ some "")

/-- The later moment is before the earlier one, when both are set. -/
def precedes (later earlier : Option Timestamp) : Bool :=
  match later, earlier with
  | some later, some earlier => decide (later < earlier)
  | _, _ => false

namespace AsyncJobData

/-- The checks of `__post_init__` that depend on the status. -/
def checkStatus (job : AsyncJobData) : Py Unit :=
  match job.status with
  | .queued =>
      if job.startedAt.isSome ∨ job.completedAt.isSome ∨ truthy job.error ∨
          truthy job.evaluationResultId then
        throw (.domainValidation "a queued AsyncJob has no start/completion/error/result")
      else pure ()
  | .running =>
      if job.startedAt = none then
        throw (.domainValidation "a running AsyncJob has started_at")
      else if job.completedAt.isSome ∨ truthy job.error ∨ truthy job.evaluationResultId then
        throw (.domainValidation "a running AsyncJob has no completion/error/result")
      else pure ()
  | .completed =>
      if job.startedAt = none ∨ job.completedAt = none ∨ job.evaluationResultId = none then
        throw (.domainValidation
          "a completed AsyncJob has started_at, completed_at and evaluation_result_id")
      else if job.error ≠ none then
        throw (.domainValidation "a completed AsyncJob has no error")
      else pure ()
  | .failed =>
      if job.completedAt = none ∨ job.error = none then
        throw (.domainValidation "a failed AsyncJob has completed_at and an error message")
      else if job.evaluationResultId ≠ none then
        throw (.domainValidation "a failed AsyncJob has no evaluation_result_id")
      else pure ()

/-- The error text is blank although it is set. -/
def errorBlank (job : AsyncJobData) : Bool :=
  match job.error with
  | none => false
  | some error => PyText.isBlank error

/-- `AsyncJob.__post_init__`. The checks run in the order of the source. -/
def postInit (job : AsyncJobData) : Py Unit := do
  if PyText.isBlank job.experimentId then
    throw (.domainValidation "AsyncJob.experiment_id must be a non-empty string")
  if PyText.isBlank job.id then
    throw (.domainValidation "AsyncJob.id must be a non-empty string")
  if precedes job.startedAt (some job.createdAt) then
    throw (.domainValidation "AsyncJob.started_at is before created_at")
  if precedes job.completedAt job.startedAt then
    throw (.domainValidation "AsyncJob.completed_at is before started_at")
  if job.errorBlank then
    throw (.domainValidation "AsyncJob.error must be non-blank when set")
  job.checkStatus

end AsyncJobData

/-- `AsyncJob`: the lifecycle of a background run, as `__post_init__` accepts it. -/
structure AsyncJob extends AsyncJobData where
  valid : toAsyncJobData.postInit = .ok ()

namespace AsyncJob

/-- The constructor with its checks. -/
def make (job : AsyncJobData) : Py AsyncJob :=
  match h : job.postInit with
  | .ok () => .ok { toAsyncJobData := job, valid := h }
  | .error err => .error err

/-- The constructor returns exactly when the checks pass. -/
theorem make_isOk_iff {job : AsyncJobData} :
    (∃ built, make job = .ok built) ↔ job.postInit = .ok () := by
  unfold make
  constructor
  · rintro ⟨built, h⟩
    split at h
    · assumption
    · exact nomatch h
  · intro h
    split
    · exact ⟨_, rfl⟩
    · rename_i err herr
      exact nomatch herr.symm.trans h

/-- A constructed job has the given fields. -/
theorem make_eq_ok {job : AsyncJobData} {built : AsyncJob} (h : make job = .ok built) :
    built.toAsyncJobData = job := by
  unfold make at h
  split at h
  · cases h
    rfl
  · exact nomatch h

end AsyncJob

end EvalOps
