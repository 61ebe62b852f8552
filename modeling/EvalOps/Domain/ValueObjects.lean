import EvalOps.Domain.Errors
import EvalOps.Lib.Json
import Mathlib.Tactic.NormNum

/-!
# `EvalOps.Domain.ValueObjects`: the immutable value objects

The dataclasses of `domain/value_objects.py` and the enumerations of `domain/enums.py`. A
`__post_init__` check is a field of the structure, so a value that the check rejects cannot be
built. Where modelled code builds a value from data that the check may reject, `make` runs the
check and raises its error.

Floats are rationals: the arithmetic is exact. An error text that prints the `repr` of a float
leaves its digits out.
-/

set_option autoImplicit false

namespace EvalOps

/-! ### Enumerations -/

/-- `ProviderName`. -/
inductive ProviderName
  | openai
  | anthropic
  | ollama
deriving DecidableEq, Repr

/-- The serialised provider name. -/
def ProviderName.value : ProviderName → String
  | openai => "openai"
  | anthropic => "anthropic"
  | ollama => "ollama"

/-- `EvaluatorFamily`. -/
inductive EvaluatorFamily
  | deterministic
  | statistical
  | llmJudge
deriving DecidableEq, Repr

/-- `CaseOrigin`. -/
inductive CaseOrigin
  | authored
  | promotedTrace
deriving DecidableEq, Repr

/-- `TraceOrigin`. -/
inductive TraceOrigin
  | production
deriving DecidableEq, Repr

/-- `ReleaseDecision`. -/
inductive ReleaseDecision
  | pass
  | block
  | needsReview
deriving DecidableEq, Repr

/-- The serialised decision. -/
def ReleaseDecision.value : ReleaseDecision → String
  | pass => "pass"
  | block => "block"
  | needsReview => "needs_review"

/-- `JobStatus`. -/
inductive JobStatus
  | queued
  | running
  | completed
  | failed
deriving DecidableEq, Repr

/-- The serialised status. -/
def JobStatus.value : JobStatus → String
  | queued => "queued"
  | running => "running"
  | completed => "completed"
  | failed => "failed"

/-! ### One model call -/

/-- `UsageMetrics`: the accounting of one model call. -/
structure UsageMetrics where
  promptTokens : ℕ
  completionTokens : ℕ
  costUsd : ℚ
  latencyMs : ℚ
  costUsd_nonneg : 0 ≤ costUsd
  latencyMs_nonneg : 0 ≤ latencyMs
deriving DecidableEq

/-- A cost or a latency of `0` passes its check. -/
theorem nonneg_zero : (0 : ℚ) ≤ 0 := le_refl 0

/-- `UsageMetrics()`: the usage of a failed run. -/
def UsageMetrics.zero : UsageMetrics where
  promptTokens := 0
  completionTokens := 0
  costUsd := 0
  latencyMs := 0
  costUsd_nonneg := nonneg_zero
  latencyMs_nonneg := nonneg_zero

/-- `RetrievedItem`: one document that a RAG system reported. -/
structure RetrievedItem where
  docId : NonBlank
  content : String
  rank : ℕ
  score : Option ℚ
deriving DecidableEq

/-- `ToolCall`: one tool invocation that an agent reported. -/
structure ToolCall where
  name : NonBlank
  arguments : List (String × Json)
  result : Json
  ok : Bool
  error : Option NonBlank
  ok_no_error : ok = true → error = none

/-- `ExpectedToolCall`: the authored ground truth for one tool invocation. -/
structure ExpectedToolCall where
  name : NonBlank
  arguments : Option (List (String × Json))

/-- `EvaluatorScore`: what one evaluator says about one run. -/
structure EvaluatorScore where
  evaluator : NonBlank
  family : EvaluatorFamily
  score : ℚ
  passed : Option Bool
  score_nonneg : 0 ≤ score
  score_le_one : score ≤ 1
deriving DecidableEq

/-! ### Experiment-level values -/

/-- `MetricComparison`: the two values of one metric. -/
structure MetricComparison where
  metric : String
  baselineValue : ℚ
  candidateValue : ℚ
  metric_nonblank : PyText.isBlank metric = false

namespace MetricComparison

/-- The constructor with its check. -/
def make (metric : String) (baselineValue candidateValue : ℚ) : Py MetricComparison :=
  if h : PyText.isBlank metric = false then
    pure { metric, baselineValue, candidateValue, metric_nonblank := h }
  else throw (.domainValidation "metric must be a non-empty string")

/-- Candidate value minus baseline value. -/
def delta (mc : MetricComparison) : ℚ := mc.candidateValue - mc.baselineValue

/-- `delta` as a fraction of the baseline, `None` when the baseline is `0`. -/
def relativeDelta (mc : MetricComparison) : Option ℚ :=
  if mc.baselineValue = 0 then none else some (mc.delta / mc.baselineValue)

end MetricComparison

/-- `MetricKind`. -/
inductive MetricKind
  | binary
  | continuous
deriving DecidableEq, Repr

/-- `SampleSummary`: descriptive statistics of one series. -/
structure SampleSummary where
  n : ℕ
  mean : ℚ
  median : ℚ
  stdev : ℚ
  stdev_nonneg : 0 ≤ stdev
deriving DecidableEq

/-- The fields of a `MetricEvidence`, before `__post_init__`. -/
structure MetricEvidenceData where
  metric : String
  kind : MetricKind
  nPairs : ℕ
  baseline : SampleSummary
  candidate : SampleSummary
  pairedDelta : SampleSummary
  delta : ℚ
  relativeChange : Option ℚ
  confidenceLevel : ℚ
  ciLow : Option ℚ
  ciHigh : Option ℚ
  ciExcludesZero : Bool
  insufficientEvidence : Bool
  method : String
  resamples : ℤ
  seed : ℤ
  droppedProviderFailures : ℕ
deriving DecidableEq

namespace MetricEvidenceData

/-- The interval runs the wrong way. -/
def inverted (e : MetricEvidenceData) : Bool :=
  match e.ciLow, e.ciHigh with
  | some low, some high => decide (high < low)
  | _, _ => false

/-- One turn of the loop that compares the sizes of the three summaries with `n_pairs`. -/
def checkSummarySize (label : String) (n nPairs : ℕ) : Py Unit :=
  if n ≠ nPairs then
    throw (.domainValidation s!"MetricEvidence.{label}.n ({n}) != n_pairs ({nPairs})")
  else pure ()

/-- `MetricEvidence.__post_init__`. The checks run in the order of the source. -/
def postInit (e : MetricEvidenceData) : Py Unit := do
  if PyText.isBlank e.metric then
    throw (.domainValidation "MetricEvidence.metric must be a non-empty string")
  if ¬(0 < e.confidenceLevel ∧ e.confidenceLevel < 1) then
    throw (.domainValidation "MetricEvidence.confidence_level must be in (0, 1)")
  if e.ciLow.isNone ≠ e.ciHigh.isNone then
    throw (.domainValidation
      "MetricEvidence.ci_low and ci_high must both be set or both be None")
  if e.inverted then
    throw (.domainValidation "MetricEvidence CI is inverted")
  checkSummarySize "baseline" e.baseline.n e.nPairs
  checkSummarySize "candidate" e.candidate.n e.nPairs
  checkSummarySize "paired_delta" e.pairedDelta.n e.nPairs

end MetricEvidenceData

/-- `MetricEvidence`: the statistical evidence for one metric, as `__post_init__` accepts it. -/
structure MetricEvidence extends MetricEvidenceData where
  valid : toMetricEvidenceData.postInit = .ok ()

namespace MetricEvidence

/-- The constructor with its checks. -/
def make (e : MetricEvidenceData) : Py MetricEvidence :=
  match h : e.postInit with
  | .ok () => .ok { toMetricEvidenceData := e, valid := h }
  | .error err => .error err

/-- A constructed evidence has the given fields. -/
theorem make_eq_ok_iff {e : MetricEvidenceData} {ev : MetricEvidence} :
    make e = .ok ev ↔ ev.toMetricEvidenceData = e := by
  unfold make
  constructor
  · intro h
    split at h
    · cases h
      rfl
    · exact nomatch h
  · rintro rfl
    split
    · rfl
    · rename_i err herr
      rw [ev.valid] at herr
      exact nomatch herr

/-- Fields that fail a check raise its error. -/
theorem make_eq_error {e : MetricEvidenceData} {err : PyError} (h : e.postInit = .error err) :
    make e = .error err := by
  unfold make
  split
  · rename_i hok
    rw [h] at hok
    exact nomatch hok
  · rename_i err' herr
    rw [h] at herr
    cases herr
    rfl

/-- Evidence is determined by its fields. -/
theorem ext_data {a b : MetricEvidence}
    (h : a.toMetricEvidenceData = b.toMetricEvidenceData) : a = b := by
  cases a
  cases b
  cases h
  rfl

end MetricEvidence

/-! ### Judge calibration -/

/-- `LabeledJudgeExample`: one human-labeled example. -/
structure LabeledJudgeExample where
  input : NonBlank
  output : NonBlank
  humanPass : Bool
  reference : Option String

/-- `JudgeCalibrationCase`: one labeled example after the judge has scored it. -/
structure JudgeCalibrationCase where
  input : String
  output : String
  reference : Option String
  humanPass : Bool
  judgePass : Option Bool
  judgeScore : Option ℚ
  judgeReasoning : Option String
  error : Option String
  error_iff_failed : judgePass = none ↔ error ≠ none
  judgeScore_unit : ∀ score, judgeScore = some score → 0 ≤ score ∧ score ≤ 1

/-- `JudgeCalibrationMetrics`. The four cells of the confusion matrix are checked by their sum
alone. -/
structure JudgeCalibrationMetrics where
  total : ℕ
  scored : ℕ
  failures : ℕ
  agreements : ℕ
  agreementRate : Option ℚ
  truePositives : ℤ
  trueNegatives : ℤ
  falsePositives : ℤ
  falseNegatives : ℤ
  precision : Option ℚ
  «recall» : Option ℚ
  f1 : Option ℚ
  scored_add_failures : scored + failures = total
  confusion_sum : truePositives + trueNegatives + falsePositives + falseNegatives = scored

end EvalOps
