import EvalOps.Lib.Doubles
import EvalOps.Stats

/-!
# `EvalOps.Gate`: the release gate

`gate.py`. `evaluateGate` compares each metric of a result with the policy. A breach of a
threshold by a metric without evidence blocks. A breach by a metric with evidence blocks when
the evidence has enough pairs and its interval lies beyond the tolerated boundary.
-/

set_option autoImplicit false

namespace EvalOps

/-- `Direction`. -/
inductive Direction
  | higherIsBetter
  | lowerIsBetter
deriving DecidableEq, Repr

/-- `direction.replace('_', '-')`. -/
def Direction.hyphenated : Direction → String
  | higherIsBetter => "higher-is-better"
  | lowerIsBetter => "lower-is-better"

/-- `GateOutcome`. -/
inductive GateOutcome
  | pass
  | regression
  | regressionInconclusive
  | regressionLowEvidence
deriving DecidableEq, Repr

/-- `MIN_PAIRS_TO_BLOCK`. -/
def minPairsToBlock : ℕ := 8

/-- `_LOWER_IS_BETTER`. -/
def lowerIsBetterMetrics : List String := ["latency_ms.mean", "latency_ms.p95", "cost_usd.total"]

/-- `MetricVerdict`. An adverse change of `none` is unbounded. -/
structure MetricVerdict where
  metric : String
  direction : Direction
  baseline : ℚ
  candidate : ℚ
  adverseChange : Option ℚ
  threshold : Option ℚ
  regression : Bool
  outcome : GateOutcome
  thresholdBreached : Bool
  evidence : Option MetricEvidence

/-- `GateReport`. -/
structure GateReport where
  decision : ReleaseDecision
  verdicts : List MetricVerdict
  reasons : List String
  advisories : List String
  gated : Bool

/-- `_direction`. -/
def direction (metric : String) : Py Direction :=
  if metric ∈ lowerIsBetterMetrics then pure .lowerIsBetter
  else if metric = "success_rate" ∨ PyText.endswith metric ".pass_rate" ∨
      PyText.endswith metric ".mean_score" then pure .higherIsBetter
  else throw (.config ("gate has no direction rule for metric " ++ PyText.repr metric))

/-- `adverse > threshold`, for a metric that is gated. -/
def exceeds (adverse : ℚ) (threshold : Option ℚ) : Bool :=
  match threshold with
  | none => false
  | some t => decide (t < adverse)

/-- The first part of `_verdict`: the adverse change, and whether it breaches the threshold. -/
def adverseChange (direction : Direction) (baseline candidate : ℚ) (threshold : Option ℚ) :
    Option ℚ × Bool :=
  if baseline = 0 ∧ candidate = 0 then (some 0, false)
  else if baseline = 0 then
    match direction with
    | .higherIsBetter => (some 0, false)
    | .lowerIsBetter => (none, threshold.isSome)
  else
    match direction with
    | .higherIsBetter =>
        let adverse := (baseline - candidate) / baseline
        (some adverse, exceeds adverse threshold)
    | .lowerIsBetter =>
        let adverse := (candidate - baseline) / baseline
        (some adverse, exceeds adverse threshold)

/-- `_ci_confirms_regression`. -/
def ciConfirmsRegression (evidence : MetricEvidence) (direction : Direction)
    (threshold : Option ℚ) : Bool :=
  match threshold, evidence.ciLow, evidence.ciHigh with
  | some t, some low, some high =>
      let boundary := t * evidence.baseline.mean
      match direction with
      | .higherIsBetter => decide (high < -boundary)
      | .lowerIsBetter => decide (boundary < low)
  | _, _, _ => false

/-- `_outcome`. -/
def gateOutcome (thresholdBreached : Bool) (threshold : Option ℚ) (direction : Direction)
    (evidence : Option MetricEvidence) : GateOutcome :=
  if thresholdBreached = false then .pass
  else
    match evidence with
    | none => .regression
    | some ev =>
        if ev.nPairs < minPairsToBlock ∨ ev.ciLow = none ∨ ev.ciHigh = none then
          .regressionLowEvidence
        else if ciConfirmsRegression ev direction threshold then .regression
        else .regressionInconclusive

/-- `_verdict`. -/
def verdict (mc : MetricComparison) (threshold : Option ℚ) (evidence : Option MetricEvidence) :
    Py MetricVerdict := do
  let direction ← direction mc.metric
  let (adverse, breached) :=
    adverseChange direction mc.baselineValue mc.candidateValue threshold
  let outcome := gateOutcome breached threshold direction evidence
  pure
    { metric := mc.metric
      direction
      baseline := mc.baselineValue
      candidate := mc.candidateValue
      adverseChange := adverse
      threshold
      regression := decide (outcome = .regression)
      outcome
      thresholdBreached := breached
      evidence }

/-! ### Texts -/

/-- The text of an unbounded change, up to the closing parenthesis. -/
def unboundedPhrase (v : MetricVerdict) : String :=
  "increased from a zero baseline to " ++ PyText.general 6 v.candidate ++
    " (unbounded regression; cannot be expressed as a finite percentage"

/-- The text of a finite change. -/
def finitePhrase (v : MetricVerdict) (adverse : ℚ) : String :=
  v.direction.hyphenated ++ " regression of " ++ PyFloat.percent 1 adverse

/-- `_adverse_phrase`. -/
def adversePhrase (v : MetricVerdict) : String :=
  match v.adverseChange with
  | none => unboundedPhrase v ++ ")"
  | some adverse => finitePhrase v adverse

/-- `_reason`. -/
def reason (v : MetricVerdict) : Py String :=
  match v.threshold with
  | none => throw ⟨.assertionError, ""⟩
  | some threshold =>
      pure (match v.adverseChange with
        | none =>
            v.metric ++ ": " ++ unboundedPhrase v ++ "; limit " ++
              PyFloat.percent 0 threshold ++ ")"
        | some adverse =>
            v.metric ++ ": " ++ finitePhrase v adverse ++ " (limit " ++
              PyFloat.percent 0 threshold ++ ")")

/-- The interval as `_advisory` prints it. -/
def ciText (ev : MetricEvidence) : Py String :=
  match ev.ciLow, ev.ciHigh with
  | none, _ => pure "unavailable"
  | some low, some high =>
      pure ("[" ++ PyText.general 3 low ++ ", " ++ PyText.general 3 high ++ "]")
  | some _, none =>
      throw ⟨.other "TypeError", "unsupported format string passed to NoneType.__format__"⟩

/-- `_advisory`. -/
def advisory (v : MetricVerdict) : Py String :=
  match v.threshold, v.evidence with
  | some threshold, some ev => do
      let head := v.metric ++ ": observed " ++ adversePhrase v ++ " exceeds the " ++
        PyFloat.percent 0 threshold ++ " limit"
      if v.outcome = .regressionLowEvidence then
        pure (head ++ s!", but only {ev.nPairs} paired sample(s) (minimum {minPairsToBlock})" ++
          " -- insufficient evidence to block; increase repeats or dataset size")
      else
        let ci ← ciText ev
        pure (head ++ ", but the " ++ PyFloat.percent 0 ev.confidenceLevel ++ " CI " ++ ci ++
          " does not confirm a regression beyond the tolerated boundary -- not blocking")
  | _, _ => throw ⟨.assertionError, ""⟩

/-! ### The gate -/

/-- The verdict drives `BLOCK`. -/
def MetricVerdict.isBlocking (v : MetricVerdict) : Bool := decide (v.outcome = .regression)

/-- The verdict is a breach that does not block. -/
def MetricVerdict.isAdvisory (v : MetricVerdict) : Bool :=
  decide (v.outcome = .regressionInconclusive ∨ v.outcome = .regressionLowEvidence)

/-- The policy metrics that the result does not have. -/
def unknownMetrics (policy : ReleasePolicy) (metrics : List MetricComparison) : List String :=
  Sorting.sorted
    (policy.thresholds.keys.filter fun m => m ∉ metrics.map MetricComparison.metric)

/-- The verdict of every metric. -/
def verdicts (result : EvaluationResult) (threshold : String → Option ℚ) :
    Py (List MetricVerdict) :=
  let evidenceByMetric := Dict.ofList (result.evidence.map fun e => (e.metric, e))
  result.metrics.mapM fun mc =>
    verdict mc (threshold mc.metric) (evidenceByMetric.get? mc.metric)

/-- `evaluate_gate`. -/
def evaluateGate (result : EvaluationResult) (policy : Option ReleasePolicy) :
    Py GateReport := do
  match policy with
  | none =>
      let verdicts ← verdicts result fun _ => none
      pure { decision := .pass, verdicts, reasons := [], advisories := [], gated := false }
  | some policy =>
      let unknown := unknownMetrics policy result.metrics
      if unknown ≠ [] then
        throw (.config ("release policy references metric(s) not produced by the evaluation: " ++
          PyText.reprList unknown))
      let verdicts ← verdicts result policy.thresholds.get?
      let reasons ← (verdicts.filter MetricVerdict.isBlocking).mapM reason
      let advisories ← (verdicts.filter MetricVerdict.isAdvisory).mapM advisory
      pure
        { decision := if reasons ≠ [] then .block else .pass
          verdicts, reasons, advisories
          gated := true }

end EvalOps
