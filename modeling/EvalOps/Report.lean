import EvalOps.Config

/-!
# `EvalOps.Report`: the evaluation report

`report.py`. `buildReport` assembles a `RunReport` from the plan, the outcome of the run and the
gate. It has two renderings: `humanReport` is a text, and `jsonReport` the tree that
`json.dumps` prints.
-/

set_option autoImplicit false

namespace EvalOps

/-- The serialised direction. -/
def Direction.value : Direction → String
  | higherIsBetter => "higher_is_better"
  | lowerIsBetter => "lower_is_better"

/-- The serialised gate outcome. -/
def GateOutcome.value : GateOutcome → String
  | pass => "pass"
  | regression => "regression"
  | regressionInconclusive => "regression_inconclusive"
  | regressionLowEvidence => "regression_low_evidence"

/-- `SCHEMA_VERSION`. -/
def schemaVersion : ℤ := 2

/-- `MetricLine`. -/
structure MetricLine where
  metric : String
  baselineValue : ℚ
  candidateValue : ℚ
  delta : ℚ
  relativeDelta : Option ℚ
  direction : Direction
  threshold : Option ℚ
  adverseChange : Option ℚ
  regression : Bool
  gateOutcome : GateOutcome

/-- `RunReport`. -/
structure RunReport where
  datasetName : String
  baselineName : String
  baselineVersion : String
  candidateName : String
  candidateVersion : String
  repeats : ℕ
  caseCount : ℕ
  runCount : ℕ
  failureCount : ℕ
  metrics : List MetricLine
  gated : Bool
  decision : ReleaseDecision
  reasons : List String
  advisories : List String

/-- One line of the report. A metric without a verdict is a `KeyError`. -/
def metricLine (verdicts : Dict String MetricVerdict) (mc : MetricComparison) : Py MetricLine :=
  match verdicts.get? mc.metric with
  | none => throw ⟨.keyError, PyText.repr mc.metric⟩
  | some v =>
      pure
        { metric := mc.metric
          baselineValue := mc.baselineValue
          candidateValue := mc.candidateValue
          delta := mc.delta
          relativeDelta := mc.relativeDelta
          direction := v.direction
          threshold := v.threshold
          adverseChange := v.adverseChange
          regression := v.regression
          gateOutcome := v.outcome }

/-- `build_report`. -/
def buildReport (plan : RunPlan) (outcome : RunOutcome) (result : EvaluationResult)
    (gate : GateReport) : Py RunReport := do
  let verdicts := Dict.ofList (gate.verdicts.map fun v => (v.metric, v))
  let lines ← result.metrics.mapM (metricLine verdicts)
  pure
    { datasetName := plan.dataset.name.text
      baselineName := plan.baseline.name.text
      baselineVersion := plan.baseline.version.text
      candidateName := plan.candidate.name.text
      candidateVersion := plan.candidate.version.text
      repeats := plan.experiment.repeats
      caseCount := plan.dataset.cases.length
      runCount := outcome.runs.length
      failureCount := outcome.runs.countP fun run => run.error.isSome
      metrics := lines
      gated := gate.gated
      decision := gate.decision
      reasons := gate.reasons
      advisories := gate.advisories }

/-! ### The human report -/

/-- `_change`. -/
def changeText (line : MetricLine) : String :=
  match line.relativeDelta with
  | none => "n/a"
  | some delta => if delta = 0 then "0.0%" else PyFloat.signedPercent 1 delta

/-- `_threshold`. -/
def thresholdText (line : MetricLine) : String :=
  match line.threshold with
  | none => "-"
  | some threshold => PyFloat.percent 1 threshold

/-- `_status`. -/
def statusText (line : MetricLine) : String :=
  if line.threshold.isNone then "-"
  else if line.regression || decide (line.gateOutcome = .regression) then "BLOCK"
  else if line.gateOutcome = .regressionInconclusive ∨
      line.gateOutcome = .regressionLowEvidence then "ADVISORY"
  else "OK"

/-- One row of the table, under a first column of the given width. -/
def tableRow (nameWidth : ℕ) (metric baseline candidate change threshold status : String) :
    String :=
  PyText.alignLeft nameWidth metric ++ "  " ++ PyText.alignRight 10 baseline ++ "  " ++
    PyText.alignRight 10 candidate ++ "  " ++ PyText.alignRight 9 change ++ "  " ++
    PyText.alignRight 9 threshold ++ "  " ++ status

/-- `human_report`. -/
def humanReport (report : RunReport) : String :=
  let nameWidth := (report.metrics.map fun m => m.metric.length).foldl max "METRIC".length
  let head :=
    ["EvalOps Evaluation",
      "Dataset: " ++ report.datasetName,
      "Baseline: " ++ report.baselineName ++ " " ++ report.baselineVersion ++
        "  |  Candidate: " ++ report.candidateName ++ " " ++ report.candidateVersion,
      s!"Cases: {report.caseCount} | Repeats: {report.repeats} | " ++
        s!"Runs: {report.runCount} | Failures: {report.failureCount}",
      "",
      tableRow nameWidth "METRIC" "BASELINE" "CANDIDATE" "CHANGE" "THRESHOLD" "STATUS"]
  let rows := report.metrics.map fun m =>
    tableRow nameWidth m.metric (PyText.fixed 3 m.baselineValue) (PyText.fixed 3 m.candidateValue)
      (changeText m) (thresholdText m) (statusText m)
  let decision := ["", "Release decision: " ++ report.decision.value.toUpper]
  let reasons :=
    if report.reasons.isEmpty then [] else "" :: "Reasons:" :: report.reasons.map ("- " ++ ·)
  let advisories :=
    if report.advisories.isEmpty then []
    else
      "" :: ("Advisories (threshold breached, but the evidence is too weak to block " ++
        "-- this is still a PASS):") :: report.advisories.map ("- " ++ ·)
  "\n".intercalate (head ++ rows ++ decision ++ reasons ++ advisories) ++ "\n"

/-! ### The JSON report -/

/-- A number, or `null`. -/
def optFloat : Option ℚ → Json
  | none => .null
  | some x => .float x

/-- The object of one metric line. -/
def MetricLine.payload (m : MetricLine) : Json :=
  .obj
    [("metric", .str m.metric),
      ("baseline_value", .float m.baselineValue),
      ("candidate_value", .float m.candidateValue),
      ("delta", .float m.delta),
      ("relative_delta", optFloat m.relativeDelta),
      ("direction", .str m.direction.value),
      ("threshold", optFloat m.threshold),
      ("adverse_change", optFloat m.adverseChange),
      ("regression", .bool m.regression),
      ("gate_outcome", .str m.gateOutcome.value)]

/-- The object that `json_report` passes to `json.dumps`. -/
def jsonReport (report : RunReport) : Json :=
  .obj
    [("schema_version", .int schemaVersion),
      ("dataset", .obj [("name", .str report.datasetName), ("cases", .int report.caseCount)]),
      ("baseline",
        .obj [("name", .str report.baselineName), ("version", .str report.baselineVersion)]),
      ("candidate",
        .obj [("name", .str report.candidateName), ("version", .str report.candidateVersion)]),
      ("repeats", .int report.repeats),
      ("counts",
        .obj
          [("cases", .int report.caseCount),
            ("runs", .int report.runCount),
            ("failures", .int report.failureCount)]),
      ("metrics", .arr (report.metrics.map MetricLine.payload)),
      ("gated", .bool report.gated),
      ("decision", .str report.decision.value),
      ("reasons", .arr (report.reasons.map Json.str)),
      ("advisories", .arr (report.advisories.map Json.str))]

end EvalOps
