import EvalOps.Api.Diagnostics
import EvalOps.Api.Results
import EvalOps.Lib.FloatText

/-!
# `EvalOps.Dashboard.ResultPanel`: the page of a completed experiment

`release-decision.ts`, `diagnostics.ts` and the components of the result panel, down to the words
they show. The panel decides nothing: it classifies the fields that the API sends.

The numbers are doubles. The texts of `metric-labels.ts` are those of the names that are not keys
of `Object.prototype`. Styles, links and hints are left out.
-/

set_option autoImplicit false

namespace EvalOps.Dashboard

/-! ### Numbers -/

/-- `Number.prototype.toString`, of a positive number. -/
def positiveText (x : ℚ) : String :=
  let decimal := FloatText.shortest x
  let digits := Nat.toDigits 10 decimal.digits
  let point := digits.length + decimal.exponent
  let zeros (n : ℤ) : List Char := List.replicate n.toNat '0'
  String.ofList <|
    if digits.length ≤ point ∧ point ≤ 21 then digits ++ zeros decimal.exponent
    else if 0 < point ∧ point ≤ 21 then
      digits.take point.toNat ++ '.' :: digits.drop point.toNat
    else if -6 < point ∧ point ≤ 0 then ['0', '.'] ++ zeros (-point) ++ digits
    else
      let fraction := if digits.length = 1 then [] else '.' :: digits.drop 1
      digits.take 1 ++ fraction ++ 'e' :: (if 0 < point then '+' else '-') ::
        Nat.toDigits 10 (point - 1).natAbs

/-- `String(x)`. -/
def numberText : PyFloat → String
  | .nan => "NaN"
  | .inf negative => if negative then "-Infinity" else "Infinity"
  | .finite x =>
      if x = 0 then "0" else if x < 0 then "-" ++ positiveText (-x) else positiveText x

/-- `Number(x.toFixed(1))`. -/
def fixedOne : PyFloat → PyFloat
  | .finite x =>
      if 10 ^ 21 ≤ |x| then .finite x
      else
        let tenths : ℚ := ⌊|x| * 10 + 1 / 2⌋ / 10
        PyFloat.nearest (if x < 0 then -tenths else tenths)
  | x => x

/-- `formatPercent`. -/
def formatPercent (fraction : ℚ) : String :=
  numberText (fixedOne (PyFloat.nearest (fraction * 100))) ++ "%"

/-! ### Metrics -/

/-- `KNOWN`. -/
def knownLabels : List (String × String) :=
  [("success_rate", "Reliability"),
    ("contains.pass_rate", "Answer quality"),
    ("regex_match.pass_rate", "Pattern compliance"),
    ("exact_match.pass_rate", "Exact-answer match"),
    ("latency_ms.mean", "Mean latency"),
    ("latency_ms.p95", "P95 latency"),
    ("cost_usd.total", "Cost"),
    ("retrieval_recall.pass_rate", "Retrieval recall — pass rate"),
    ("retrieval_recall.mean_score", "Retrieval recall — mean score"),
    ("context_precision.pass_rate", "Context precision — pass rate"),
    ("context_precision.mean_score", "Context precision — mean score"),
    ("groundedness_lexical.pass_rate", "Answer groundedness (lexical) — pass rate"),
    ("groundedness_lexical.mean_score", "Answer groundedness (lexical) — mean score"),
    ("tool_selection.pass_rate", "Tool selection — pass rate"),
    ("tool_selection.mean_score", "Tool selection — mean score"),
    ("tool_arguments.pass_rate", "Tool arguments — pass rate"),
    ("tool_arguments.mean_score", "Tool arguments — mean score"),
    ("tool_success.pass_rate", "Tool success — pass rate"),
    ("tool_success.mean_score", "Tool success — mean score"),
    ("tool_trajectory.pass_rate", "Tool trajectory — pass rate"),
    ("tool_trajectory.mean_score", "Tool trajectory — mean score")]

/-- `metric.slice(0, -suffix.length)`. -/
def withoutSuffix (metric suffix : String) : String :=
  String.ofList (metric.toList.take (metric.length - suffix.length))

/-- `metricLabel`. -/
def metricLabel (metric : String) : String :=
  match knownLabels.lookup metric with
  | some known => known
  | none =>
      if PyText.endswith metric ".pass_rate" then
        withoutSuffix metric ".pass_rate" ++ " pass rate"
      else if PyText.endswith metric ".mean_score" then
        withoutSuffix metric ".mean_score" ++ " mean score"
      else metric

/-- `MetricStatus`. -/
inductive MetricStatus
  | improved
  | withinThreshold
  | regression
  | blocked
  | breachInconclusive
  | breachLowEvidence
  | unchanged
  | notAvailable
deriving DecidableEq, Repr

/-- `metricStatus`. -/
def metricStatus (metric : MetricLineRead) : MetricStatus :=
  if metric.regression then .blocked
  else
    match metric.adverseChange with
    | none => .notAvailable
    | some adverse =>
        if adverse < 0 then .improved
        else if 0 < adverse then
          if metric.threshold.isSome then .withinThreshold else .regression
        else .unchanged

/-- `metricDisplayStatus`. -/
def metricDisplayStatus (metric : MetricLineRead) : MetricStatus :=
  if metric.gateOutcome = "regression" then .blocked
  else if metric.gateOutcome = "regression_inconclusive" then .breachInconclusive
  else if metric.gateOutcome = "regression_low_evidence" then .breachLowEvidence
  else metricStatus metric

/-- `METRIC_STATUS_LABEL`. -/
def MetricStatus.label : MetricStatus → String
  | improved => "Improved"
  | withinThreshold => "Within threshold"
  | regression => "Regression"
  | blocked => "Blocked"
  | breachInconclusive => "Breach — inconclusive"
  | breachLowEvidence => "Breach — low evidence"
  | unchanged => "No change"
  | notAvailable => "—"

/-- The classes of `metricStatusTone` and `decisionStateTone`. -/
inductive Tone
  | block
  | warn
  | pass
  | muted
  | neutral
deriving DecidableEq, Repr

/-- `metricStatusTone`. -/
def metricStatusTone : MetricStatus → Tone
  | .blocked => .block
  | .regression | .breachInconclusive | .breachLowEvidence => .warn
  | .improved => .pass
  | _ => .muted

/-- `blockingSentence`. -/
def blockingSentence (metric : MetricLineRead) : String :=
  let name := metricLabel metric.metric
  let allowed :=
    match metric.threshold with
    | none => "no regression"
    | some threshold => "up to " ++ formatPercent threshold
  match metric.adverseChange with
  | none => name ++ " regressed from a zero baseline (unbounded); policy allows " ++ allowed ++ "."
  | some adverse =>
      name ++ " regressed " ++ formatPercent adverse ++ "; policy allows " ++ allowed ++ "."

/-! ### The decision -/

/-- `DecisionState`. -/
inductive DecisionState
  | pass
  | block
  | advisory
  | notGated
deriving DecidableEq, Repr

/-- `decisionState`. -/
def decisionState (result : EvaluationResultRead) : DecisionState :=
  if !result.gated then .notGated
  else if result.decision = "block" then .block
  else if 0 < result.advisories.length then .advisory
  else .pass

/-- `DECISION_STATE_LABEL`. -/
def DecisionState.label : DecisionState → String
  | pass => "PASS"
  | block => "BLOCK"
  | advisory => "PASS · advisory"
  | notGated => "Not gated"

/-- `decisionStateTone`. -/
def decisionStateTone : DecisionState → Tone
  | .pass => .pass
  | .block => .block
  | .advisory => .warn
  | .notGated => .neutral

/-- `DecisionBadge`: the badge of the latest result, behind the query. -/
def decisionBadge (results : List EvaluationResultRead) : Tone × String :=
  match results.getLast? with
  | none => (.neutral, "Not run yet")
  | some latest => (decisionStateTone (decisionState latest), (decisionState latest).label)

/-- `HEADLINE`. -/
def DecisionState.headline : DecisionState → String
  | pass => "Ready to release"
  | block => "Release blocked"
  | advisory => "Passed with unverified concerns"
  | notGated => "Comparison only"

/-- `DecisionHero`: the headline, the paragraph, the list below it, and the line below the list. -/
structure DecisionHero where
  state : DecisionState
  headline : String
  paragraph : String
  items : List String
  note : Option String
deriving DecidableEq

/-- A count in front of a noun. -/
def counted (n : ℕ) (noun plural : String) : String :=
  s!"{n} " ++ noun ++ if n = 1 then "" else plural

/-- The lines of `DecisionHero` that block. -/
def blockingLines (result : EvaluationResultRead) : List MetricLineRead :=
  result.metrics.filter MetricLineRead.regression

/-- The lines of `DecisionHero` that improved. -/
def improvedLines (result : EvaluationResultRead) : List MetricLineRead :=
  result.metrics.filter fun m => decide (metricStatus m = .improved)

/-- The paragraph of `DecisionHero`. -/
def heroParagraph (result : EvaluationResultRead) : DecisionState → String
  | .notGated =>
      "No release policy is attached, so the two versions were measured but no PASS or BLOCK " ++
        "decision was made. Attach a release policy to gate this comparison."
  | .block =>
      counted (blockingLines result).length "policy metric" "s" ++
        " regressed beyond tolerance, " ++ "with statistical evidence strong enough to confirm it."
  | .advisory =>
      counted result.advisories.length "threshold breach" "es" ++ " could not be confirmed " ++
        "statistically. Do not read this as an unconditional pass."
  | .pass =>
      "All gated metrics stayed within the release policy" ++
        if 0 < (improvedLines result).length then
          "; " ++ counted (improvedLines result).length "metric" "s" ++ " improved."
        else ". No statistically confirmed regression exceeded the configured policy."

/-- The list of `DecisionHero`. -/
def heroItems (result : EvaluationResultRead) : DecisionState → List String
  | .block =>
      if 0 < (blockingLines result).length then (blockingLines result).map blockingSentence
      else result.reasons
  | .advisory => result.advisories
  | _ => []

/-- The line below the list of `DecisionHero`. -/
def heroNote : DecisionState → Option String
  | .advisory => some "Re-run with more repeats or a larger dataset for a conclusive result."
  | _ => none

/-- `DecisionHero`. -/
def decisionHero (result : EvaluationResultRead) : DecisionHero :=
  let state := decisionState result
  { state
    headline := state.headline
    paragraph := heroParagraph result state
    items := heroItems result state
    note := heroNote state }

/-! ### The evidence -/

/-- `EvidenceStatus`. -/
inductive EvidenceStatus
  | supportsRegression
  | inconclusive
  | insufficient
  | withinTolerance
  | referenceOnly
deriving DecidableEq, Repr

/-- `evidenceStatus`. -/
def evidenceStatus (evidence : MetricEvidenceRead) (line : Option MetricLineRead) :
    EvidenceStatus :=
  if evidence.insufficientEvidence || evidence.ciLow.isNone then .insufficient
  else
    match line with
    | none => .referenceOnly
    | some line =>
        if line.gateOutcome = "regression" then .supportsRegression
        else if line.gateOutcome = "regression_inconclusive" then .inconclusive
        else if line.gateOutcome = "regression_low_evidence" then .insufficient
        else .withinTolerance

/-- `EVIDENCE_STATUS_LABEL`. -/
def EvidenceStatus.label : EvidenceStatus → String
  | supportsRegression => "CI supports a regression"
  | inconclusive => "Inconclusive"
  | insufficient => "Insufficient evidence"
  | withinTolerance => "Within tolerance"
  | referenceOnly => "Reference only"

/-- `lineByMetric.get(metric)` of `StatisticalEvidence`. -/
def lineByMetric (result : EvaluationResultRead) (metric : String) : Option MetricLineRead :=
  (Dict.ofList (result.metrics.map fun m => (m.metric, m))).get? metric

/-- The entries of `StatisticalEvidence`, each with its status. -/
def evidenceEntries (result : EvaluationResultRead) : List (MetricEvidenceRead × EvidenceStatus) :=
  result.evidence.map fun entry =>
    (entry, evidenceStatus entry (lineByMetric result entry.metric))

/-- The metrics of `deterministicGatedLabels`: gated, and without evidence. -/
def deterministicGated (result : EvaluationResultRead) : List MetricLineRead :=
  result.metrics.filter fun m =>
    m.threshold.isSome && !(result.evidence.map MetricEvidenceRead.metric).contains m.metric

end EvalOps.Dashboard
