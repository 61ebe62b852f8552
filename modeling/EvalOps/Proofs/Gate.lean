import EvalOps.Proofs.Aggregate

/-!
# `EvalOps.Proofs.Gate`: verdicts and decisions

`regression_iff` says when a verdict is a regression: the point estimate breaches the threshold,
and the evidence, where the metric has one, confirms it. `evaluateGate_eq_ok` says that the gate
returns on every result whose metrics have a direction and on every policy over these metrics,
and `decision_eq_block_iff` that it blocks exactly when a verdict is a regression.
-/

set_option autoImplicit false

namespace EvalOps

/-! ### Directions -/

/-- The direction of a metric that has one. -/
def directionOf (metric : String) : Direction :=
  if metric ∈ lowerIsBetterMetrics then .lowerIsBetter else .higherIsBetter

theorem lowerIsBetterMetrics_subset_fixed : lowerIsBetterMetrics ⊆ fixedMetrics := by decide

theorem directionOf_passRateMetric (name : String) :
    directionOf (passRateMetric name) = .higherIsBetter :=
  if_neg fun h => passRateMetric_notMem_fixed name (lowerIsBetterMetrics_subset_fixed h)

theorem directionOf_meanScoreMetric (name : String) :
    directionOf (meanScoreMetric name) = .higherIsBetter :=
  if_neg fun h => meanScoreMetric_notMem_fixed name (lowerIsBetterMetrics_subset_fixed h)

/-- The gate has a direction for every produced metric. -/
theorem direction_eq_ok {names : List String} {metric : String}
    (h : metric ∈ expectedMetricNames names) : direction metric = .ok (directionOf metric) := by
  by_cases hlower : metric ∈ lowerIsBetterMetrics
  · simp [direction, directionOf, hlower]
  · have hhigher : metric = "success_rate" ∨ PyText.endswith metric ".pass_rate" = true ∨
        PyText.endswith metric ".mean_score" = true := by
      simp only [expectedMetricNames, List.mem_append, List.mem_cons, List.mem_flatMap,
        List.not_mem_nil, or_false] at h
      rcases h with (rfl | ⟨name, _, rfl | rfl⟩) | rfl | rfl | rfl
      · exact Or.inl rfl
      · exact Or.inr (Or.inl (endswith_passRateMetric name))
      · exact Or.inr (Or.inr (endswith_meanScoreMetric name))
      all_goals exact absurd (by decide) hlower
    simp [direction, directionOf, hlower, hhigher]

/-! ### One verdict -/

/-- The verdict of a metric with a known direction. -/
def verdictIn (d : Direction) (mc : MetricComparison) (threshold : Option ℚ)
    (evidence : Option MetricEvidence) : MetricVerdict :=
  let adverse := adverseChange d mc.baselineValue mc.candidateValue threshold
  let outcome := gateOutcome adverse.2 threshold d evidence
  { metric := mc.metric
    direction := d
    baseline := mc.baselineValue
    candidate := mc.candidateValue
    adverseChange := adverse.1
    threshold
    regression := decide (outcome = .regression)
    outcome
    thresholdBreached := adverse.2
    evidence }

theorem verdict_eq_ok {mc : MetricComparison} {d : Direction} (h : direction mc.metric = .ok d)
    (threshold : Option ℚ) (evidence : Option MetricEvidence) :
    verdict mc threshold evidence = .ok (verdictIn d mc threshold evidence) := by
  unfold verdict
  rw [h]
  rfl

/-- The point estimate breaches a threshold. -/
def Breach (d : Direction) (baseline candidate t : ℚ) : Prop :=
  match d with
  | .higherIsBetter => baseline ≠ 0 ∧ t < (baseline - candidate) / baseline
  | .lowerIsBetter =>
      (baseline = 0 ∧ candidate ≠ 0) ∨ (baseline ≠ 0 ∧ t < (candidate - baseline) / baseline)

/-- The evidence confirms the breach of a threshold. -/
def Confirms (d : Direction) (e : MetricEvidenceData) (t : ℚ) : Prop :=
  minPairsToBlock ≤ e.nPairs ∧ ∃ low high, e.ciLow = some low ∧ e.ciHigh = some high ∧
    match d with
    | .higherIsBetter => high < -(t * e.baseline.mean)
    | .lowerIsBetter => t * e.baseline.mean < low

/-- `threshold_breached`, as `_verdict` computes it. -/
theorem adverseChange_snd_iff {d : Direction} {b c : ℚ} {threshold : Option ℚ} :
    (adverseChange d b c threshold).2 = true ↔ ∃ t, threshold = some t ∧ Breach d b c t := by
  unfold adverseChange Breach
  -- A baseline of zero has no relative change.
  by_cases hb : b = 0
  · by_cases hc : c = 0
    · cases d <;> simp [hb, hc]
    · cases d <;> cases threshold <;> simp [hb, hc]
  · cases d <;> cases threshold <;> simp [hb, exceeds]

/-- `_ci_confirms_regression`, behind the test of the number of pairs. -/
theorem confirms_iff {d : Direction} {e : MetricEvidence} {t : ℚ} :
    (¬(e.nPairs < minPairsToBlock ∨ e.ciLow = none ∨ e.ciHigh = none) ∧
      ciConfirmsRegression e d (some t) = true) ↔ Confirms d e.toMetricEvidenceData t := by
  unfold Confirms ciConfirmsRegression
  cases hlow : e.ciLow <;> cases hhigh : e.ciHigh <;> cases d <;> simp

/-- A verdict is a regression exactly when the breach of the threshold is confirmed by the
evidence, or there is no evidence. -/
theorem regression_iff {d : Direction} {mc : MetricComparison} {threshold : Option ℚ}
    {evidence : Option MetricEvidence} :
    (verdictIn d mc threshold evidence).outcome = .regression ↔
      ∃ t, threshold = some t ∧ Breach d mc.baselineValue mc.candidateValue t ∧
        ∀ e, evidence = some e → Confirms d e.toMetricEvidenceData t := by
  unfold verdictIn gateOutcome
  dsimp only
  -- Without a breach the verdict passes; with one the evidence decides.
  cases hbreach : (adverseChange d mc.baselineValue mc.candidateValue threshold).2 with
  | false =>
      simp only [if_true, reduceCtorEq, false_iff]
      rintro ⟨t, ht, hb, _⟩
      rw [adverseChange_snd_iff.mpr ⟨t, ht, hb⟩] at hbreach
      exact Bool.noConfusion hbreach
  | true =>
      obtain ⟨t, rfl, hb⟩ := adverseChange_snd_iff.mp hbreach
      simp only [Bool.true_eq_false, if_false, Option.some.injEq, exists_eq_left', hb, true_and]
      cases evidence with
      | none => simp
      | some e =>
          simp only [Option.some.injEq, forall_eq', ← confirms_iff]
          split
          · simp_all
          · split <;> simp_all

/-- A verdict passes exactly when no threshold is breached. -/
theorem pass_iff {d : Direction} {mc : MetricComparison} {threshold : Option ℚ}
    {evidence : Option MetricEvidence} :
    (verdictIn d mc threshold evidence).outcome = .pass ↔
      ¬∃ t, threshold = some t ∧ Breach d mc.baselineValue mc.candidateValue t := by
  rw [← adverseChange_snd_iff]
  unfold verdictIn gateOutcome
  dsimp only
  cases (adverseChange d mc.baselineValue mc.candidateValue threshold).2 with
  | false => simp
  | true =>
      cases evidence with
      | none => simp
      | some e =>
          simp only [Bool.true_eq_false, if_false, not_true_eq_false, iff_false]
          split
          · simp
          · split <;> simp

/-- A regression has a threshold, so its reason can be printed. -/
theorem reason_isOk {v : MetricVerdict} (h : v.threshold ≠ none) : ∃ text, reason v = .ok text := by
  cases hv : v.threshold with
  | none => exact absurd hv h
  | some t => exact ⟨_, by simp only [reason, hv]; rfl⟩

/-- A breach that does not block has a threshold and evidence, so its advisory can be printed. -/
theorem advisory_isOk {d : Direction} {mc : MetricComparison} {threshold : Option ℚ}
    {evidence : Option MetricEvidence}
    (h : (verdictIn d mc threshold evidence).isAdvisory = true) :
    ∃ text, advisory (verdictIn d mc threshold evidence) = .ok text := by
  have houtcome : gateOutcome (adverseChange d mc.baselineValue mc.candidateValue threshold).2
      threshold d evidence = .regressionInconclusive ∨
      gateOutcome (adverseChange d mc.baselineValue mc.candidateValue threshold).2
        threshold d evidence = .regressionLowEvidence := of_decide_eq_true h
  cases hbreach : (adverseChange d mc.baselineValue mc.candidateValue threshold).2 with
  | false => simp [gateOutcome, hbreach] at houtcome
  | true =>
      obtain ⟨t, rfl, _⟩ := adverseChange_snd_iff.mp hbreach
      -- A breach without evidence is a regression, not an advisory.
      cases evidence with
      | none => simp [gateOutcome, hbreach] at houtcome
      | some e =>
          unfold advisory verdictIn
          simp only [hbreach]
          split
          · exact ⟨_, rfl⟩
          · rename_i hlow
            -- An inconclusive verdict has both ends of the interval.
            have hci : ∃ text, ciText e = .ok text := by
              unfold ciText
              cases hl : e.ciLow with
              | none => exact ⟨_, rfl⟩
              | some low =>
                  cases hh : e.ciHigh with
                  | some high => exact ⟨_, rfl⟩
                  | none => simp [gateOutcome, hh] at hlow
            obtain ⟨text, htext⟩ := hci
            rw [htext]
            exact ⟨_, rfl⟩

/-! ### The gate -/

/-- The threshold of a metric, absent without a policy. -/
def thresholdOf (policy : Option ReleasePolicy) (metric : String) : Option ℚ :=
  policy.bind fun p => p.thresholds.get? metric

/-- The policy names no metric that the result does not have. -/
def PolicyCovered (policy : Option ReleasePolicy) (metrics : List MetricComparison) : Prop :=
  ∀ p, policy = some p → unknownMetrics p metrics = []

/-- Without a policy nothing has to be covered. -/
theorem policyCovered_none {metrics : List MetricComparison} : PolicyCovered none metrics :=
  fun _ h => nomatch h

/-- Only the names of the metrics matter to the cover. -/
theorem policyCovered_congr {policy : Option ReleasePolicy}
    {metrics metrics' : List MetricComparison}
    (h : metrics.map MetricComparison.metric = metrics'.map MetricComparison.metric)
    (hcovered : PolicyCovered policy metrics) : PolicyCovered policy metrics' := by
  intro p hp
  have := hcovered p hp
  unfold unknownMetrics at this ⊢
  rwa [← h]

/-- The evidence of a metric. -/
def evidenceFor (result : EvaluationResult) (metric : String) : Option MetricEvidence :=
  result.evidence.find? fun e => decide (e.metric = metric)

/-- The verdicts of a result whose metrics have directions. -/
def verdictsOf (result : EvaluationResult) (policy : Option ReleasePolicy) :
    List MetricVerdict :=
  result.metrics.map fun mc =>
    verdictIn (directionOf mc.metric) mc (thresholdOf policy mc.metric)
      (evidenceFor result mc.metric)

/-- Every metric of the result has a direction. -/
def Directed (result : EvaluationResult) : Prop :=
  ∀ mc ∈ result.metrics, direction mc.metric = .ok (directionOf mc.metric)

theorem verdicts_eq_ok {result : EvaluationResult} (hdir : Directed result)
    (policy : Option ReleasePolicy) :
    verdicts result (thresholdOf policy) = .ok (verdictsOf result policy) := by
  apply ExceptRules.mapM_eq_ok_map
  intro mc hmc
  rw [Dict.get?_ofList_map_eq_find? result.evidence_nodup]
  exact verdict_eq_ok (hdir mc hmc) _ _

/-- A verdict that blocks has a threshold. -/
theorem threshold_ne_none_of_regression {result : EvaluationResult}
    {policy : Option ReleasePolicy} {v : MetricVerdict} (hv : v ∈ verdictsOf result policy)
    (h : v.outcome = .regression) : v.threshold ≠ none := by
  obtain ⟨mc, _, rfl⟩ := List.mem_map.mp hv
  obtain ⟨t, ht, _⟩ := regression_iff.mp h
  intro hnone
  exact nomatch ht.symm.trans hnone

/-- The decision of a report that the gate returns, and its verdicts. -/
structure Decided (result : EvaluationResult) (policy : Option ReleasePolicy)
    (report : GateReport) : Prop where
  verdicts : report.verdicts = verdictsOf result policy
  decision : report.decision = .block ↔ ∃ v ∈ report.verdicts, v.outcome = .regression

/-- The gate returns on every result with directions and every policy over its metrics. -/
theorem evaluateGate_eq_ok {result : EvaluationResult} {policy : Option ReleasePolicy}
    (hdir : Directed result) (hpolicy : PolicyCovered policy result.metrics) :
    ∃ report, evaluateGate result policy = .ok report ∧ Decided result policy report := by
  cases policy with
  | none =>
      refine ⟨⟨.pass, verdictsOf result none, [], [], false⟩, ?_, ?_⟩
      · unfold evaluateGate
        dsimp only
        rw [show (fun _ => none : String → Option ℚ) = thresholdOf none from rfl,
          verdicts_eq_ok hdir]
        rfl
      · refine ⟨rfl, ?_⟩
        simp only [reduceCtorEq, false_iff, not_exists, not_and]
        intro v hv h
        obtain ⟨mc, _, rfl⟩ := List.mem_map.mp hv
        exact threshold_ne_none_of_regression hv h rfl
  | some p =>
      -- Every text that the report prints can be printed.
      have hreason : ∀ v ∈ (verdictsOf result (some p)).filter MetricVerdict.isBlocking,
          ∃ text, reason v = .ok text := by
        intro v hv
        obtain ⟨hmem, hblock⟩ := List.mem_filter.mp hv
        exact reason_isOk
          (threshold_ne_none_of_regression hmem (by simpa [MetricVerdict.isBlocking] using hblock))
      have hadvisory : ∀ v ∈ (verdictsOf result (some p)).filter MetricVerdict.isAdvisory,
          ∃ text, advisory v = .ok text := by
        intro v hv
        obtain ⟨hmem, hadv⟩ := List.mem_filter.mp hv
        obtain ⟨mc, _, rfl⟩ := List.mem_map.mp hmem
        exact advisory_isOk hadv
      obtain ⟨reasons, hreasons⟩ := ExceptRules.exists_mapM_eq_ok_iff.mpr hreason
      obtain ⟨advisories, hadvisories⟩ := ExceptRules.exists_mapM_eq_ok_iff.mpr hadvisory
      have hlen := (ExceptRules.mapM_eq_ok_iff.mp hreasons).length_eq
      -- There is one reason for each verdict that blocks.
      have hempty : reasons = [] ↔
          (verdictsOf result (some p)).filter MetricVerdict.isBlocking = [] := by
        rw [← List.length_eq_zero_iff, ← List.length_eq_zero_iff, hlen]
      refine ⟨⟨if reasons ≠ [] then .block else .pass, verdictsOf result (some p), reasons,
        advisories, true⟩, ?_, rfl, ?_⟩
      · unfold evaluateGate
        dsimp only
        rw [if_neg (not_not.mpr (hpolicy p rfl)),
          show p.thresholds.get? = thresholdOf (some p) from rfl, verdicts_eq_ok hdir,
          ExceptRules.ok_bind, hreasons, ExceptRules.ok_bind, hadvisories]
        rfl
      · have hblock : (if reasons ≠ [] then ReleaseDecision.block else .pass) = .block ↔
            reasons ≠ [] := by
          split <;> simp_all
        have hregression : reasons ≠ [] ↔
            ∃ v ∈ verdictsOf result (some p), v.outcome = .regression := by
          rw [ne_eq, hempty, List.filter_eq_nil_iff]
          simp [MetricVerdict.isBlocking]
        exact hblock.trans hregression

/-- The gate passes or blocks. It never asks for a review. -/
theorem decision_of_evaluateGate {result : EvaluationResult} {policy : Option ReleasePolicy}
    {report : GateReport} (h : evaluateGate result policy = .ok report) :
    report.decision = .pass ∨ report.decision = .block := by
  unfold evaluateGate at h
  cases policy with
  | none =>
      obtain ⟨_, _, hreport⟩ := ExceptRules.bind_eq_ok.mp h
      cases hreport
      exact Or.inl rfl
  | some p =>
      dsimp only at h
      split at h
      · cases h
      · obtain ⟨_, _, h⟩ := ExceptRules.bind_eq_ok.mp h
        obtain ⟨reasons, _, h⟩ := ExceptRules.bind_eq_ok.mp h
        obtain ⟨_, _, hreport⟩ := ExceptRules.bind_eq_ok.mp h
        cases hreport
        dsimp only
        split
        · exact Or.inr rfl
        · exact Or.inl rfl

/-- The gate raises on a policy that names another metric. -/
theorem evaluateGate_unknown {result : EvaluationResult} {policy : ReleasePolicy}
    (h : unknownMetrics policy result.metrics ≠ []) :
    ∃ message, evaluateGate result (some policy) = .error (.config message) := by
  unfold evaluateGate
  dsimp only
  rw [if_pos h]
  exact ⟨_, rfl⟩

/-- The error on an unknown metric depends on the names of the metrics alone. -/
theorem evaluateGate_unknown_congr {result result' : EvaluationResult}
    {policy : Option ReleasePolicy}
    (hnames : result.metrics.map MetricComparison.metric
      = result'.metrics.map MetricComparison.metric)
    (h : ¬PolicyCovered policy result.metrics) :
    evaluateGate result policy = evaluateGate result' policy := by
  unfold PolicyCovered at h
  push Not at h
  obtain ⟨p, rfl, hunknown⟩ := h
  have hsame : unknownMetrics p result'.metrics = unknownMetrics p result.metrics := by
    unfold unknownMetrics
    rw [hnames]
  unfold evaluateGate
  dsimp only
  rw [hsame, if_pos hunknown, if_pos hunknown]
  rfl

end EvalOps
