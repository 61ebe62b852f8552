import EvalOps.Proofs.Latency
import EvalOps.Proofs.Quality
import Mathlib.Algebra.BigOperators.Ring.List

/-!
# `EvalOps.Proofs.Units`: the decision does not depend on units

A change of units multiplies every latency by one positive factor and every cost by another.
Each statistic between the runs and the gate commutes with such a factor: the mean, the
nearest-rank percentile, the sums of the bootstrap, its sort and its interpolated bounds. The gate
compares ratios, and both sides of its boundary test carry the factor. So a change of units moves
the values and no verdict. `decision_does_not_depend_on_units` is the statement.
-/

set_option autoImplicit false

namespace EvalOps

/-! ### A change of units -/

/-- A change of units: what a latency and what a cost is multiplied by. -/
structure Units where
  latency : ℚ
  cost : ℚ
  latency_pos : 0 < latency
  cost_pos : 0 < cost

/-- Seconds instead of milliseconds, and cents instead of dollars. -/
def secondsAndCents : Units where
  latency := 1 / 1000
  cost := 100
  latency_pos := by norm_num
  cost_pos := by norm_num

namespace Units

variable (u : Units)

/-- The usage in the new units. -/
def scaleUsage (usage : UsageMetrics) : UsageMetrics where
  promptTokens := usage.promptTokens
  completionTokens := usage.completionTokens
  costUsd := u.cost * usage.costUsd
  latencyMs := u.latency * usage.latencyMs
  costUsd_nonneg := mul_nonneg u.cost_pos.le usage.costUsd_nonneg
  latencyMs_nonneg := mul_nonneg u.latency_pos.le usage.latencyMs_nonneg

/-- The run with its usage in the new units. -/
def scaleRun (run : EvaluationRun) : EvaluationRun := { run with usage := u.scaleUsage run.usage }

/-- The outcome with every usage in the new units. -/
def scaleOutcome (outcome : RunOutcome) : RunOutcome :=
  ⟨outcome.runs.map u.scaleRun, outcome.caseResults⟩

/-- The trial with its usage in the new units. -/
def scaleTrial (t : Trial) : Trial := (u.scaleRun t.1, t.2)

/-- What the values of a metric are multiplied by. -/
def factor (metric : String) : ℚ :=
  if metric ∈ ["latency_ms.mean", "latency_ms.p95"] then u.latency
  else if metric ∈ ["cost_usd.mean", "cost_usd.total"] then u.cost
  else 1

theorem factor_pos (metric : String) : 0 < u.factor metric := by
  unfold factor
  split
  · exact u.latency_pos
  · split
    · exact u.cost_pos
    · exact one_pos

/-- The zero usage of a failed call is zero in every unit. -/
theorem scaleUsage_zero : u.scaleUsage UsageMetrics.zero = UsageMetrics.zero := by
  simp [scaleUsage, UsageMetrics.zero]

/-- The record of a trial is that of the same trial in the new units. -/
theorem records_scaleTrial {experiment : Experiment} {names : List String} {versionId : EntityId}
    {key : PairKey} {t : Trial} (h : Records experiment names versionId key t) :
    Records experiment names versionId key (u.scaleTrial t) :=
  { experimentId := h.experimentId
    versionId := h.versionId
    caseId := h.caseId
    repeatIndex := h.repeatIndex
    runId := h.runId
    failed := fun herror => by
      obtain ⟨houtput, husage, hscores⟩ := h.failed herror
      refine ⟨houtput, ?_, hscores⟩
      change u.scaleUsage t.1.usage = _
      rw [husage, u.scaleUsage_zero]
    scored := h.scored }

end Units

/-! ### Statistics commute with a factor -/

section

variable (c : ℚ)

theorem mean_map_mul (xs : List ℚ) : mean (xs.map (c * ·)) = c * mean xs := by
  unfold mean
  rw [List.length_map, List.sum_map_mul_left, List.map_id', mul_div_assoc]

/-- A positive factor keeps the order, so the rank picks the same observation. -/
theorem nearestRank_map_mul {c : ℚ} (hc : 0 < c) (xs : List ℚ) :
    nearestRank (xs.map (c * ·)) = c * nearestRank xs := by
  unfold nearestRank
  -- A positive factor is monotone, so the sorted observations are the old ones, each scaled.
  rw [Sorting.sorted_map (monotone_mul_left_of_nonneg hc.le), List.length_map]
  simpa [Interpolation.entry] using
    Interpolation.entry_map_mul c (Sorting.sorted xs) (⌈(19 / 20 : ℚ) * xs.length⌉ - 1)

theorem differences_map_mul (baseline candidate : List ℚ) :
    differences (baseline.map (c * ·)) (candidate.map (c * ·))
      = (differences baseline candidate).map (c * ·) := by
  unfold differences
  rw [List.zip_map, List.map_map, List.map_map]
  apply List.map_congr_left
  intro p _
  simp only [Function.comp_apply, Prod.map_fst, Prod.map_snd, mul_sub]

/-- The resample draws the same positions. -/
theorem estimate_map_mul (rt : Runtime) (seed : ℤ) (diffs : List ℚ) (r : ℕ) :
    estimate rt seed (diffs.map (c * ·)) r = c * estimate rt seed diffs r := by
  -- Beyond the end both sides read the default `0`, which every factor fixes.
  have hentry : ∀ i, (diffs.map (c * ·)).getD i 0 = c * diffs.getD i 0 := fun i => by
    simpa [Interpolation.entry] using Interpolation.entry_map_mul c diffs i
  unfold estimate
  rw [List.length_map]
  simp only [hentry]
  rw [List.sum_map_mul_left, mul_div_assoc]

/-- Both bounds of the interval scale. -/
theorem bootstrapBound_map_mul {c : ℚ} (hc : 0 < c) (rt : Runtime) (options : BootstrapOptions)
    (diffs : List ℚ) (q : ℚ) :
    bootstrapBound rt options (diffs.map (c * ·)) q = c * bootstrapBound rt options diffs q := by
  -- The sort commutes with the factor, and the interpolation between two estimates is linear.
  have hordered : orderedEstimates rt options (diffs.map (c * ·))
      = (orderedEstimates rt options diffs).map (c * ·) := by
    unfold orderedEstimates
    rw [← Sorting.sorted_map (monotone_mul_left_of_nonneg hc.le), List.map_map]
    congr 1
    exact List.map_congr_left fun r _ => estimate_map_mul c rt options.seed diffs r
  unfold bootstrapBound
  rw [hordered, Interpolation.value_map_mul]

theorem bootstrapCi_map_mul {c : ℚ} (hc : 0 < c) (rt : Runtime) (options : BootstrapOptions)
    (diffs : List ℚ) :
    bootstrapCi rt options (diffs.map (c * ·))
      = ((bootstrapCi rt options diffs).1.map (c * ·),
          (bootstrapCi rt options diffs).2.map (c * ·)) := by
  unfold bootstrapCi
  rw [List.length_map, bootstrapBound_map_mul hc, bootstrapBound_map_mul hc]
  split <;> rfl

end

/-! ### What a change of units does to the records -/

/-- The comparison in the new units. -/
structure ScaledComparison (u : Units) (mc mc' : MetricComparison) : Prop where
  metric : mc'.metric = mc.metric
  baseline : mc'.baselineValue = u.factor mc.metric * mc.baselineValue
  candidate : mc'.candidateValue = u.factor mc.metric * mc.candidateValue

/-- The series in the new units. -/
structure ScaledSeries (u : Units) (s s' : PairedSeries) : Prop where
  metric : s'.metric = s.metric
  baseline : s'.baseline = s.baseline.map (u.factor s.metric * ·)
  candidate : s'.candidate = s.candidate.map (u.factor s.metric * ·)

/-- The evidence in the new units: the means and the bounds of the interval. -/
structure ScaledEvidence (u : Units) (e e' : MetricEvidence) : Prop where
  metric : e'.metric = e.metric
  nPairs : e'.nPairs = e.nPairs
  baseline : e'.baseline.mean = u.factor e.metric * e.baseline.mean
  candidate : e'.candidate.mean = u.factor e.metric * e.candidate.mean
  pairedDelta : e'.pairedDelta.mean = u.factor e.metric * e.pairedDelta.mean
  ciLow : e'.ciLow = e.ciLow.map (u.factor e.metric * ·)
  ciHigh : e'.ciHigh = e.ciHigh.map (u.factor e.metric * ·)

/-- The same verdict on a metric, up to the values. -/
structure SameVerdict (v v' : MetricVerdict) : Prop where
  metric : v'.metric = v.metric
  adverseChange : v'.adverseChange = v.adverseChange
  thresholdBreached : v'.thresholdBreached = v.thresholdBreached
  outcome : v'.outcome = v.outcome

/-- The evidence of a series in the new units. -/
theorem ScaledSeries.evidence {u : Units} {s s' : PairedSeries} (h : ScaledSeries u s s')
    {rt : Runtime} {options : BootstrapOptions} {e e' : MetricEvidence}
    (he : e.toMetricEvidenceData = evidenceData rt options s)
    (he' : e'.toMetricEvidenceData = evidenceData rt options s') : ScaledEvidence u e e' := by
  have hmetric : e.metric = s.metric := by rw [he]; rfl
  -- Every field that is compared is computed from the differences or from one side.
  have hdiffs : differences s'.baseline s'.candidate
      = (differences s.baseline s.candidate).map (u.factor s.metric * ·) := by
    rw [h.baseline, h.candidate, differences_map_mul]
  have hci := bootstrapCi_map_mul (u.factor_pos s.metric) rt options
    (differences s.baseline s.candidate)
  rw [← hdiffs] at hci
  constructor
  · rw [he, he']
    exact h.metric
  · rw [he, he']
    simp [evidenceData, hdiffs]
  · rw [hmetric, he, he']
    simp [evidenceData, h.baseline, mean_map_mul]
  · rw [hmetric, he, he']
    simp [evidenceData, h.candidate, mean_map_mul]
  · rw [hmetric, he, he']
    simp [evidenceData, hdiffs, mean_map_mul]
  · rw [hmetric, he, he']
    exact congrArg Prod.fst hci
  · rw [hmetric, he, he']
    exact congrArg Prod.snd hci

/-! ### The gate compares ratios -/

/-- The adverse change is a ratio of two values of one unit. -/
theorem adverseChange_mul {c : ℚ} (hc : 0 < c) (d : Direction) (b x : ℚ)
    (threshold : Option ℚ) :
    adverseChange d (c * b) (c * x) threshold = adverseChange d b x threshold := by
  have hne : c ≠ 0 := hc.ne'
  unfold adverseChange
  -- Neither the zero tests nor the quotient sees the factor.
  simp only [mul_eq_zero, hne, false_or, ← mul_sub, mul_div_mul_left _ _ hne]

/-- Both sides of the boundary test carry the factor. -/
theorem ciConfirmsRegression_scaled {u : Units} {e e' : MetricEvidence}
    (h : ScaledEvidence u e e') (d : Direction) (threshold : Option ℚ) :
    ciConfirmsRegression e' d threshold = ciConfirmsRegression e d threshold := by
  have hpos := u.factor_pos e.metric
  unfold ciConfirmsRegression
  rw [h.ciLow, h.ciHigh, h.baseline]
  cases threshold with
  | none => rfl
  | some t =>
      cases e.ciLow with
      | none => rfl
      | some low =>
          cases e.ciHigh with
          | none => rfl
          | some high =>
              -- The boundary is a fraction of the baseline mean, so it has the unit of the
              -- interval.
              have hboundary : t * (u.factor e.metric * e.baseline.mean)
                  = u.factor e.metric * (t * e.baseline.mean) := by ring
              cases d with
              | higherIsBetter =>
                  dsimp only [Option.map_some]
                  rw [hboundary, ← mul_neg]
                  exact decide_eq_decide.mpr (mul_lt_mul_iff_right₀ hpos)
              | lowerIsBetter =>
                  dsimp only [Option.map_some]
                  rw [hboundary]
                  exact decide_eq_decide.mpr (mul_lt_mul_iff_right₀ hpos)

/-- A change of units leaves the verdict on a metric. -/
theorem sameVerdict_verdictIn {u : Units} {mc mc' : MetricComparison}
    (hmc : ScaledComparison u mc mc') {e e' : Option MetricEvidence}
    (he : Option.Rel (ScaledEvidence u) e e') (d : Direction) (threshold : Option ℚ) :
    SameVerdict (verdictIn d mc threshold e) (verdictIn d mc' threshold e') := by
  have hadverse : adverseChange d mc'.baselineValue mc'.candidateValue threshold
      = adverseChange d mc.baselineValue mc.candidateValue threshold := by
    rw [hmc.baseline, hmc.candidate]
    exact adverseChange_mul (u.factor_pos mc.metric) d _ _ threshold
  -- The outcome reads the number of pairs, whether there is an interval, and the boundary test.
  have houtcome : ∀ breached,
      gateOutcome breached threshold d e' = gateOutcome breached threshold d e := by
    intro breached
    cases he with
    | none => rfl
    | some he =>
        unfold gateOutcome
        simp only [he.nPairs, he.ciLow, he.ciHigh, Option.map_eq_none_iff,
          ciConfirmsRegression_scaled he]
  unfold verdictIn
  constructor
  · exact hmc.metric
  · exact congrArg Prod.fst hadverse
  · exact congrArg Prod.snd hadverse
  · dsimp only
    rw [hadverse, houtcome]

/-! ### The grid in the new units -/

theorem successfulLatencies_scaleRun (u : Units) (runs : List EvaluationRun) :
    successfulLatencies (runs.map u.scaleRun)
      = (successfulLatencies runs).map (u.latency * ·) := by
  unfold successfulLatencies
  rw [List.filter_map, List.map_map, List.map_map]
  rfl

/-- No quality metric has a unit. -/
theorem Quality.factor (u : Units) {names : List String} {metric : String}
    {observe : Trial → ℚ} (h : Quality names metric observe) : u.factor metric = 1 := by
  -- The name of a quality metric is none of the names that carry a unit.
  have hfixed : metric ∉ fixedMetrics.tail := by
    cases h with
    | success => decide
    | pass name _ => exact fun hmem => passRateMetric_notMem_fixed name (List.mem_of_mem_tail hmem)
    | score name _ =>
        exact fun hmem => meanScoreMetric_notMem_fixed name (List.mem_of_mem_tail hmem)
  simp only [fixedMetrics, List.tail_cons, List.mem_cons, not_or] at hfixed
  simp [Units.factor, hfixed]

/-- A quality observation does not read the usage. -/
theorem Quality.observe_scaleTrial (u : Units) {names : List String} {metric : String}
    {observe : Trial → ℚ} (h : Quality names metric observe) (t : Trial) :
    observe (u.scaleTrial t) = observe t := by
  cases h <;> rfl

namespace Grid

variable {experiment : Experiment} {caseIds : List EntityId} {names : List String}
  (g : Grid experiment caseIds names) (u : Units)

/-- The grid in the new units. -/
def scaled : Grid experiment caseIds names where
  baseline := fun key => u.scaleTrial (g.baseline key)
  candidate := fun key => u.scaleTrial (g.candidate key)
  caseIds_ne_nil := g.caseIds_ne_nil
  caseIds_nodup := g.caseIds_nodup
  names_nodup := g.names_nodup
  baseline_records := fun key hkey => u.records_scaleTrial (g.baseline_records key hkey)
  candidate_records := fun key hkey => u.records_scaleTrial (g.candidate_records key hkey)
  ids_nodup := by
    have h := g.ids_nodup
    simp only [List.map_append, List.map_map, Function.comp_def] at h ⊢
    exact h

theorem outcome_scaled : u.scaleOutcome g.outcome = (g.scaled u).outcome := by
  have htrials : (g.scaled u).trials = g.trials.map u.scaleTrial := by
    unfold trials
    rw [List.map_append, List.map_map, List.map_map]
    rfl
  unfold Units.scaleOutcome outcome
  rw [htrials, List.map_map, List.map_map, List.map_map]
  rfl

theorem baselineTrials_scaled :
    (g.scaled u).baselineTrials = g.baselineTrials.map u.scaleTrial := by
  unfold baselineTrials
  rw [List.map_map]
  rfl

theorem candidateTrials_scaled :
    (g.scaled u).candidateTrials = g.candidateTrials.map u.scaleTrial := by
  unfold candidateTrials
  rw [List.map_map]
  rfl

/-- The comparisons in the new units. -/
theorem forall₂_comparisons_scaled :
    List.Forall₂ (ScaledComparison u)
      (comparisons names g.baselineTrials g.candidateTrials)
      (comparisons names (g.scaled u).baselineTrials (g.scaled u).candidateTrials) := by
  have hcomparison : ∀ metric (h : PyText.isBlank metric = false) (value : List Trial → ℚ),
      (∀ ts : List Trial, value (ts.map u.scaleTrial) = u.factor metric * value ts) →
      ScaledComparison u (comparison metric h g.baselineTrials g.candidateTrials value)
        (comparison metric h (g.scaled u).baselineTrials (g.scaled u).candidateTrials value) := by
    intro metric h value hvalue
    rw [g.baselineTrials_scaled, g.candidateTrials_scaled]
    exact ⟨rfl, hvalue _, hvalue _⟩
  -- A change of units fails no run, so the same runs count as successful.
  have hlatencies : ∀ ts : List Trial,
      successfulLatencies ((ts.map u.scaleTrial).map Prod.fst)
        = (successfulLatencies (ts.map Prod.fst)).map (u.latency * ·) := by
    intro ts
    rw [← successfulLatencies_scaleRun, List.map_map, List.map_map]
    rfl
  apply forall₂_comparisons
  · -- The quality metrics carry the factor `1`.
    intro metric observe hq
    apply hcomparison
    intro ts
    unfold meanOf
    rw [hq.factor, one_mul, List.map_map]
    congr 1
    exact List.map_congr_left fun t _ => hq.observe_scaleTrial u t
  · -- `latency_ms.mean`.
    apply hcomparison
    intro ts
    unfold latencyMeanOf
    rw [latencyMean_eq, latencyMean_eq, hlatencies, mean_map_mul]
    rfl
  · -- `latency_ms.p95`.
    apply hcomparison
    intro ts
    unfold latencyP95Of
    rw [latencyP95Value_eq, latencyP95Value_eq, hlatencies, nearestRank_map_mul u.latency_pos]
    rfl
  · -- `cost_usd.total`.
    apply hcomparison
    intro ts
    unfold costTotalOf costTotal
    rw [show u.factor "cost_usd.total" = u.cost from rfl, ← List.sum_map_mul_left, List.map_map,
      List.map_map, List.map_map]
    rfl

/-- The series in the new units. -/
theorem forall₂_series_scaled : List.Forall₂ (ScaledSeries u) g.series (g.scaled u).series := by
  have hkeys : (g.scaled u).sortedKeys = g.sortedKeys := rfl
  apply forall₂_series
  · intro metric kind observe hq
    have hone : ∀ f : PairKey → Trial,
        (g.sortedKeys.map fun key => observe (u.scaleTrial (f key)))
          = (g.sortedKeys.map fun key => observe (f key)).map (u.factor metric * ·) := by
      intro f
      simp only [hq.factor, one_mul, List.map_id', hq.observe_scaleTrial]
    exact ⟨rfl, hone g.baseline, hone g.candidate⟩
  · -- The pairs in which both sides answered are the same pairs.
    have hpairs : (g.scaled u).pairs
        = g.pairs.map fun p => (u.scaleRun p.1, u.scaleRun p.2) := by
      unfold pairs
      rw [List.map_map]
      rfl
    have hseries : ∀ latency : EvaluationRun × EvaluationRun → ℚ,
        (∀ p, latency (u.scaleRun p.1, u.scaleRun p.2) = u.latency * latency p) →
        ((g.scaled u).pairs.filter fun p => p.1.error.isNone && p.2.error.isNone).map latency
          = ((g.pairs.filter fun p => p.1.error.isNone && p.2.error.isNone).map latency).map
              (u.latency * ·) := by
      intro latency hlatency
      rw [hpairs, List.filter_map, List.map_map, List.map_map]
      exact List.map_congr_left fun p _ => hlatency p
    exact ⟨rfl, hseries (fun p => p.1.usage.latencyMs) fun _ => rfl,
      hseries (fun p => p.2.usage.latencyMs) fun _ => rfl⟩
  · have hcost : ∀ f : PairKey → Trial,
        (g.sortedKeys.map fun key => costValue (u.scaleTrial (f key)))
          = (g.sortedKeys.map fun key => costValue (f key)).map (u.cost * ·) := by
      intro f
      rw [List.map_map]
      rfl
    exact ⟨rfl, hcost g.baseline, hcost g.candidate⟩

end Grid

/-- Reports with the same verdicts have the same decision. -/
theorem sameDecision {result result' : EvaluationResult} {policy policy' : Option ReleasePolicy}
    {report report' : GateReport} (hgate : evaluateGate result policy = .ok report)
    (hgate' : evaluateGate result' policy' = .ok report') (hdecided : Decided result policy report)
    (hdecided' : Decided result' policy' report')
    (hverdicts : List.Forall₂ SameVerdict report.verdicts report'.verdicts) :
    report'.decision = report.decision := by
  -- A report blocks exactly when one of its verdicts is a regression.
  have hblock : report'.decision = .block ↔ report.decision = .block := by
    rw [hdecided.decision, hdecided'.decision]
    constructor
    · rintro ⟨v', hv', hregression⟩
      obtain ⟨v, hv, hsame⟩ := ListRules.exists_of_forall₂_of_mem hverdicts.flip hv'
      exact ⟨v, hv, hsame.outcome.symm.trans hregression⟩
    · rintro ⟨v, hv, hregression⟩
      obtain ⟨v', hv', hsame⟩ := ListRules.exists_of_forall₂_of_mem hverdicts hv
      exact ⟨v', hv', hsame.outcome.trans hregression⟩
  rcases decision_of_evaluateGate hgate with hpass | hpass <;>
    rcases decision_of_evaluateGate hgate' with hpass' | hpass' <;>
    simp_all

/-- A change of units changes no decision and no verdict of a run. It multiplies the latency and
the cost metrics, the means of their evidence and the bounds of their intervals. A policy that the
gate rejects is rejected with the same error. -/
theorem decision_does_not_depend_on_units {experiment : Experiment} {dataset : Dataset}
    {names : List String} {outcome : RunOutcome} (h : Produced experiment dataset names outcome)
    (u : Units) (rt : Runtime) (policy : Option ReleasePolicy) (stamp : Stamp) :
    (∀ a, assess rt experiment names policy stamp outcome = .ok a →
      ∃ a', assess rt experiment names policy stamp (u.scaleOutcome outcome) = .ok a' ∧
        a'.gate.decision = a.gate.decision ∧
        List.Forall₂ SameVerdict a.gate.verdicts a'.gate.verdicts ∧
        List.Forall₂ (ScaledComparison u) a.result.metrics a'.result.metrics ∧
        List.Forall₂ (ScaledEvidence u) a.result.evidence a'.result.evidence) ∧
    ∀ e, assess rt experiment names policy stamp outcome = .error e →
      assess rt experiment names policy stamp (u.scaleOutcome outcome) = .error e := by
  obtain ⟨g, rfl⟩ := h.grid
  rw [g.outcome_scaled]
  -- Both outcomes are grids, so each assessment is one call of the gate.
  obtain ⟨result, hresult, hassess⟩ := g.assess_eq rt stamp
  obtain ⟨result', hresult', hassess'⟩ := (g.scaled u).assess_eq rt stamp
  rw [hassess, hassess']
  have hmetrics := g.forall₂_comparisons_scaled u
  rw [← hresult.metrics, ← hresult'.metrics] at hmetrics
  have hevidence : List.Forall₂ (ScaledEvidence u) result.evidence result'.evidence := by
    refine (hresult.forall₂_evidence hresult' (g.forall₂_series_scaled u)).imp ?_
    rintro e e' ⟨s, s', seed, hs, he, he'⟩
    exact hs.evidence he he'
  have hnames : result.metrics.map MetricComparison.metric
      = result'.metrics.map MetricComparison.metric := by
    rw [hresult.metrics, hresult'.metrics, map_metric_comparisons, map_metric_comparisons]
  -- The gate rejects a policy by the names of the metrics, which have not changed.
  by_cases hcovered : PolicyCovered policy result.metrics
  · obtain ⟨report, hgate, hdecided⟩ := evaluateGate_eq_ok hresult.directed hcovered
    obtain ⟨report', hgate', hdecided'⟩ :=
      evaluateGate_eq_ok hresult'.directed (policyCovered_congr hnames hcovered)
    rw [hgate, hgate']
    have hverdicts : List.Forall₂ SameVerdict report.verdicts report'.verdicts := by
      rw [hdecided.verdicts, hdecided'.verdicts]
      refine forall₂_verdictsOf (ScaledEvidence u)
        (hmetrics.imp fun mc mc' hmc => ⟨hmc.metric, hmc⟩)
        (hevidence.imp fun e e' he => ⟨he.metric, he⟩) ?_
      intro mc mc' e e' _ hmc he
      apply sameVerdict_verdictIn hmc
      cases he with
      | none => exact Option.Rel.none
      | some he => exact Option.Rel.some he.2
    have hdecision : report'.decision = report.decision :=
      sameDecision hgate hgate' hdecided hdecided' hverdicts
    refine ⟨?_, fun e he => nomatch he⟩
    intro a ha
    cases ha
    exact ⟨_, rfl, hdecision, hverdicts, hmetrics, hevidence⟩
  · -- The gate rejects the policy by its names, which have no unit.
    rw [← evaluateGate_unknown_congr hnames hcovered]
    unfold PolicyCovered at hcovered
    push Not at hcovered
    obtain ⟨p, rfl, hunknown⟩ := hcovered
    obtain ⟨message, herror⟩ := evaluateGate_unknown hunknown
    rw [herror]
    refine ⟨?_, fun e he => he⟩
    intro a ha
    exact nomatch ha

/-- The 95th percentile of the latency has a name. -/
theorem latencyMetric_nonblank : PyText.isBlank "latency_ms.p95" = false := by decide

/-- The policy that tolerates no loss of latency. -/
def latencyPolicy : ReleasePolicy :=
  offlinePolicy "latency_ms.p95" latencyMetric_nonblank 0 nonneg_zero

/-- A slow candidate is blocked by its milliseconds, and as well by its seconds. -/
theorem decision_does_not_depend_on_units_offline :
    ∃ outcome a a', Produced (offlineExperiment 1 one_le_once) (offlineDataset 0) [] outcome ∧
      assess (offlineRuntime 0) (offlineExperiment 1 one_le_once) [] (some latencyPolicy)
        (offlineStamp 0) outcome = .ok a ∧
      assess (offlineRuntime 0) (offlineExperiment 1 one_le_once) [] (some latencyPolicy)
        (offlineStamp 0) (secondsAndCents.scaleOutcome outcome) = .ok a' ∧
      a.gate.decision = .block ∧ a'.gate.decision = .block ∧
      List.Forall₂ SameVerdict a.gate.verdicts a'.gate.verdicts ∧
      List.Forall₂ (ScaledComparison secondsAndCents) a.result.metrics a'.result.metrics ∧
      List.Forall₂ (ScaledEvidence secondsAndCents) a.result.evidence a'.result.evidence := by
  have hruns : (Effect.exec (offlineRun 0 1 one_le_once slowAnswer) 0).1.toOption.any
      (fun outcome => (assess (offlineRuntime 0) (offlineExperiment 1 one_le_once) []
        (some latencyPolicy) (offlineStamp 0) outcome).toOption.any
          fun a => decide (a.gate.decision = .block)) = true := by
    decide +kernel
  obtain ⟨outcome, hrun, hruns⟩ := (Option.any_eq_true _ _).mp hruns
  obtain ⟨a, ha, hblock⟩ := (Option.any_eq_true _ _).mp hruns
  have ha := ExceptRules.toOption_eq_some.mp ha
  have hblock := of_decide_eq_true hblock
  have hproduced := produced_offlineRun (Prod.ext (ExceptRules.toOption_eq_some.mp hrun) rfl)
  obtain ⟨a', ha', hdecision, hscaled⟩ := (decision_does_not_depend_on_units hproduced
    secondsAndCents (offlineRuntime 0) (some latencyPolicy) (offlineStamp 0)).1 a ha
  exact ⟨outcome, a, a', hproduced, ha, ha', hblock, hdecision.trans hblock, hscaled⟩

end EvalOps
