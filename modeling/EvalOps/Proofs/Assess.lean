import EvalOps.Proofs.Evidence
import EvalOps.Proofs.Gate

/-!
# `EvalOps.Proofs.Assess`: the pipeline after the run

On the outcome of a grid nothing after the runner raises but the gate, and the gate only for a
policy over metrics that are not produced. `Grid.assess_eq` is the equation, and
`Grid.assess_eq_ok` the case of a policy over produced metrics.
-/

set_option autoImplicit false

namespace EvalOps

/-- When the evidence of a series confirms a breach. Eight pairs are enough for an interval. -/
theorem confirms_evidenceData_iff {rt : Runtime} {options : BootstrapOptions} {s : PairedSeries}
    {d : Direction} {t : ℚ} :
    Confirms d (evidenceData rt options s) t ↔
      minPairsToBlock ≤ (differences s.baseline s.candidate).length ∧
      match d with
      | .higherIsBetter =>
          bootstrapBound rt options (differences s.baseline s.candidate) (1 - options.tail)
            < -(t * mean s.baseline)
      | .lowerIsBetter =>
          t * mean s.baseline
            < bootstrapBound rt options (differences s.baseline s.candidate) options.tail := by
  unfold Confirms
  refine and_congr_right fun hpairs => ?_
  -- With enough pairs to block there is an interval.
  have hci : ¬(differences s.baseline s.candidate).length < minPairsForCi := by
    simp only [evidenceData, minPairsToBlock] at hpairs
    simp only [minPairsForCi]
    omega
  simp only [evidenceData, bootstrapCi, if_neg hci, summarize_mean, Option.some.injEq]
  cases d <;> simp

/-- The quality metrics, each with the observation whose mean it is. -/
inductive Quality (names : List String) : String → (Trial → ℚ) → Prop
  | success : Quality names "success_rate" successValue
  | pass (name : String) : name ∈ names → Quality names (passRateMetric name) (passValue name)
  | score (name : String) : name ∈ names → Quality names (meanScoreMetric name) (scoreValue name)

theorem Quality.nonblank {names : List String} {metric : String} {observe : Trial → ℚ}
    (h : Quality names metric observe) : PyText.isBlank metric = false := by
  cases h with
  | success => decide
  | pass name _ => exact passRateMetric_nonblank name
  | score name _ => exact meanScoreMetric_nonblank name

theorem Quality.directionOf {names : List String} {metric : String} {observe : Trial → ℚ}
    (h : Quality names metric observe) : directionOf metric = .higherIsBetter := by
  cases h with
  | success => decide
  | pass name _ => exact directionOf_passRateMetric name
  | score name _ => exact directionOf_meanScoreMetric name

/-- A relation between the comparisons of two runs, metric by metric. -/
theorem forall₂_comparisons {R : MetricComparison → MetricComparison → Prop}
    {names : List String} {bs cs bs' cs' : List Trial}
    (hquality : ∀ metric observe (h : Quality names metric observe),
      R (comparison metric h.nonblank bs cs (meanOf observe))
        (comparison metric h.nonblank bs' cs' (meanOf observe)))
    (hmean : R (comparison "latency_ms.mean" (by decide) bs cs latencyMeanOf)
      (comparison "latency_ms.mean" (by decide) bs' cs' latencyMeanOf))
    (hp95 : R (comparison "latency_ms.p95" (by decide) bs cs latencyP95Of)
      (comparison "latency_ms.p95" (by decide) bs' cs' latencyP95Of))
    (hcost : R (comparison "cost_usd.total" (by decide) bs cs costTotalOf)
      (comparison "cost_usd.total" (by decide) bs' cs' costTotalOf)) :
    List.Forall₂ R (comparisons names bs cs) (comparisons names bs' cs') := by
  refine List.Forall₂.cons (hquality _ _ Quality.success) (List.rel_append ?_ ?_)
  · apply ListRules.forall₂_flatMap
    intro name hname
    exact .cons (hquality _ _ (Quality.pass name hname))
      (.cons (hquality _ _ (Quality.score name hname)) .nil)
  · exact .cons hmean (.cons hp95 (.cons hcost .nil))

/-- An evaluation is the assessment of a produced outcome. -/
theorem runEvaluation_eq_ok {env : Environment} {rt : Runtime} {experiment : Experiment}
    {dataset : Dataset} {baseline candidate : SystemVersion} {policy : Option ReleasePolicy}
    {evaluators : List Evaluator} {providers : Dict ProviderName ProviderClient} {s t : ℕ}
    {a : EvaluationOutcome}
    (h : Effect.exec (runEvaluation env rt experiment dataset baseline candidate policy evaluators
      providers) s = (.ok a, t)) :
    ∃ outcome, Produced experiment dataset (evaluators.map Evaluator.name) outcome ∧
      assess rt experiment (evaluators.map Evaluator.name) policy env.resultStamp outcome
        = .ok a := by
  obtain ⟨outcome, s', hrun, hassess⟩ := Effect.exec_bind_eq_ok.mp h
  exact ⟨outcome, ⟨_, _, _, _, _, _, _, hrun, rfl⟩, (Prod.mk.inj hassess).1⟩

/-- Quality observations are not negative. -/
theorem Quality.observe_nonneg {names : List String} {metric : String} {observe : Trial → ℚ}
    (h : Quality names metric observe) (t : Trial) : 0 ≤ observe t := by
  cases h with
  | success =>
      unfold successValue successObs
      split <;> norm_num
  | pass name _ =>
      unfold passValue
      split <;> norm_num
  | score name _ =>
      unfold scoreValue
      cases trialScore name t with
      | none => exact le_refl 0
      | some s => exact s.score_nonneg

/-- The mean of values that are not negative is not negative. -/
theorem mean_nonneg {xs : List ℚ} (h : ∀ x ∈ xs, 0 ≤ x) : 0 ≤ mean xs :=
  div_nonneg (List.sum_nonneg h) (Nat.cast_nonneg _)

namespace Grid

variable {experiment : Experiment} {caseIds : List EntityId} {names : List String}
  (g : Grid experiment caseIds names)

/-- A relation between the series of two runs, metric by metric. -/
theorem forall₂_series {R : PairedSeries → PairedSeries → Prop}
    {g' : Grid experiment caseIds names}
    (hquality : ∀ metric kind observe, Quality names metric observe →
      R (g.observed metric kind observe) (g'.observed metric kind observe))
    (hlatency : R (latencySeries g.pairs g.keys.length 0) (latencySeries g'.pairs g.keys.length 0))
    (hcost : R (g.observed "cost_usd.mean" .continuous costValue)
      (g'.observed "cost_usd.mean" .continuous costValue)) :
    List.Forall₂ R g.series g'.series := by
  refine List.Forall₂.cons (hquality _ _ _ Quality.success) (List.rel_append ?_ ?_)
  · apply ListRules.forall₂_flatMap
    intro name hname
    exact .cons (hquality _ _ _ (Quality.pass name hname))
      (.cons (hquality _ _ _ (Quality.score name hname)) .nil)
  · exact .cons hlatency (.cons hcost .nil)

/-- No observation of the baseline is negative. -/
theorem series_baseline_nonneg {s : PairedSeries} (hs : s ∈ g.series) :
    ∀ x ∈ s.baseline, 0 ≤ x := by
  have hall : List.Forall₂ (fun s _ => ∀ x ∈ s.baseline, 0 ≤ x) g.series g.series :=
    g.forall₂_series
      (fun metric kind observe hq x hx => by
        obtain ⟨key, _, rfl⟩ := List.mem_map.mp hx
        exact hq.observe_nonneg _)
      (fun x hx => by
        obtain ⟨p, _, rfl⟩ := List.mem_map.mp hx
        exact p.1.usage.latencyMs_nonneg)
      (fun x hx => by
        obtain ⟨key, _, rfl⟩ := List.mem_map.mp hx
        exact (g.baseline key).1.usage.costUsd_nonneg)
  exact List.forall₂_same.mp hall s hs

/-- The result of the run of a grid: its comparisons and its evidence. -/
structure ResultOf (rt : Runtime) (stamp : Stamp) (result : EvaluationResult) : Prop where
  experimentId : result.experimentId = experiment.id
  metrics : result.metrics = comparisons names g.baselineTrials g.candidateTrials
  evidence : result.evidence.map MetricEvidence.toMetricEvidenceData
    = g.evidenceFields rt .default
  id : result.id = stamp.id
  createdAt : result.createdAt = stamp.createdAt

/-- The evidence bears the names of the series. -/
theorem map_metric_evidenceFields (rt : Runtime) (options : BootstrapOptions) :
    (g.evidenceFields rt options).map MetricEvidenceData.metric
      = g.series.map PairedSeries.metric := by
  unfold evidenceFields
  rw [List.map_map]
  calc g.series.zipIdx.map (fun p => p.1.metric)
      = (g.series.zipIdx.map Prod.fst).map PairedSeries.metric := by rw [List.map_map]; rfl
    _ = g.series.map PairedSeries.metric := by rw [List.zipIdx_map_fst]

/-- The pipeline on the outcome of a grid, up to the gate. -/
theorem assess_eq (rt : Runtime) (stamp : Stamp) :
    ∃ result, g.ResultOf rt stamp result ∧ ∀ policy,
      assess rt experiment names policy stamp g.outcome
        = (do
            let gate ← evaluateGate result policy
            pure { outcome := g.outcome, result, gate }) := by
  obtain ⟨evidence, hevidence, hfields⟩ :=
    g.buildStatisticalEvidence_eq_ok rt (default_valid BootstrapOptions.default.seed)
  have hnodup : (evidence.map fun e => e.metric).Nodup := by
    -- One piece of evidence for each series, so their names are distinct.
    have hmap : (evidence.map fun e => e.metric) = g.series.map PairedSeries.metric := by
      rw [← g.map_metric_evidenceFields rt .default, ← hfields, List.map_map]
      rfl
    rw [hmap]
    exact g.nodup_map_metric_series
  refine ⟨{ g.aggregated stamp with evidence, evidence_nodup := hnodup },
    ⟨rfl, rfl, hfields, rfl, rfl⟩, ?_⟩
  intro policy
  unfold assess
  rw [g.aggregateResults_eq_ok stamp, ExceptRules.ok_bind, hevidence, ExceptRules.ok_bind]
  unfold EvaluationResult.replaceEvidence
  rw [EvaluationResult.make_of_nodup (g.aggregated stamp).metrics_nodup hnodup]
  rfl

variable {g} {rt : Runtime} {stamp : Stamp} {result : EvaluationResult}

/-- Every metric of the result is an expected one. -/
theorem ResultOf.directed (h : g.ResultOf rt stamp result) : Directed result := by
  intro mc hmc
  have hexpected : mc.metric ∈ expectedMetricNames names := by
    rw [← map_metric_comparisons names g.baselineTrials g.candidateTrials, ← h.metrics]
    exact List.mem_map_of_mem hmc
  exact direction_eq_ok hexpected

/-- A result is determined by its metrics and its evidence. -/
theorem ResultOf.eq_of_fields {caseIds' : List EntityId} {g' : Grid experiment caseIds' names}
    {result' : EvaluationResult} (h : g.ResultOf rt stamp result)
    (h' : g'.ResultOf rt stamp result')
    (hcomparisons : comparisons names g.baselineTrials g.candidateTrials
      = comparisons names g'.baselineTrials g'.candidateTrials)
    (hfields : g.evidenceFields rt .default = g'.evidenceFields rt .default) :
    result = result' := by
  -- A piece of evidence is determined by its fields.
  have hevidence : result.evidence = result'.evidence :=
    List.map_injective_iff.mpr (fun _ _ hab => MetricEvidence.ext_data hab)
      ((h.evidence.trans hfields).trans h'.evidence.symm)
  have hmetrics := (h.metrics.trans hcomparisons).trans h'.metrics.symm
  have hexperiment := h.experimentId.trans h'.experimentId.symm
  have hid := h.id.trans h'.id.symm
  have hcreated := h.createdAt.trans h'.createdAt.symm
  cases result
  cases result'
  cases hevidence
  cases hmetrics
  cases hexperiment
  cases hid
  cases hcreated
  rfl

/-- A policy over produced metrics is assessed. -/
theorem assess_eq_ok (g : Grid experiment caseIds names) (rt : Runtime) (stamp : Stamp)
    {policy : Option ReleasePolicy}
    (hpolicy : PolicyCovered policy (comparisons names g.baselineTrials g.candidateTrials)) :
    ∃ a, assess rt experiment names policy stamp g.outcome = .ok a ∧
      a.outcome = g.outcome ∧ g.ResultOf rt stamp a.result ∧ Decided a.result policy a.gate := by
  obtain ⟨result, hresult, hassess⟩ := g.assess_eq rt stamp
  rw [← hresult.metrics] at hpolicy
  obtain ⟨report, hgate, hdecided⟩ := evaluateGate_eq_ok hresult.directed hpolicy
  refine ⟨⟨g.outcome, result, report⟩, ?_, rfl, hresult, hdecided⟩
  rw [hassess, hgate]
  rfl

/-- A policy over a metric that is not produced ends the assessment in a `ConfigError`. -/
theorem assess_eq_error (g : Grid experiment caseIds names) (rt : Runtime) (stamp : Stamp)
    {policy : Option ReleasePolicy}
    (hpolicy : ¬PolicyCovered policy (comparisons names g.baselineTrials g.candidateTrials)) :
    ∃ message, assess rt experiment names policy stamp g.outcome = .error (.config message) := by
  obtain ⟨result, hresult, hassess⟩ := g.assess_eq rt stamp
  unfold PolicyCovered at hpolicy
  push Not at hpolicy
  obtain ⟨policy, rfl, hunknown⟩ := hpolicy
  obtain ⟨message, hgate⟩ := evaluateGate_unknown (hresult.metrics ▸ hunknown)
  refine ⟨message, ?_⟩
  rw [hassess, hgate]
  rfl

/-- Related series have related evidence, when the evidence of two series under one seed is. -/
theorem ResultOf.forall₂_evidence {g' : Grid experiment caseIds names}
    {stamp' : Stamp} {result' : EvaluationResult}
    (h : g.ResultOf rt stamp result) (h' : g'.ResultOf rt stamp' result')
    {R : PairedSeries → PairedSeries → Prop} (hseries : List.Forall₂ R g.series g'.series) :
    List.Forall₂ (fun e e' : MetricEvidence => ∃ s s' seed, R s s' ∧
        e.toMetricEvidenceData = evidenceData rt { BootstrapOptions.default with seed } s ∧
        e'.toMetricEvidenceData = evidenceData rt { BootstrapOptions.default with seed } s')
      result.evidence result'.evidence := by
  have hfields : List.Forall₂ (fun d d' : MetricEvidenceData => ∃ s s' seed, R s s' ∧
        d = evidenceData rt { BootstrapOptions.default with seed } s ∧
        d' = evidenceData rt { BootstrapOptions.default with seed } s')
      (g.evidenceFields rt .default) (g'.evidenceFields rt .default) := by
    unfold evidenceFields
    rw [List.forall₂_map_left_iff, List.forall₂_map_right_iff]
    refine (ListRules.forall₂_zipIdx hseries 0).imp ?_
    rintro ⟨s, i⟩ ⟨s', j⟩ ⟨hR, rfl⟩
    exact ⟨s, s', _, hR, rfl, rfl⟩
  rw [← h.evidence, ← h'.evidence, List.forall₂_map_left_iff, List.forall₂_map_right_iff]
    at hfields
  exact hfields

/-- What is assessed has a policy over produced metrics. -/
theorem policyCovered_of_assess {policy : Option ReleasePolicy} {a : EvaluationOutcome}
    (h : assess rt experiment names policy stamp g.outcome = .ok a) :
    PolicyCovered policy (comparisons names g.baselineTrials g.candidateTrials) := by
  obtain ⟨result, hresult, hassess⟩ := g.assess_eq rt stamp
  rw [hassess] at h
  rintro p rfl
  by_contra hunknown
  rw [← hresult.metrics] at hunknown
  obtain ⟨message, herror⟩ := evaluateGate_unknown hunknown
  rw [herror] at h
  exact nomatch h

/-- An assessment is that of its grid. -/
theorem of_assess {policy : Option ReleasePolicy} {a : EvaluationOutcome}
    (h : assess rt experiment names policy stamp g.outcome = .ok a) :
    g.ResultOf rt stamp a.result ∧ Decided a.result policy a.gate := by
  obtain ⟨a', ha', _, hresult, hdecided⟩ := g.assess_eq_ok rt stamp (policyCovered_of_assess h)
  rw [h] at ha'
  cases ha'
  exact ⟨hresult, hdecided⟩

end Grid

/-- Two results with related metrics and evidence have related verdicts, metric by metric. -/
theorem forall₂_verdictsOf {result result' : EvaluationResult}
    {policy policy' : Option ReleasePolicy}
    {RM : MetricComparison → MetricComparison → Prop} (RE : MetricEvidence → MetricEvidence → Prop)
    {RV : MetricVerdict → MetricVerdict → Prop}
    (hmetrics : List.Forall₂ (fun mc mc' => mc'.metric = mc.metric ∧ RM mc mc')
      result.metrics result'.metrics)
    (hevidence : List.Forall₂ (fun e e' : MetricEvidence => e'.metric = e.metric ∧ RE e e')
      result.evidence result'.evidence)
    (hverdict : ∀ mc mc' e e', mc'.metric = mc.metric → RM mc mc' →
      Option.Rel (fun e e' : MetricEvidence => e.metric = mc.metric ∧ RE e e') e e' →
      RV (verdictIn (directionOf mc.metric) mc (thresholdOf policy mc.metric) e)
        (verdictIn (directionOf mc.metric) mc' (thresholdOf policy' mc.metric) e')) :
    List.Forall₂ RV (verdictsOf result policy) (verdictsOf result' policy') := by
  unfold verdictsOf
  rw [List.forall₂_map_left_iff, List.forall₂_map_right_iff]
  refine hmetrics.imp fun mc mc' ⟨hname, hRM⟩ => ?_
  rw [hname]
  apply hverdict mc mc' _ _ hname hRM
  have hfind := ListRules.forall₂_find? hevidence
    (p := fun e => decide (e.metric = mc.metric)) (q := fun e => decide (e.metric = mc.metric))
    fun e e' he => by rw [he.1]
  unfold evidenceFor
  generalize hf : result.evidence.find? (fun e => decide (e.metric = mc.metric)) = e at hfind ⊢
  generalize result'.evidence.find? (fun e => decide (e.metric = mc.metric)) = e' at hfind ⊢
  cases hfind with
  | none => exact Option.Rel.none
  | some he => exact Option.Rel.some ⟨by simpa using List.find?_some hf, he.2⟩

end EvalOps
