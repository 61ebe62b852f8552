import EvalOps.Proofs.Agreement
import EvalOps.Proofs.Diagnostics

/-!
# `EvalOps.Proofs.Explains`: a quality block has findings

The rates are means over all trials of a version, and the findings come pair by pair. A lower mean
over the same keys has a key with a lower observation, and there the diagnosis reports something:
`failure_of_success_lt` and `finding_of_pass_lt` are the two cases. `quality_drop_is_diagnosed` puts
them under the metrics of a run and under the verdicts of the gate.
-/

set_option autoImplicit false

namespace EvalOps

/-- The evaluators of the outcome always decide: no verdict is `None`. -/
def AlwaysDecides (outcome : RunOutcome) : Prop :=
  ∀ cr ∈ outcome.caseResults, ∀ s ∈ cr.scores, s.passed ≠ none

/-- The kinds of finding that explain a lower pass rate of an evaluator. -/
def ExplainsPassRate (name : String) (f : PairFinding) : Prop :=
  f.kind = .providerFailure ∨
    (f.kind = .evaluatorPassToFail ∧ f.evaluator.map NonBlank.text = some name)

namespace Grid

variable {experiment : Experiment} {caseIds : List EntityId} {names : List String}
  (g : Grid experiment caseIds names)

/-- The keys of the runs of a version are distinct. -/
theorem keysDistinct :
    KeysDistinct g.outcome.runs experiment.baselineVersionId ∧
      KeysDistinct g.outcome.runs experiment.candidateVersionId := by
  unfold KeysDistinct
  rw [g.filter_baseline, g.filter_candidate, List.map_map, List.map_map]
  exact ⟨g.map_pairKey_baseline ▸ g.nodup_keys, g.map_pairKey_candidate ▸ g.nodup_keys⟩

/-- The trials of a key are a matched pair. -/
theorem matched {key : PairKey} (hkey : key ∈ g.keys) :
    Matched experiment g.outcome key (g.baseline key).1 (g.candidate key).1 where
  baseline_mem := List.mem_map_of_mem (List.mem_append_left _ (List.mem_map_of_mem hkey))
  baseline_version := (g.baseline_records key hkey).versionId
  baseline_key := (g.baseline_records key hkey).pairKey_eq
  candidate_mem := List.mem_map_of_mem (List.mem_append_right _ (List.mem_map_of_mem hkey))
  candidate_version := (g.candidate_records key hkey).versionId
  candidate_key := (g.candidate_records key hkey).pairKey_eq

/-- The diagnosis reads the scores that the metrics read. -/
theorem scoredBy_eq {t : Trial} (ht : t ∈ g.trials) (name : NonBlank) :
    g.outcome.scoredBy t.1 name = trialScore name.text t := by
  unfold RunOutcome.scoredBy scoreMap trialScore
  -- Both give a failed run no score, and look a score up by the name of its evaluator otherwise.
  by_cases hfailed : t.1.error.isSome = true
  · rw [if_pos hfailed, if_pos hfailed]
    rfl
  · rw [if_neg hfailed, if_neg hfailed, show g.outcome.resultsByRun = g.resultsByRun from rfl,
      resultsByRun_get? ht]
    dsimp only
    rw [Dict.get?_ofList_map_eq_find? t.2.scores_nodup]
    simp only [NonBlank.text_injective.eq_iff]

/-- The case result of a trial is one of the outcome. -/
theorem caseResult_mem {t : Trial} (ht : t ∈ g.trials) : t.2 ∈ g.outcome.caseResults :=
  List.mem_map_of_mem ht

/-- A lower mean over the candidate has a key with a lower observation. -/
theorem exists_lt_of_meanOf_lt {observe : Trial → ℚ}
    (h : meanOf observe g.candidateTrials < meanOf observe g.baselineTrials) :
    ∃ key ∈ g.keys, observe (g.candidate key) < observe (g.baseline key) := by
  -- The two means are over the same keys, so equal or higher observations give no lower mean.
  by_contra hnone
  push Not at hnone
  exact absurd (meanOf_le hnone) (not_le.mpr h)

variable {threshold : ℚ} {d : RegressionDiagnostics}
  (h : diagnoseRegressions experiment g.outcome threshold = .ok d) {key : PairKey}
  (hkey : key ∈ g.keys)

include h hkey

/-- Where the candidate fails and the baseline does not, there is a provider failure. -/
theorem failure_of_failed (hc : (g.candidate key).1.error.isSome = true)
    (hb : (g.baseline key).1.error = none) : ∃ f ∈ d.findings, f.kind = .providerFailure := by
  have hmatched := g.matched hkey
  obtain ⟨error, herror⟩ := Option.isSome_iff_exists.mp hc
  have hfinding : ∃ f ∈ providerFindings key (g.baseline key).1 (g.candidate key).1,
      f.kind = .providerFailure := by
    unfold providerFindings
    rw [herror, hb]
    exact ⟨_, List.mem_singleton_self _, rfl⟩
  obtain ⟨f, hf, hkind⟩ := hfinding
  exact ⟨f, (mem_findings_iff h).mpr ⟨key, _, _, hmatched, List.mem_append_left _ hf⟩, hkind⟩

/-- Where the candidate succeeds less than the baseline, there is a provider failure. -/
theorem failure_of_success_lt
    (hlt : successValue (g.candidate key) < successValue (g.baseline key)) :
    ∃ f ∈ d.findings, f.kind = .providerFailure := by
  -- An observation is `0` or `1`: the baseline succeeded, and the candidate failed.
  have hb : (g.baseline key).1.error = none := by
    by_contra hne
    have hquality : Quality names "success_rate" successValue := Quality.success
    have hnonneg := hquality.observe_nonneg (g.candidate key)
    rw [show successValue (g.baseline key) = 0 by simp [successValue, successObs, hne]] at hlt
    linarith
  have hc : (g.candidate key).1.error.isSome = true := by
    by_contra hne
    have hsame : successValue (g.candidate key) = successValue (g.baseline key) := by
      simp only [Bool.not_eq_true, Option.isSome_eq_false_iff, Option.isNone_iff_eq_none] at hne
      simp [successValue, successObs, hne, hb]
    exact absurd hsame hlt.ne
  exact g.failure_of_failed h hkey hc hb

/-- Where the candidate passes an evaluator less than the baseline, there is a provider failure or
a verdict of that evaluator that went from passed to failed. -/
theorem finding_of_pass_lt (hdecides : AlwaysDecides g.outcome) {name : String}
    (hlt : passValue name (g.candidate key) < passValue name (g.baseline key)) :
    ∃ f ∈ d.findings, ExplainsPassRate name f := by
  have hbmem : g.baseline key ∈ g.trials := List.mem_append_left _ (List.mem_map_of_mem hkey)
  have hcmem : g.candidate key ∈ g.trials := List.mem_append_right _ (List.mem_map_of_mem hkey)
  -- The baseline passed, so it has a score and did not fail.
  have hbpass : (trialScore name (g.baseline key)).bind EvaluatorScore.passed = some true := by
    by_contra hne
    have hnonneg : 0 ≤ passValue name (g.candidate key) :=
      (Quality.pass name List.mem_cons_self : Quality [name] _ _).observe_nonneg _
    rw [show passValue name (g.baseline key) = 0 from if_neg hne] at hlt
    linarith
  have hcpass : (trialScore name (g.candidate key)).bind EvaluatorScore.passed ≠ some true := by
    intro hpass
    rw [show passValue name (g.candidate key) = 1 from if_pos hpass,
      show passValue name (g.baseline key) = 1 from if_pos hbpass] at hlt
    exact lt_irrefl 1 hlt
  obtain ⟨sb, hsb, hpassed⟩ := Option.bind_eq_some_iff.mp hbpass
  have hbok : (g.baseline key).1.error = none := by
    by_contra hne
    rw [trialScore_of_failed (by simpa [Option.isSome_iff_ne_none] using hne)] at hsb
    exact nomatch hsb
  -- A failed candidate is a provider failure, since the baseline did not fail.
  by_cases hcfailed : (g.candidate key).1.error.isSome = true
  · obtain ⟨f, hf, hkind⟩ := g.failure_of_failed h hkey hcfailed hbok
    exact ⟨f, hf, Or.inl hkind⟩
  · -- The candidate was scored by the same evaluator, and its verdict is `False`.
    have hsbname : sb.evaluator.text = name := by
      unfold trialScore at hsb
      rw [if_neg (by simp [hbok])] at hsb
      simpa using List.find?_some hsb
    have hname : name ∈ names := by
      obtain ⟨_, _, _, hrecords⟩ := records_of_mem hbmem
      rw [← hrecords.scored hbok, ← hsbname]
      unfold trialScore at hsb
      rw [if_neg (by simp [hbok])] at hsb
      exact List.mem_map_of_mem (List.mem_of_find?_eq_some hsb)
    obtain ⟨sc, hsc⟩ := exists_trialScore hcmem
      (by simpa only [Bool.not_eq_true, Option.isSome_eq_false_iff, Option.isNone_iff_eq_none]
        using hcfailed) hname
    have hscfalse : sc.passed = some false := by
      have hne : sc.passed ≠ none := by
        unfold trialScore at hsc
        rw [if_neg hcfailed] at hsc
        exact hdecides _ (g.caseResult_mem hcmem) sc (List.mem_of_find?_eq_some hsc)
      rw [hsc, Option.bind_some] at hcpass
      cases hp : sc.passed with
      | none => exact absurd hp hne
      | some p =>
          cases p with
          | false => rfl
          | true => exact absurd hp hcpass
    have hkinds := findingsOn_evaluator h (g.matched hkey) sb.evaluator
    rw [g.scoredBy_eq hbmem, g.scoredBy_eq hcmem, hsbname, hsb, hsc] at hkinds
    dsimp only at hkinds
    rw [if_pos ⟨hpassed, hscfalse⟩] at hkinds
    have hmem : FindingKind.evaluatorPassToFail
        ∈ findingsOn d.findings key (some sb.evaluator) := by
      rw [hkinds]
      exact List.mem_singleton_self _
    obtain ⟨f, hf, hkind⟩ := List.mem_map.mp hmem
    obtain ⟨hf, hevaluator⟩ := List.mem_filter.mp hf
    refine ⟨f, (List.mem_filter.mp hf).1, Or.inr ⟨hkind, ?_⟩⟩
    rw [of_decide_eq_true hevaluator]
    simp [hsbname]

end Grid

/-- The findings that a drop of a metric must come with. -/
structure Explained (names : List String) (findings : List PairFinding) (metric : String) :
    Prop where
  success : metric = "success_rate" → ∃ f ∈ findings, f.kind = .providerFailure
  pass : ∀ name ∈ names, metric = passRateMetric name → ∃ f ∈ findings, ExplainsPassRate name f

/-- The metrics that the diagnosis explains. -/
def IsRateMetric (names : List String) (metric : String) : Prop :=
  metric = "success_rate" ∨ ∃ name ∈ names, metric = passRateMetric name

section

variable {experiment : Experiment} {caseIds : List EntityId} {names : List String}
  (g : Grid experiment caseIds names)

/-- A comparison with the name of a quality metric is the comparison of its observation. -/
theorem Grid.eq_comparison {mc : MetricComparison}
    (hmc : mc ∈ comparisons names g.baselineTrials g.candidateTrials) {metric : String}
    {observe : Trial → ℚ} (hq : Quality names metric observe) (hname : mc.metric = metric) :
    mc = comparison metric hq.nonblank g.baselineTrials g.candidateTrials (meanOf observe) := by
  -- The names of the comparisons are distinct, so the name finds the comparison.
  have hnodup : ((comparisons names g.baselineTrials g.candidateTrials).map
      MetricComparison.metric).Nodup := by
    rw [map_metric_comparisons]
    exact nodup_expectedMetricNames g.names_nodup
  exact List.inj_on_of_nodup_map hnodup hmc (g.mem_of_quality hq).2 hname

/-- A lower rate of the candidate is explained. -/
theorem Grid.explained_of_lt (hdecides : AlwaysDecides g.outcome)
    {threshold : ℚ} {d : RegressionDiagnostics}
    (h : diagnoseRegressions experiment g.outcome threshold = .ok d) {mc : MetricComparison}
    (hmc : mc ∈ comparisons names g.baselineTrials g.candidateTrials)
    (hlt : mc.candidateValue < mc.baselineValue) : Explained names d.findings mc.metric := by
  constructor
  · intro hname
    rw [g.eq_comparison hmc .success hname] at hlt
    obtain ⟨key, hkey, hkeylt⟩ := g.exists_lt_of_meanOf_lt hlt
    exact g.failure_of_success_lt h hkey hkeylt
  · intro name hmem hname
    rw [g.eq_comparison hmc (.pass name hmem) hname] at hlt
    obtain ⟨key, hkey, hkeylt⟩ := g.exists_lt_of_meanOf_lt hlt
    exact g.finding_of_pass_lt h hkey hdecides hkeylt

/-- A rate that breaches a threshold is lower on the candidate. -/
theorem lt_of_breach {b c t : ℚ} (hb : 0 ≤ b) (ht : 0 ≤ t)
    (h : Breach .higherIsBetter b c t) : c < b := by
  obtain ⟨hne, hlt⟩ := h
  -- The adverse change is a quotient by the baseline, which is positive here.
  have hpos : 0 < b := lt_of_le_of_ne hb (Ne.symm hne)
  have hmul := (lt_div_iff₀ hpos).mp hlt
  linarith [mul_nonneg ht hb]

/-- A rate that is a regression is lower on the candidate. -/
theorem Grid.lt_of_regression {mc : MetricComparison}
    (hmc : mc ∈ comparisons names g.baselineTrials g.candidateTrials)
    (hrate : IsRateMetric names mc.metric) {policy : Option ReleasePolicy}
    {evidence : Option MetricEvidence}
    (h : (verdictIn (directionOf mc.metric) mc (thresholdOf policy mc.metric) evidence).outcome
      = .regression) : mc.candidateValue < mc.baselineValue := by
  obtain ⟨observe, hq⟩ : ∃ observe, Quality names mc.metric observe := by
    rcases hrate with hsuccess | ⟨name, hname, hpass⟩
    · rw [hsuccess]
      exact ⟨_, .success⟩
    · rw [hpass]
      exact ⟨_, .pass name hname⟩
  -- A regression breaches its threshold, whatever the evidence says.
  obtain ⟨t, ht, hbreach, _⟩ := regression_iff.mp h
  have hnonneg : 0 ≤ mc.baselineValue := by
    rw [g.eq_comparison hmc hq rfl]
    apply mean_nonneg
    intro x hx
    obtain ⟨trial, _, rfl⟩ := List.mem_map.mp hx
    exact hq.observe_nonneg trial
  rw [hq.directionOf] at hbreach
  exact lt_of_breach hnonneg (thresholdOf_nonneg ht) hbreach

end

/-- On the outcome of a run whose evaluators always decide, a lower success rate comes with a
provider failure, and a lower pass rate with a provider failure or a verdict of that evaluator that
went from passed to failed. So a block on such a metric never comes with an empty diagnosis. -/
theorem quality_drop_is_diagnosed {experiment : Experiment} {dataset : Dataset}
    {names : List String} {outcome : RunOutcome} (h : Produced experiment dataset names outcome)
    (hdecides : AlwaysDecides outcome) (threshold : ℚ) (stamp : Stamp) :
    ∃ d result, diagnoseRegressions experiment outcome threshold = .ok d ∧
      aggregateResults experiment outcome names stamp = .ok result ∧
      (∀ mc ∈ result.metrics, mc.candidateValue < mc.baselineValue →
        Explained names d.findings mc.metric) ∧
      ∀ rt policy a, assess rt experiment names policy stamp outcome = .ok a →
        ∀ v ∈ a.gate.verdicts, v.outcome = .regression → IsRateMetric names v.metric →
          d.findings ≠ [] := by
  obtain ⟨g, rfl⟩ := h.grid
  -- The keys of the runs are distinct, so the diagnosis returns.
  obtain ⟨d, hd⟩ := diagnoseRegressions_isOk_iff.mpr g.keysDistinct
  refine ⟨d, g.aggregated stamp, hd, g.aggregateResults_eq_ok stamp,
    fun mc hmc hlt => g.explained_of_lt hdecides hd hmc hlt, ?_⟩
  intro rt policy a ha v hv hregression hrate
  obtain ⟨hresult, hdecided⟩ := Grid.of_assess ha
  rw [hdecided.verdicts] at hv
  obtain ⟨mc, hmc, rfl⟩ := List.mem_map.mp hv
  rw [hresult.metrics] at hmc
  have hexplained := g.explained_of_lt hdecides hd hmc (g.lt_of_regression hmc hrate hregression)
  -- The explanation of a lower rate is itself a finding.
  rcases hrate with hsuccess | ⟨name, hname, hpass⟩
  · obtain ⟨f, hf, _⟩ := hexplained.success hsuccess
    exact List.ne_nil_of_mem hf
  · obtain ⟨f, hf, _⟩ := hexplained.pass name hname hpass
    exact List.ne_nil_of_mem hf

/-- The diagnosis of an offline run. -/
theorem quality_drop_is_diagnosed_offline :
    ∃ outcome d result,
      diagnoseRegressions (offlineExperiment 1 (le_refl 1)) outcome minScoreDrop = .ok d ∧
      aggregateResults (offlineExperiment 1 (le_refl 1)) outcome [] (offlineStamp 0) = .ok result ∧
      (∀ mc ∈ result.metrics, mc.candidateValue < mc.baselineValue →
        Explained [] d.findings mc.metric) ∧
      ∀ rt policy a,
        assess rt (offlineExperiment 1 (le_refl 1)) [] policy (offlineStamp 0) outcome = .ok a →
        ∀ v ∈ a.gate.verdicts, v.outcome = .regression → IsRateMetric [] v.metric →
          d.findings ≠ [] := by
  obtain ⟨g, _, hrun, hanswered⟩ := offline_grid 0 (le_refl 1)
    (fun _ version => if version = offlineId 0 then
      .ok (offlineResponse 1 zero_le_one) else .error offlineFailure)
    (by
      intro _ version e he
      split at he
      · cases he
      · cases he
        rfl)
  have hdecides : AlwaysDecides g.outcome := by
    intro cr hcr s hs
    obtain ⟨t, ht, rfl⟩ := List.mem_map.mp hcr
    -- There are no evaluators, so there are no scores.
    have hscores : t.2.scores = [] := by
      rcases List.mem_append.mp ht with ht | ht
      · obtain ⟨key, hkey, rfl⟩ := List.mem_map.mp ht
        exact (hanswered key hkey).1.1
      · obtain ⟨key, hkey, rfl⟩ := List.mem_map.mp ht
        exact (hanswered key hkey).2.1
    rw [hscores] at hs
    cases hs
  obtain ⟨d, result, hd, hresult, hdiagnosed⟩ := quality_drop_is_diagnosed
    (produced_offlineRun hrun) hdecides minScoreDrop (offlineStamp 0)
  exact ⟨g.outcome, d, result, hd, hresult, hdiagnosed⟩

end EvalOps
