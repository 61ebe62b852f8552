import EvalOps.Proofs.Assess
import EvalOps.Proofs.Returns

/-!
# `EvalOps.Proofs.Quality`: a worse candidate stays blocked

Two runs of one experiment that differ only in candidate trials, where the second candidate is
no better in any trial: a quality metric that is a regression in the first run is one in the
second.

The order goes up the pipeline. `NoBetter.passValue_le` and its siblings compare the
observations of two trials, `confirms_of_worse` the evidence of two series, and
`worse_candidate_stays_regression` the verdicts.
-/

set_option autoImplicit false

namespace EvalOps

/-! ### Trials that are no better -/

/-- A score that is no better: the same evaluator, no verdict gained, no higher score. -/
structure ScoreNoBetter (s s' : EvaluatorScore) : Prop where
  evaluator : s'.evaluator = s.evaluator
  passed : s'.passed = some true → s.passed = some true
  score : s'.score ≤ s.score

/-- A trial that is no better: it may have failed, and otherwise no score of it is better. -/
structure NoBetter (t t' : Trial) : Prop where
  failed : t.1.error.isSome → t'.1.error.isSome
  scores : t'.1.error = none → List.Forall₂ ScoreNoBetter t.2.scores t'.2.scores

instance (s s' : EvaluatorScore) : Decidable (ScoreNoBetter s s') :=
  decidable_of_iff (s'.evaluator = s.evaluator ∧
    (s'.passed = some true → s.passed = some true) ∧ s'.score ≤ s.score)
    ⟨fun h => ⟨h.1, h.2.1, h.2.2⟩, fun h => ⟨h.evaluator, h.passed, h.score⟩⟩

instance (t t' : Trial) : Decidable (NoBetter t t') :=
  decidable_of_iff ((t.1.error.isSome → t'.1.error.isSome) ∧
    (t'.1.error = none → List.Forall₂ ScoreNoBetter t.2.scores t'.2.scores))
    ⟨fun h => ⟨h.1, h.2⟩, fun h => ⟨h.failed, h.scores⟩⟩

/-- The second outcome differs from the first in candidate runs only, and there it is no
better. -/
def WorseCandidate (experiment : Experiment) (outcome outcome' : RunOutcome) : Prop :=
  List.Forall₂
    (fun t t' : Trial => NoBetter t t' ∧
      (t.1.systemVersionId ≠ experiment.candidateVersionId → NoBetter t' t))
    (outcome.runs.zip outcome.caseResults) (outcome'.runs.zip outcome'.caseResults)

instance (experiment : Experiment) (outcome outcome' : RunOutcome) :
    Decidable (WorseCandidate experiment outcome outcome') :=
  inferInstanceAs (Decidable (List.Forall₂ _ _ _))

namespace NoBetter

variable {t t' : Trial} {name : String}

/-- A trial that is no better has no better score from any evaluator. -/
theorem trialScore (h : NoBetter t t') {s' : EvaluatorScore} (hs' : trialScore name t' = some s') :
    ∃ s, EvalOps.trialScore name t = some s ∧ ScoreNoBetter s s' := by
  unfold EvalOps.trialScore at hs' ⊢
  split at hs'
  · exact nomatch hs'
  · rename_i hok'
    have hok : ¬t.1.error.isSome = true := fun hfailed => hok' (h.failed hfailed)
    rw [if_neg hok]
    have hfind := ListRules.forall₂_find? (h.scores (by simpa using hok'))
      (p := fun s => decide (s.evaluator.text = name))
      (q := fun s => decide (s.evaluator.text = name))
      fun s s' hss' => by rw [hss'.evaluator]
    rw [hs'] at hfind
    cases hfind' : t.2.scores.find? fun s => decide (s.evaluator.text = name) with
    | none => rw [hfind'] at hfind; exact nomatch hfind
    | some s =>
        rw [hfind'] at hfind
        cases hfind with
        | some hss' => exact ⟨s, rfl, hss'⟩

theorem successValue_le (h : NoBetter t t') : successValue t' ≤ successValue t := by
  unfold successValue successObs
  by_cases hfailed : t.1.error.isSome
  · have := h.failed hfailed
    cases ht : t.1.error <;> cases ht' : t'.1.error <;> simp_all
  · cases ht : t.1.error <;> cases ht' : t'.1.error <;> simp_all

theorem passValue_le (h : NoBetter t t') : passValue name t' ≤ passValue name t := by
  unfold passValue
  by_cases hpass : (EvalOps.trialScore name t').bind EvaluatorScore.passed = some true
  · obtain ⟨s', hs', hpassed⟩ := Option.bind_eq_some_iff.mp hpass
    obtain ⟨s, hs, hss'⟩ := h.trialScore hs'
    have hpass' : (EvalOps.trialScore name t).bind EvaluatorScore.passed = some true := by
      rw [hs]
      exact hss'.passed hpassed
    rw [if_pos hpass, if_pos hpass']
  · rw [if_neg hpass]
    split <;> norm_num

theorem scoreValue_le (h : NoBetter t t') : scoreValue name t' ≤ scoreValue name t := by
  cases hs' : EvalOps.trialScore name t' with
  | none =>
      rw [show scoreValue name t' = 0 by simp [scoreValue, hs']]
      exact (Quality.score name List.mem_cons_self : Quality [name] _ _).observe_nonneg t
  | some s' =>
      obtain ⟨s, hs, hss'⟩ := h.trialScore hs'
      simpa [scoreValue, hs, hs'] using hss'.score

/-- A quality observation of a trial that is no better is no higher. -/
theorem observe_le {names : List String} {metric : String} {observe : Trial → ℚ}
    (hq : Quality names metric observe) (h : NoBetter t t') : observe t' ≤ observe t := by
  cases hq with
  | success => exact h.successValue_le
  | pass name _ => exact h.passValue_le
  | score name _ => exact h.scoreValue_le

end NoBetter

/-! ### Means and evidence -/

/-- A lower observation in every trial has a lower mean. -/
theorem meanOf_le {α : Type} {xs : List α} {f f' : α → Trial} {observe : Trial → ℚ}
    (h : ∀ x ∈ xs, observe (f' x) ≤ observe (f x)) :
    meanOf observe (xs.map f') ≤ meanOf observe (xs.map f) := by
  unfold meanOf mean
  simp only [List.map_map, List.length_map]
  apply div_le_div_of_nonneg_right _ (Nat.cast_nonneg _)
  exact List.sum_le_sum h

/-- Two series with one baseline, where the second candidate is nowhere higher. -/
structure WorseSeries (s s' : PairedSeries) : Prop where
  baseline : s'.baseline = s.baseline
  candidate : List.Forall₂ (· ≤ ·) s'.candidate s.candidate

/-- The differences of a worse series are nowhere higher. -/
theorem WorseSeries.differences_le {s s' : PairedSeries} (h : WorseSeries s s') :
    List.Forall₂ (· ≤ ·) (differences s'.baseline s'.candidate)
      (differences s.baseline s.candidate) := by
  rw [h.baseline]
  unfold differences
  rw [List.forall₂_map_left_iff, List.forall₂_map_right_iff]
  have hcandidate := h.candidate
  -- The baseline may have any length: `zip` cuts both lists there.
  generalize s.baseline = bs
  generalize s.candidate = cs, s'.candidate = cs' at hcandidate
  induction hcandidate generalizing bs with
  | nil => rw [List.zip_nil_right]; exact List.Forall₂.nil
  | cons hxy _ ih =>
      cases bs with
      | nil => exact List.Forall₂.nil
      | cons b bs => exact List.Forall₂.cons (sub_le_sub_right hxy b) (ih bs)

/-- A worse series confirms every breach that the better one confirms. -/
theorem confirms_of_worse {rt : Runtime} {options : BootstrapOptions} {s s' : PairedSeries}
    (h : WorseSeries s s') {t : ℚ}
    (hc : Confirms .higherIsBetter (evidenceData rt options s) t) :
    Confirms .higherIsBetter (evidenceData rt options s') t := by
  have hdiffs := h.differences_le
  rw [confirms_evidenceData_iff] at hc ⊢
  rw [hdiffs.length_eq]
  refine ⟨hc.1, (bootstrapBound_mono rt options hdiffs _).trans_lt ?_⟩
  rw [h.baseline]
  exact hc.2

/-- A lower candidate value breaches every threshold that a higher one breaches. -/
theorem breach_of_le {b c c' t : ℚ} (hb : 0 ≤ b) (hc : c' ≤ c)
    (h : Breach .higherIsBetter b c t) : Breach .higherIsBetter b c' t := by
  obtain ⟨hne, hlt⟩ := h
  have hpos : 0 < b := lt_of_le_of_ne hb (Ne.symm hne)
  exact ⟨hne, hlt.trans_le (div_le_div_of_nonneg_right (by linarith) hpos.le)⟩

/-! ### The two runs -/

/-- The metrics whose verdict a worse candidate cannot improve. -/
def IsQualityMetric (names : List String) (metric : String) : Prop :=
  metric = "success_rate" ∨ ∃ name ∈ names,
    metric = passRateMetric name ∨ metric = meanScoreMetric name

theorem not_isQualityMetric_fixed {names : List String} {metric : String}
    (h : metric ∈ fixedMetrics.tail) : ¬IsQualityMetric names metric := by
  rintro (rfl | ⟨name, _, rfl | rfl⟩)
  · exact absurd h (by decide)
  · exact passRateMetric_notMem_fixed name (List.mem_of_mem_tail h)
  · exact meanScoreMetric_notMem_fixed name (List.mem_of_mem_tail h)

section

variable {experiment : Experiment} {caseIds : List EntityId} {names : List String}
  {g g' : Grid experiment caseIds names}

/-- The trials of the two runs, key by key. -/
theorem WorseCandidate.trials (h : WorseCandidate experiment g.outcome g'.outcome) {key : PairKey}
    (hkey : key ∈ g.keys) :
    (NoBetter (g.baseline key) (g'.baseline key) ∧
      NoBetter (g'.baseline key) (g.baseline key)) ∧
      NoBetter (g.candidate key) (g'.candidate key) := by
  unfold WorseCandidate at h
  rw [g.zip_outcome, g'.zip_outcome] at h
  unfold Grid.trials at h
  rw [ListRules.forall₂_append_iff (by simp [Grid.keys])] at h
  simp only [Grid.keys, List.forall₂_map_left_iff, List.forall₂_map_right_iff,
    List.forall₂_same] at h
  obtain ⟨hb, hc⟩ := h
  have hbaseline := hb key hkey
  -- Outside the candidate the relation holds both ways.
  refine ⟨⟨hbaseline.1, hbaseline.2 ?_⟩, (hc key hkey).1⟩
  rw [(g.baseline_records key hkey).versionId]
  exact experiment.versions_ne

/-- The comparisons of the two runs. -/
theorem WorseCandidate.comparisons (h : WorseCandidate experiment g.outcome g'.outcome) :
    List.Forall₂
      (fun mc mc' => mc'.metric = mc.metric ∧ (IsQualityMetric names mc.metric →
        directionOf mc.metric = .higherIsBetter ∧ 0 ≤ mc.baselineValue ∧
          mc'.baselineValue = mc.baselineValue ∧ mc'.candidateValue ≤ mc.candidateValue))
      (EvalOps.comparisons names g.baselineTrials g.candidateTrials)
      (EvalOps.comparisons names g'.baselineTrials g'.candidateTrials) := by
  apply forall₂_comparisons
  · intro metric observe hq
    refine ⟨rfl, fun _ => ⟨hq.directionOf, ?_, ?_, ?_⟩⟩
    · apply mean_nonneg
      intro x hx
      obtain ⟨t, _, rfl⟩ := List.mem_map.mp hx
      exact hq.observe_nonneg t
    · exact le_antisymm (meanOf_le fun key hkey => NoBetter.observe_le hq (h.trials hkey).1.1)
        (meanOf_le fun key hkey => NoBetter.observe_le hq (h.trials hkey).1.2)
    · exact meanOf_le fun key hkey => NoBetter.observe_le hq (h.trials hkey).2
  -- Nothing is asked of the values of latency and cost.
  all_goals
    refine ⟨rfl, fun hq => absurd hq (not_isQualityMetric_fixed ?_)⟩
    simp [comparison, fixedMetrics]

/-- The series of the two runs. -/
theorem WorseCandidate.series (h : WorseCandidate experiment g.outcome g'.outcome) :
    List.Forall₂
      (fun s s' : PairedSeries => s'.metric = s.metric ∧
        (IsQualityMetric names s.metric → WorseSeries s s'))
      g.series g'.series := by
  apply Grid.forall₂_series
  · intro metric kind observe hq
    refine ⟨rfl, fun _ => ⟨?_, ?_⟩⟩
    · apply List.map_congr_left
      intro key hkey
      have hmem := g.mem_sortedKeys.mp hkey
      exact le_antisymm (NoBetter.observe_le hq (h.trials hmem).1.1)
        (NoBetter.observe_le hq (h.trials hmem).1.2)
    · change List.Forall₂ (· ≤ ·) (g.sortedKeys.map fun key => observe (g'.candidate key))
        (g.sortedKeys.map fun key => observe (g.candidate key))
      rw [List.forall₂_map_left_iff, List.forall₂_map_right_iff, List.forall₂_same]
      intro key hkey
      exact NoBetter.observe_le hq (h.trials (g.mem_sortedKeys.mp hkey)).2
  · exact ⟨rfl, fun hq => absurd hq
      (not_isQualityMetric_fixed (by simp [latencySeries, fixedMetrics]))⟩
  · exact ⟨rfl, fun hq => absurd hq
      (not_isQualityMetric_fixed (by simp [Grid.observed, fullSeries, fixedMetrics]))⟩

end

/-- A quality metric that is a regression stays one when the candidate gets no better. -/
theorem worse_candidate_stays_regression {experiment : Experiment} {dataset : Dataset}
    {names : List String} {outcome outcome' : RunOutcome}
    (h : Produced experiment dataset names outcome)
    (h' : Produced experiment dataset names outcome')
    (hworse : WorseCandidate experiment outcome outcome')
    {rt : Runtime} {policy : Option ReleasePolicy} {stamp : Stamp} {a : EvaluationOutcome}
    (ha : assess rt experiment names policy stamp outcome = .ok a) (stamp' : Stamp) :
    ∃ a', assess rt experiment names policy stamp' outcome' = .ok a' ∧
      List.Forall₂
        (fun v v' => v'.metric = v.metric ∧ (IsQualityMetric names v.metric →
          v.outcome = .regression → v'.outcome = .regression))
        a.gate.verdicts a'.gate.verdicts := by
  obtain ⟨g, rfl⟩ := h.grid
  obtain ⟨g', rfl⟩ := h'.grid
  have hmetrics := hworse.comparisons
  have hcovered : PolicyCovered policy (comparisons names g'.baselineTrials g'.candidateTrials) :=
    policyCovered_congr (by simp only [map_metric_comparisons]) (Grid.policyCovered_of_assess ha)
  obtain ⟨hresult, hdecided⟩ := Grid.of_assess ha
  obtain ⟨a', ha', _, hresult', hdecided'⟩ := g'.assess_eq_ok rt stamp' hcovered
  refine ⟨a', ha', ?_⟩
  rw [hdecided.verdicts, hdecided'.verdicts]
  have hevidence := hresult.forall₂_evidence hresult' hworse.series
  rw [← hresult.metrics, ← hresult'.metrics] at hmetrics
  -- A confirmed breach asks for two things, and a worse candidate keeps both.
  refine forall₂_verdictsOf (fun e e' => IsQualityMetric names e.metric →
    ∀ t, Confirms .higherIsBetter e.toMetricEvidenceData t →
      Confirms .higherIsBetter e'.toMetricEvidenceData t) hmetrics (hevidence.imp ?_) ?_
  · rintro e e' ⟨s, s', seed, ⟨hname, hs⟩, he, he'⟩
    rw [he, he']
    exact ⟨hname, fun hq t hc => confirms_of_worse (hs hq) hc⟩
  · intro mc mc' e e' hname hmc he
    refine ⟨hname, fun hq hregression => ?_⟩
    obtain ⟨hdirection, hnonneg, hbaseline, hcandidate⟩ := hmc hq
    rw [hdirection] at hregression ⊢
    obtain ⟨t, ht, hbreach, hconfirm⟩ := regression_iff.mp hregression
    refine regression_iff.mpr ⟨t, ht, ?_, ?_⟩
    · rw [hbaseline]
      exact breach_of_le hnonneg hcandidate hbreach
    · rintro e₂ rfl
      cases he with
      | some hes => exact hes.2 (by rw [hes.1]; exact hq) t (hconfirm _ rfl)

/-- The run of eight cases under `tool_success`. -/
def toolRun (answer : String → EntityId → Py ProviderResponse) : RunM RunOutcome :=
  runExperiment offlineEnv (offlineExperiment 1 one_le_once) (offlineDataset 7)
    (offlineVersion 0 inputTemplate) (offlineVersion 1 inputTemplate) (offlineProviders answer)
    [ToolSuccess.default.toEvaluator]

/-- The metric of `tool_success` has a name. -/
theorem toolMetric_nonblank : PyText.isBlank "tool_success.pass_rate" = false := by decide

/-- The policy that tolerates no loss of tool success. -/
def toolPolicy : ReleasePolicy :=
  offlinePolicy "tool_success.pass_rate" toolMetric_nonblank 0 nonneg_zero

/-- The pass rate of the tools is a regression. -/
def ToolRegression (a : EvaluationOutcome) : Prop :=
  ∃ v ∈ a.gate.verdicts, v.metric = "tool_success.pass_rate" ∧ v.outcome = .regression

instance (a : EvaluationOutcome) : Decidable (ToolRegression a) :=
  inferInstanceAs (Decidable (∃ v ∈ a.gate.verdicts, _))

/-- A candidate whose tool calls fail is blocked, and stays so when none of its calls is
answered. -/
theorem worse_candidate_stays_regression_offline :
    ∃ outcome outcome' a a',
      WorseCandidate (offlineExperiment 1 one_le_once) outcome outcome' ∧
      assess (offlineRuntime 0) (offlineExperiment 1 one_le_once) ["tool_success"]
        (some toolPolicy) (offlineStamp 0) outcome = .ok a ∧
      assess (offlineRuntime 0) (offlineExperiment 1 one_le_once) ["tool_success"]
        (some toolPolicy) (offlineStamp 0) outcome' = .ok a' ∧
      ToolRegression a ∧
      List.Forall₂
        (fun v v' => v'.metric = v.metric ∧ (IsQualityMetric ["tool_success"] v.metric →
          v.outcome = .regression → v'.outcome = .regression))
        a.gate.verdicts a'.gate.verdicts := by
  have hruns : ((Effect.exec (toolRun brokenToolAnswer) 0).1.toOption.any fun outcome =>
      (Effect.exec (toolRun failingAnswer) 0).1.toOption.any fun outcome' =>
        decide (WorseCandidate (offlineExperiment 1 one_le_once) outcome outcome') &&
          (assess (offlineRuntime 0) (offlineExperiment 1 one_le_once) ["tool_success"]
            (some toolPolicy) (offlineStamp 0) outcome).toOption.any
              fun a => decide (ToolRegression a)) = true := by
    decide +kernel
  obtain ⟨outcome, hrun, hruns⟩ := (Option.any_eq_true _ _).mp hruns
  obtain ⟨outcome', hrun', hruns⟩ := (Option.any_eq_true _ _).mp hruns
  obtain ⟨hworse, hruns⟩ := Bool.and_eq_true_iff.mp hruns
  obtain ⟨a, ha, hregression⟩ := (Option.any_eq_true _ _).mp hruns
  have hworse := of_decide_eq_true hworse
  have ha := ExceptRules.toOption_eq_some.mp ha
  have hproduced : ∀ {answer : String → EntityId → Py ProviderResponse} {outcome : RunOutcome},
      (Effect.exec (toolRun answer) 0).1.toOption = some outcome →
        Produced (offlineExperiment 1 one_le_once) (offlineDataset 7) ["tool_success"] outcome :=
    fun h => ⟨_, _, _, _, _, _, _, Prod.ext (ExceptRules.toOption_eq_some.mp h) rfl, rfl⟩
  obtain ⟨a', ha', hverdicts⟩ := worse_candidate_stays_regression (hproduced hrun)
    (hproduced hrun') hworse ha (offlineStamp 0)
  exact ⟨outcome, outcome', a, a', hworse, ha, ha', of_decide_eq_true hregression, hverdicts⟩

end EvalOps
