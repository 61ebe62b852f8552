import EvalOps.Proofs.Assess
import EvalOps.Proofs.Returns

/-!
# `EvalOps.Proofs.Policy`: a looser policy blocks no more

A policy is looser when it gates fewer metrics, each with a higher threshold. On the result of an
evaluation every metric that a looser policy blocks is blocked by the stricter one. The boundary
`threshold * reference` moves with the threshold because no reference is negative.
-/

set_option autoImplicit false

namespace EvalOps

/-- Every metric that `loose` gates is gated by `strict` with a threshold that is no higher. -/
def Looser (strict loose : ReleasePolicy) : Prop :=
  ∀ metric t, loose.thresholds.get? metric = some t →
    ∃ t', strict.thresholds.get? metric = some t' ∧ t' ≤ t

/-- The policy gates produced metrics only. -/
def OverMetrics (policy : ReleasePolicy) (result : EvaluationResult) : Prop :=
  ∀ metric ∈ policy.thresholds.keys, metric ∈ result.metrics.map MetricComparison.metric

/-- The metrics of the verdicts that are blocking reasons. -/
def GateReport.blockingMetrics (report : GateReport) : List String :=
  (report.verdicts.filter MetricVerdict.isBlocking).map MetricVerdict.metric

theorem policyCovered_of_overMetrics {policy : ReleasePolicy} {result : EvaluationResult}
    (h : OverMetrics policy result) : PolicyCovered (some policy) result.metrics := by
  rintro p hp
  cases hp
  unfold unknownMetrics
  rw [Sorting.sorted_eq_nil_iff, List.filter_eq_nil_iff]
  intro metric hmetric
  simpa using h metric hmetric

/-- A value that breaches a threshold breaches every lower one. -/
theorem Breach.of_le {d : Direction} {b c t t' : ℚ} (ht : t' ≤ t) (h : Breach d b c t) :
    Breach d b c t' := by
  cases d with
  | higherIsBetter => exact ⟨h.1, ht.trans_lt h.2⟩
  | lowerIsBetter => exact h.imp id fun h => ⟨h.1, ht.trans_lt h.2⟩

/-- Evidence over a reference that is not negative confirms every lower threshold. -/
theorem Confirms.of_le {d : Direction} {e : MetricEvidenceData} {t t' : ℚ}
    (hmean : 0 ≤ e.baseline.mean) (ht : t' ≤ t) (h : Confirms d e t) : Confirms d e t' := by
  obtain ⟨hpairs, low, high, hlow, hhigh, hlt⟩ := h
  have hboundary : t' * e.baseline.mean ≤ t * e.baseline.mean :=
    mul_le_mul_of_nonneg_right ht hmean
  refine ⟨hpairs, low, high, hlow, hhigh, ?_⟩
  cases d with
  | higherIsBetter => exact lt_of_lt_of_le hlt (neg_le_neg hboundary)
  | lowerIsBetter => exact lt_of_le_of_lt hboundary hlt

/-- A regression under the looser policy is one under the stricter policy. -/
theorem regression_of_looser {strict loose : ReleasePolicy} (hloose : Looser strict loose)
    {d : Direction} {mc : MetricComparison} {evidence : Option MetricEvidence}
    (hmean : ∀ e, evidence = some e → 0 ≤ e.baseline.mean)
    (h : (verdictIn d mc (thresholdOf (some loose) mc.metric) evidence).outcome = .regression) :
    (verdictIn d mc (thresholdOf (some strict) mc.metric) evidence).outcome = .regression := by
  obtain ⟨t, ht, hbreach, hconfirm⟩ := regression_iff.mp h
  obtain ⟨t', ht', hle⟩ := hloose mc.metric t ht
  exact regression_iff.mpr ⟨t', ht', hbreach.of_le hle,
    fun e he => (hconfirm e he).of_le (hmean e he) hle⟩

namespace Grid

variable {experiment : Experiment} {caseIds : List EntityId} {names : List String}
  {g : Grid experiment caseIds names} {rt : Runtime} {stamp : Stamp} {result : EvaluationResult}

/-- No reference of the evidence is negative. -/
theorem ResultOf.baseline_mean_nonneg (h : g.ResultOf rt stamp result) {e : MetricEvidence}
    (he : e ∈ result.evidence) : 0 ≤ e.baseline.mean := by
  have hmem : e.toMetricEvidenceData ∈ g.evidenceFields rt .default := by
    rw [← h.evidence]
    exact List.mem_map_of_mem he
  obtain ⟨⟨s, i⟩, hs, hfields⟩ := List.mem_map.mp hmem
  rw [← hfields]
  change 0 ≤ (summarize rt s.baseline).mean
  rw [summarize_mean]
  exact mean_nonneg (g.series_baseline_nonneg (List.fst_mem_of_mem_zipIdx hs))

end Grid

/-- On the result of an evaluation, what a looser policy blocks the stricter policy blocks. -/
theorem looser_policy_blocks_no_more {env : Environment} {rt : Runtime} {experiment : Experiment}
    {dataset : Dataset} {baseline candidate : SystemVersion} {policy : Option ReleasePolicy}
    {evaluators : List Evaluator} {providers : Dict ProviderName ProviderClient} {s t : ℕ}
    {a : EvaluationOutcome}
    (h : Effect.exec (runEvaluation env rt experiment dataset baseline candidate policy evaluators
      providers) s = (.ok a, t))
    {strict loose : ReleasePolicy} (hstrict : OverMetrics strict a.result)
    (hover : OverMetrics loose a.result) (hloose : Looser strict loose) :
    ∃ report report', evaluateGate a.result (some strict) = .ok report ∧
      evaluateGate a.result (some loose) = .ok report' ∧
      (report'.decision = .block → report.decision = .block) ∧
      report'.blockingMetrics ⊆ report.blockingMetrics := by
  obtain ⟨outcome, hproduced, hassess⟩ := runEvaluation_eq_ok h
  obtain ⟨g, rfl⟩ := hproduced.grid
  obtain ⟨hresult, _⟩ := Grid.of_assess hassess
  obtain ⟨report, hreport, hdecided⟩ :=
    evaluateGate_eq_ok hresult.directed (policyCovered_of_overMetrics hstrict)
  obtain ⟨report', hreport', hdecided'⟩ :=
    evaluateGate_eq_ok hresult.directed (policyCovered_of_overMetrics hover)
  -- The two gates see one result, so their verdicts differ in the threshold only.
  have hverdict : ∀ v ∈ report'.verdicts, v.outcome = .regression →
      ∃ v' ∈ report.verdicts, v'.outcome = .regression ∧ v'.metric = v.metric := by
    intro v hv hregression
    rw [hdecided'.verdicts] at hv
    rw [hdecided.verdicts]
    obtain ⟨mc, hmc, rfl⟩ := List.mem_map.mp hv
    refine ⟨_, List.mem_map_of_mem hmc, regression_of_looser hloose ?_ hregression, rfl⟩
    intro e he
    exact hresult.baseline_mean_nonneg (List.mem_of_find?_eq_some he)
  refine ⟨report, report', hreport, hreport', ?_, ?_⟩
  · rw [hdecided.decision, hdecided'.decision]
    rintro ⟨v, hv, hregression⟩
    obtain ⟨v', hv', hregression', _⟩ := hverdict v hv hregression
    exact ⟨v', hv', hregression'⟩
  · intro metric hmetric
    obtain ⟨v, hv, rfl⟩ := List.mem_map.mp hmetric
    obtain ⟨hv, hblocking⟩ := List.mem_filter.mp hv
    obtain ⟨v', hv', hregression', hname⟩ := hverdict v hv (of_decide_eq_true hblocking)
    exact List.mem_map.mpr ⟨v', List.mem_filter.mpr ⟨hv', decide_eq_true hregression'⟩, hname⟩

/-- The evaluation of eight cases of which the candidate fails all. -/
def failingEvaluation : RunM EvaluationOutcome :=
  runEvaluation offlineEnv (offlineRuntime 0) (offlineExperiment 1 one_le_once) (offlineDataset 7)
    (offlineVersion 0 inputTemplate) (offlineVersion 1 inputTemplate) none []
    (offlineProviders failingAnswer)

/-- A policy on the success rate. -/
def tolerating (threshold : ℚ) (h : 0 ≤ threshold) : ReleasePolicy :=
  offlinePolicy "success_rate" successRate_nonblank threshold h

theorem half_nonneg : (0 : ℚ) ≤ 1 / 2 := by norm_num

/-- The loss of all successes is blocked by the policy that tolerates the loss of a half, and so by
the policy that tolerates none. -/
theorem looser_policy_blocks_no_more_offline :
    ∃ a t report report', Effect.exec failingEvaluation 0 = (.ok a, t) ∧
      evaluateGate a.result (some (tolerating 0 nonneg_zero)) = .ok report ∧
      evaluateGate a.result (some (tolerating (1 / 2) half_nonneg)) = .ok report' ∧
      report'.decision = .block ∧ report.decision = .block ∧
      report'.blockingMetrics ⊆ report.blockingMetrics := by
  have hruns : (Effect.exec failingEvaluation 0).1.toOption.any (fun a =>
      decide ("success_rate" ∈ a.result.metrics.map MetricComparison.metric) &&
        (evaluateGate a.result (some (tolerating (1 / 2) half_nonneg))).toOption.any
          fun report => decide (report.decision = .block)) = true := by
    decide +kernel
  obtain ⟨a, hrun, hruns⟩ := (Option.any_eq_true _ _).mp hruns
  obtain ⟨hmetric, hgate⟩ := Bool.and_eq_true_iff.mp hruns
  obtain ⟨loose, hloose, hblock⟩ := (Option.any_eq_true _ _).mp hgate
  have hrun : Effect.exec failingEvaluation 0 = (.ok a, (Effect.exec failingEvaluation 0).2) :=
    Prod.ext (ExceptRules.toOption_eq_some.mp hrun) rfl
  have hover : ∀ (threshold : ℚ) (ht : 0 ≤ threshold),
      OverMetrics (tolerating threshold ht) a.result := by
    intro threshold ht metric hmem
    have : metric = "success_rate" := by simpa [tolerating, offlinePolicy, Dict.keys] using hmem
    rw [this]
    exact of_decide_eq_true hmetric
  have hlooser : Looser (tolerating 0 nonneg_zero) (tolerating (1 / 2) half_nonneg) := by
    intro metric t ht
    rw [Dict.get?_eq_some_iff] at ht
    obtain ⟨rfl, rfl⟩ : metric = "success_rate" ∧ t = 1 / 2 := by
      simpa [tolerating, offlinePolicy] using ht
    exact ⟨0, rfl, half_nonneg⟩
  obtain ⟨report, report', hreport, hreport', hdecision, hblocking⟩ :=
    looser_policy_blocks_no_more hrun (hover 0 nonneg_zero) (hover (1 / 2) half_nonneg) hlooser
  cases (ExceptRules.toOption_eq_some.mp hloose).symm.trans hreport'
  have hblock := of_decide_eq_true hblock
  exact ⟨a, _, report, loose, hrun, hreport, hreport', hblock, hdecision hblock, hblocking⟩

end EvalOps
