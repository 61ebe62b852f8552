import EvalOps.Proofs.Bootstrap
import EvalOps.Proofs.Runner
import Mathlib.Algebra.BigOperators.Group.List.Basic

/-!
# `EvalOps.Proofs.Aggregate`: the metrics of a run

`aggregateResults_grid` is the principal equation: on the outcome of a grid aggregation returns,
and each quality metric of a version is the mean of one observation per trial. A failed trial
counts as `0`.
-/

set_option autoImplicit false

namespace EvalOps

/-! ### Metric names -/

theorem passRateMetric_nonblank (name : String) :
    PyText.isBlank (passRateMetric name) = false :=
  PyText.isBlank_append_right (by decide)

theorem meanScoreMetric_nonblank (name : String) :
    PyText.isBlank (meanScoreMetric name) = false :=
  PyText.isBlank_append_right (by decide)

theorem endswith_passRateMetric (name : String) :
    PyText.endswith (passRateMetric name) ".pass_rate" = true := by
  simp [PyText.endswith, passRateMetric]

theorem endswith_meanScoreMetric (name : String) :
    PyText.endswith (meanScoreMetric name) ".mean_score" = true := by
  simp [PyText.endswith, meanScoreMetric]

theorem passRateMetric_injective : Function.Injective passRateMetric := by
  intro a b h
  have := congrArg String.toList h
  simpa [passRateMetric, String.ext_iff] using this

theorem meanScoreMetric_injective : Function.Injective meanScoreMetric := by
  intro a b h
  have := congrArg String.toList h
  simpa [meanScoreMetric, String.ext_iff] using this

/-- A text that ends with two suffixes ends the shorter one with the longer one. -/
theorem isSuffixOf_of_endswith {s x y : String} (hx : PyText.endswith s x = true)
    (hy : PyText.endswith s y = true) (hlen : x.toList.length ≤ y.toList.length) :
    x.toList.isSuffixOf y.toList = true := by
  unfold PyText.endswith at hx hy
  rw [List.isSuffixOf_iff_suffix] at hx hy ⊢
  exact List.suffix_of_suffix_length_le hx hy hlen

/-- The pass-rate metrics are not mean-score metrics. -/
theorem passRateMetric_ne_meanScoreMetric (a b : String) :
    passRateMetric a ≠ meanScoreMetric b := by
  intro h
  have hsuffix := isSuffixOf_of_endswith (endswith_passRateMetric a)
    (h ▸ endswith_meanScoreMetric b) (by decide)
  exact absurd hsuffix (by decide)

/-- The metrics that do not belong to an evaluator. -/
def fixedMetrics : List String :=
  ["success_rate", "latency_ms.mean", "latency_ms.p95", "cost_usd.total", "cost_usd.mean"]

/-- No evaluator metric is a fixed metric. -/
theorem passRateMetric_notMem_fixed (name : String) : passRateMetric name ∉ fixedMetrics := by
  intro h
  have hall : ∀ m ∈ fixedMetrics, PyText.endswith m ".pass_rate" = false := by decide
  have := hall _ h
  rw [endswith_passRateMetric] at this
  exact Bool.noConfusion this

theorem meanScoreMetric_notMem_fixed (name : String) : meanScoreMetric name ∉ fixedMetrics := by
  intro h
  have hall : ∀ m ∈ fixedMetrics, PyText.endswith m ".mean_score" = false := by decide
  have := hall _ h
  rw [endswith_meanScoreMetric] at this
  exact Bool.noConfusion this

/-- The two metrics of each evaluator. -/
def evaluatorMetricNames (names : List String) : List String :=
  names.flatMap fun name => [passRateMetric name, meanScoreMetric name]

theorem nodup_evaluatorMetricNames {names : List String} (h : names.Nodup) :
    (evaluatorMetricNames names).Nodup := by
  unfold evaluatorMetricNames
  rw [List.nodup_flatMap]
  constructor
  · intro name _
    simp [passRateMetric_ne_meanScoreMetric]
  · refine h.imp ?_
    intro a b hab m ha hb
    simp only [List.mem_cons, List.not_mem_nil, or_false] at ha hb
    rcases ha with rfl | rfl <;> rcases hb with hb | hb
    · exact hab (passRateMetric_injective hb)
    · exact passRateMetric_ne_meanScoreMetric a b hb
    · exact passRateMetric_ne_meanScoreMetric b a hb.symm
    · exact hab (meanScoreMetric_injective hb)

/-- The evaluator metrics among fixed ones are distinct. -/
theorem nodup_metricNames {names : List String} (h : names.Nodup) (front back : List String)
    (hfixed : front ++ back ⊆ fixedMetrics) (hnodup : (front ++ back).Nodup) :
    (front ++ (evaluatorMetricNames names ++ back)).Nodup := by
  -- A suffix tells an evaluator metric from every fixed one.
  have hdisjoint : ∀ m ∈ evaluatorMetricNames names, m ∉ front ++ back := by
    intro m hm hmem
    obtain ⟨name, _, hm⟩ := List.mem_flatMap.mp hm
    simp only [List.mem_cons, List.not_mem_nil, or_false] at hm
    rcases hm with rfl | rfl
    · exact passRateMetric_notMem_fixed name (hfixed hmem)
    · exact meanScoreMetric_notMem_fixed name (hfixed hmem)
  rw [List.nodup_append] at hnodup ⊢
  obtain ⟨hfront, hback, hfb⟩ := hnodup
  refine ⟨hfront, ?_, ?_⟩
  · rw [List.nodup_append]
    refine ⟨nodup_evaluatorMetricNames h, hback, ?_⟩
    rintro a ha b hb rfl
    exact hdisjoint a ha (List.mem_append_right front hb)
  · rintro a ha b hb rfl
    rcases List.mem_append.mp hb with hb | hb
    · exact hdisjoint a hb (List.mem_append_left back ha)
    · exact hfb a ha a hb rfl

/-- `expected_metric_names` has no duplicates. -/
theorem nodup_expectedMetricNames {names : List String} (h : names.Nodup) :
    (expectedMetricNames names).Nodup :=
  nodup_metricNames h ["success_rate"] ["latency_ms.mean", "latency_ms.p95", "cost_usd.total"]
    (by decide) (by decide)

/-! ### Observations of one trial -/

/-- The score of one evaluator in a trial that succeeded. -/
def trialScore (name : String) (t : Trial) : Option EvaluatorScore :=
  if t.1.error.isSome then none
  else t.2.scores.find? fun s => decide (s.evaluator.text = name)

/-- `1` when the evaluator passed the trial. -/
def passValue (name : String) (t : Trial) : ℚ :=
  if (trialScore name t).bind EvaluatorScore.passed = some true then 1 else 0

/-- The score of the evaluator, `0` for a failed trial. -/
def scoreValue (name : String) (t : Trial) : ℚ :=
  ((trialScore name t).map EvaluatorScore.score).getD 0

/-- `1` when the trial succeeded. -/
def successValue (t : Trial) : ℚ := successObs t.1

/-- The mean of an observation over trials. -/
def meanOf (observe : Trial → ℚ) (ts : List Trial) : ℚ := mean (ts.map observe)

/-- A failed trial has no score. -/
theorem trialScore_of_failed {name : String} {t : Trial} (h : t.1.error.isSome) :
    trialScore name t = none := if_pos h

/-- The scores of a case result, keyed by evaluator. -/
theorem scoreOf_eq_find? (caseResult : CaseResult) (name : String) :
    scoreOf caseResult.scores name
      = caseResult.scores.find? fun s => decide (s.evaluator.text = name) := by
  have hnodup : (caseResult.scores.map fun s => s.evaluator.text).Nodup := by
    have := caseResult.scores_nodup.map NonBlank.text_injective
    rwa [List.map_map] at this
  exact Dict.get?_ofList_map_eq_find? hnodup name

/-! ### Scored trials -/

/-- Trials with distinct run ids, each beside its own case result, that have a score of every
evaluator wherever they succeeded. -/
structure Scored (names : List String) (ts : List Trial) : Prop where
  ids_nodup : (ts.map fun t => t.1.id).Nodup
  runId : ∀ t ∈ ts, t.2.runId = t.1.id
  scored : ∀ t ∈ ts, t.1.error = none → names ⊆ t.2.scores.map fun s => s.evaluator.text

/-- The outcome whose runs are the trials. -/
def outcomeOf (ts : List Trial) : RunOutcome := ⟨ts.map Prod.fst, ts.map Prod.snd⟩

/-- `results_by_run`: the case results of the trials by run. -/
def caseResultsByRun (ts : List Trial) : Dict EntityId CaseResult :=
  Dict.ofList ((outcomeOf ts).caseResults.map fun cr => (cr.runId, cr))

/-- The runs and the case results are the two columns of the trials. -/
theorem zip_outcomeOf (ts : List Trial) :
    (outcomeOf ts).runs.zip (outcomeOf ts).caseResults = ts := by
  unfold outcomeOf
  rw [List.zip_map', List.map_id']

/-- A count as a sum of indicators. -/
theorem cast_foldl_count (name : String) (ts : List Trial) (n : ℕ) :
    ((ts.foldl (fun n t =>
        if (trialScore name t).bind EvaluatorScore.passed = some true then n + 1 else n) n : ℕ) : ℚ)
      = n + (ts.map (passValue name)).sum := by
  induction ts generalizing n with
  | nil => simp
  | cons t ts ih =>
      rw [List.foldl_cons, ih, List.map_cons, List.sum_cons, passValue]
      split
      · push_cast
        ring
      · ring

namespace Scored

variable {names : List String} {ts us : List Trial} (h : Scored names ts)

include h

/-- The case results carry the ids of the runs, so these are distinct too. -/
theorem map_runId : (outcomeOf ts).caseResults.map CaseResult.runId = ts.map fun t => t.1.id := by
  unfold outcomeOf
  rw [List.map_map]
  exact List.map_congr_left fun t ht => h.runId t ht

/-- The case result of a run is found under the run's id. -/
theorem caseResultsByRun_get? {t : Trial} (ht : t ∈ ts) :
    (caseResultsByRun ts).get? t.1.id = some t.2 := by
  rw [← h.runId t ht]
  apply Dict.get?_ofList_map
  · rw [h.map_runId]
    exact h.ids_nodup
  · exact List.mem_map.mpr ⟨t, ht, rfl⟩

/-- A successful trial has a score of every evaluator. -/
theorem exists_trialScore {t : Trial} (ht : t ∈ ts) (hok : t.1.error = none) {name : String}
    (hname : name ∈ names) : ∃ score, trialScore name t = some score := by
  unfold trialScore
  rw [hok]
  obtain ⟨score, hscore, rfl⟩ := List.mem_map.mp (h.scored t ht hok hname)
  cases hfind : t.2.scores.find? fun s => decide (s.evaluator.text = score.evaluator.text) with
  | some found => exact ⟨found, by simp⟩
  | none =>
      have := List.find?_eq_none.mp hfind score hscore
      simp at this

/-- Aggregation finds the score of a successful trial. -/
theorem requireScore_eq_ok {t : Trial} (ht : t ∈ ts) {name : String} {score : EvaluatorScore}
    (hscore : trialScore name t = some score) :
    requireScore (caseResultsByRun ts) t.1 name = .ok score := by
  unfold trialScore at hscore
  split at hscore
  · exact nomatch hscore
  · unfold requireScore
    rw [h.caseResultsByRun_get? ht]
    simp only [scoreOf_eq_find?, hscore]
    rfl

/-- `_pass_rate` is the mean of the verdicts. -/
theorem passRate_eq_ok (hne : us ≠ []) (hus : us ⊆ ts) {name : String} (hname : name ∈ names) :
    passRate (us.map Prod.fst) (caseResultsByRun ts) name = .ok (meanOf (passValue name) us) := by
  -- A failed run is skipped, and counts as a verdict that is not a pass.
  have hstep : ∀ n : ℕ, ∀ t ∈ us, (if t.1.error.isSome then pure n
      else do
        let score ← requireScore (caseResultsByRun ts) t.1 name
        pure (if score.passed = some true then n + 1 else n) : Py ℕ)
      = .ok (if (trialScore name t).bind EvaluatorScore.passed = some true then n + 1
          else n) := by
    intro n t ht
    split
    · rename_i hfailed
      rw [trialScore_of_failed hfailed]
      rfl
    · rename_i hok
      obtain ⟨score, hscore⟩ := h.exists_trialScore (hus ht) (by simpa using hok) hname
      rw [h.requireScore_eq_ok (hus ht) hscore, hscore]
      rfl
  unfold passRate
  rw [if_neg (by simpa using hne), List.foldlM_map, ExceptRules.foldlM_eq_ok hstep,
    ExceptRules.ok_bind, cast_foldl_count]
  simp [meanOf, mean]

/-- `_mean_score` is the mean of the scores. -/
theorem meanScore_eq_ok (hne : us ≠ []) (hus : us ⊆ ts) {name : String} (hname : name ∈ names) :
    meanScore (us.map Prod.fst) (caseResultsByRun ts) name = .ok (meanOf (scoreValue name) us) := by
  -- A failed run is skipped, and counts as a score of `0`.
  have hstep : ∀ total : ℚ, ∀ t ∈ us, (if t.1.error.isSome then pure total
      else do
        let score ← requireScore (caseResultsByRun ts) t.1 name
        pure (total + score.score) : Py ℚ)
      = .ok (total + scoreValue name t) := by
    intro total t ht
    unfold scoreValue
    split
    · rename_i hfailed
      rw [trialScore_of_failed hfailed]
      simp
    · rename_i hok
      obtain ⟨score, hscore⟩ := h.exists_trialScore (hus ht) (by simpa using hok) hname
      rw [h.requireScore_eq_ok (hus ht) hscore, hscore]
      rfl
  unfold meanScore
  rw [if_neg (by simpa using hne), List.foldlM_map, ExceptRules.foldlM_eq_ok hstep,
    ExceptRules.ok_bind, ← List.foldl_map (g := (· + ·)), ← List.sum_eq_foldl]
  simp [meanOf, mean]

end Scored

/-- `_success_rate` is the mean of the successes. -/
theorem successRate_eq_mean (ts : List Trial) :
    successRate (ts.map Prod.fst) = meanOf successValue ts := by
  have hcount : ∀ ts : List Trial, (((ts.map Prod.fst).countP fun r => r.error.isNone : ℕ) : ℚ)
      = (ts.map successValue).sum := by
    intro ts
    induction ts with
    | nil => simp
    | cons t ts ih =>
        rw [List.map_cons, List.countP_cons, List.map_cons, List.sum_cons, ← ih, successValue,
          successObs]
        split <;> simp [add_comm]
  unfold successRate meanOf mean
  split
  · rename_i hnil
    have : ts = [] := by simpa using hnil
    simp [this]
  · rw [hcount]
    simp

/-- The nearest-rank percentile of the successful latencies. -/
def latencyP95Value (runs : List EvaluationRun) : ℚ :=
  let values := Sorting.sorted (successfulLatencies runs)
  values.getD (⌈(19 / 20 : ℚ) * values.length⌉ - 1).toNat 0

/-- `_latency_p95` never indexes out of range. -/
theorem latencyP95_eq_ok (runs : List EvaluationRun) :
    latencyP95 runs = .ok (latencyP95Value runs) := by
  unfold latencyP95 latencyP95Value
  dsimp only
  split
  · rename_i hnil
    rw [List.isEmpty_iff.mp hnil]
    simp
  · rename_i hne
    have hpos : 1 ≤ (Sorting.sorted (successfulLatencies runs)).length :=
      List.length_pos_iff.mpr (by simpa using hne)
    have hcast : (1 : ℚ) ≤ (Sorting.sorted (successfulLatencies runs)).length := by
      exact_mod_cast hpos
    -- The rank lies between the first and the last value, so the subscript is in range.
    have hlow : 1 ≤ ⌈(19 / 20 : ℚ) * (Sorting.sorted (successfulLatencies runs)).length⌉ :=
      Int.one_le_ceil_iff.mpr (by linarith)
    have hhigh : ⌈(19 / 20 : ℚ) * (Sorting.sorted (successfulLatencies runs)).length⌉
        ≤ ((Sorting.sorted (successfulLatencies runs)).length : ℤ) :=
      Int.ceil_le.mpr (by push_cast; linarith)
    rw [pyIndex_eq_getD (by omega) (by omega)]

/-! ### The metrics of a run -/

theorem successRate_nonblank : PyText.isBlank "success_rate" = false := by decide

theorem latencyP95_nonblank : PyText.isBlank "latency_ms.p95" = false := by decide

/-- The comparison of a metric with a name that is not blank. -/
def comparison (metric : String) (h : PyText.isBlank metric = false) (bs cs : List Trial)
    (value : List Trial → ℚ) : MetricComparison :=
  ⟨metric, value bs, value cs, h⟩

/-- The mean latency of the successful trials. -/
def latencyMeanOf (ts : List Trial) : ℚ := latencyMean (ts.map Prod.fst)

/-- The latency percentile of the successful trials. -/
def latencyP95Of (ts : List Trial) : ℚ := latencyP95Value (ts.map Prod.fst)

/-- The cost of the trials. -/
def costTotalOf (ts : List Trial) : ℚ := costTotal (ts.map Prod.fst)

/-- What aggregation makes of the trials of the two versions. -/
def comparisons (names : List String) (bs cs : List Trial) : List MetricComparison :=
  comparison "success_rate" successRate_nonblank bs cs (meanOf successValue) ::
    (names.flatMap fun name =>
      [comparison (passRateMetric name) (passRateMetric_nonblank name) bs cs
        (meanOf (passValue name)),
       comparison (meanScoreMetric name) (meanScoreMetric_nonblank name) bs cs
        (meanOf (scoreValue name))]) ++
    [comparison "latency_ms.mean" (by decide) bs cs latencyMeanOf,
     comparison "latency_ms.p95" latencyP95_nonblank bs cs latencyP95Of,
     comparison "cost_usd.total" (by decide) bs cs costTotalOf]

/-- The comparisons bear the expected names. -/
theorem map_metric_comparisons (names : List String) (bs cs : List Trial) :
    (comparisons names bs cs).map MetricComparison.metric = expectedMetricNames names := by
  simp [comparisons, comparison, expectedMetricNames, List.map_flatMap]

/-- A comparison with a name that is not blank is constructed. -/
theorem make_comparison (metric : String) (h : PyText.isBlank metric = false)
    (bs cs : List Trial) (value : List Trial → ℚ) :
    MetricComparison.make metric (value bs) (value cs) = .ok (comparison metric h bs cs value) :=
  dif_pos h

/-- The validation of scored trials: distinct evaluator names, and the checks on each run. -/
theorem Scored.validateOutcome_eq_ok_iff {experiment : Experiment} {names : List String}
    {ts : List Trial} (h : Scored names ts) :
    validateOutcome experiment (outcomeOf ts) names = .ok () ↔
      names.Nodup ∧ ∀ t ∈ ts, requireRunOf experiment names.dedup t = .ok () := by
  -- Lengths, identifiers and alignment are part of `Scored`.
  have halignment : ts.zipIdx.forM requireAligned = .ok () := by
    rw [ExceptRules.forM_eq_ok_iff]
    rintro ⟨t, i⟩ hmem
    simp [requireAligned, h.runId t (List.fst_mem_of_mem_zipIdx hmem)]
  have hlength : ¬(outcomeOf ts).runs.length ≠ (outcomeOf ts).caseResults.length := by
    simp [outcomeOf]
  have hids : ¬¬((outcomeOf ts).runs.map EvaluationRun.id).Nodup := by
    rw [not_not, outcomeOf, List.map_map]
    exact h.ids_nodup
  unfold validateOutcome
  dsimp only
  rw [if_neg hlength, if_neg hids, zip_outcomeOf, halignment, ← ExceptRules.forM_eq_ok_iff]
  exact ExceptRules.guard_then_eq_ok.trans (and_congr not_not Iff.rfl)

/-- The trials of one version. -/
def trialsOf (versionId : EntityId) (ts : List Trial) : List Trial :=
  ts.filter fun t => decide (t.1.systemVersionId = versionId)

/-- The runs of a version are those of its trials. -/
theorem filter_runs_outcomeOf (versionId : EntityId) (ts : List Trial) :
    (outcomeOf ts).runs.filter (fun r => decide (r.systemVersionId = versionId))
      = (trialsOf versionId ts).map Prod.fst := by
  unfold outcomeOf trialsOf
  rw [List.filter_map]
  rfl

/-- Aggregation on scored trials that pass the validation: an error for a version without runs,
and otherwise the comparisons of the two versions. -/
theorem Scored.aggregateResults_eq {experiment : Experiment} {names : List String}
    {ts : List Trial} (h : Scored names ts)
    (hvalid : validateOutcome experiment (outcomeOf ts) names = .ok ())
    (hb : trialsOf experiment.baselineVersionId ts ≠ [])
    (hc : trialsOf experiment.candidateVersionId ts ≠ []) (stamp : Stamp) :
    aggregateResults experiment (outcomeOf ts) names stamp
      = EvaluationResult.make experiment.id
          (comparisons names (trialsOf experiment.baselineVersionId ts)
            (trialsOf experiment.candidateVersionId ts)) [] stamp := by
  have hbs : trialsOf experiment.baselineVersionId ts ⊆ ts := List.filter_subset_self _
  have hcs : trialsOf experiment.candidateVersionId ts ⊆ ts := List.filter_subset_self _
  have hruns := filter_runs_outcomeOf experiment.baselineVersionId ts
  have hruns' := filter_runs_outcomeOf experiment.candidateVersionId ts
  -- Only that the two lists of trials are parts of `ts` matters from here on.
  revert hbs hcs hruns hruns' hb hc
  generalize trialsOf experiment.baselineVersionId ts = bs
  generalize trialsOf experiment.candidateVersionId ts = cs
  intro hb hc hbs hcs hruns hruns'
  have hevaluators : names.mapM (evaluatorMetrics (bs.map Prod.fst) (cs.map Prod.fst)
        (caseResultsByRun ts))
      = .ok (names.map fun name =>
          [comparison (passRateMetric name) (passRateMetric_nonblank name) bs cs
            (meanOf (passValue name)),
           comparison (meanScoreMetric name) (meanScoreMetric_nonblank name) bs cs
            (meanOf (scoreValue name))]) := by
    apply ExceptRules.mapM_eq_ok_map
    intro name hname
    unfold evaluatorMetrics
    rw [h.passRate_eq_ok hb hbs hname, h.passRate_eq_ok hc hcs hname,
      h.meanScore_eq_ok hb hbs hname, h.meanScore_eq_ok hc hcs hname]
    simp only [ExceptRules.ok_bind, ExceptRules.pure_eq_ok]
    rw [make_comparison _ (passRateMetric_nonblank name),
      make_comparison _ (meanScoreMetric_nonblank name)]
    rfl
  have hsuccess : MetricComparison.make "success_rate" (meanOf successValue bs)
      (meanOf successValue cs) = .ok _ :=
    make_comparison _ (by decide) bs cs (meanOf successValue)
  have hlatencyMean : MetricComparison.make "latency_ms.mean"
      (latencyMean (bs.map Prod.fst)) (latencyMean (cs.map Prod.fst)) = .ok _ :=
    make_comparison _ (by decide) bs cs latencyMeanOf
  have hlatencyP95 : MetricComparison.make "latency_ms.p95"
      (latencyP95Value (bs.map Prod.fst)) (latencyP95Value (cs.map Prod.fst)) = .ok _ :=
    make_comparison _ (by decide) bs cs latencyP95Of
  have hcost : MetricComparison.make "cost_usd.total" (costTotal (bs.map Prod.fst))
      (costTotal (cs.map Prod.fst)) = .ok _ :=
    make_comparison _ (by decide) bs cs costTotalOf
  have hbruns : ¬(bs.map Prod.fst).isEmpty = true := by simpa using hb
  have hcruns : ¬(cs.map Prod.fst).isEmpty = true := by simpa using hc
  unfold aggregateResults
  simp only [hvalid, hruns, hruns', hbruns, hcruns, successRate_eq_mean, hsuccess,
    latencyP95_eq_ok, hlatencyMean, hlatencyP95, hcost, ExceptRules.ok_bind]
  rw [show Dict.ofList ((outcomeOf ts).caseResults.map fun cr => (cr.runId, cr))
      = caseResultsByRun ts from rfl, hevaluators]
  rfl

namespace Grid

variable {experiment : Experiment} {caseIds : List EntityId} {names : List String}
  (g : Grid experiment caseIds names)

/-- `results_by_run`: the case results by run. -/
def resultsByRun : Dict EntityId CaseResult :=
  Dict.ofList (g.outcome.caseResults.map fun cr => (cr.runId, cr))

variable {g}

/-- Every trial of a grid is a recorded one. -/
theorem records_of_mem {t : Trial} (h : t ∈ g.trials) :
    ∃ versionId key, versionId ∈ [experiment.baselineVersionId, experiment.candidateVersionId] ∧
      Records experiment names versionId key t := by
  rcases List.mem_append.mp h with h | h
  · obtain ⟨key, hkey, rfl⟩ := List.mem_map.mp h
    exact ⟨_, key, by simp, g.baseline_records key hkey⟩
  · obtain ⟨key, hkey, rfl⟩ := List.mem_map.mp h
    exact ⟨_, key, by simp, g.candidate_records key hkey⟩

variable (g) in
/-- The trials of a grid are scored. -/
theorem scored_trials : Scored names g.trials where
  ids_nodup := g.ids_nodup
  runId := fun t ht => by
    obtain ⟨_, _, _, hrecords⟩ := records_of_mem ht
    exact hrecords.runId
  scored := fun t ht hok => by
    obtain ⟨_, _, _, hrecords⟩ := records_of_mem ht
    rw [hrecords.scored hok]
    exact List.Subset.refl names

/-- The case results carry the ids of the runs, so these are distinct too. -/
theorem map_runId : g.outcome.caseResults.map CaseResult.runId
    = g.trials.map fun t => t.1.id := g.scored_trials.map_runId

/-- The case result of a run is found under the run's id. -/
theorem resultsByRun_get? {t : Trial} (h : t ∈ g.trials) :
    g.resultsByRun.get? t.1.id = some t.2 := g.scored_trials.caseResultsByRun_get? h

/-- A successful trial has a score of every evaluator. -/
theorem exists_trialScore {t : Trial} (h : t ∈ g.trials) (hok : t.1.error = none)
    {name : String} (hname : name ∈ names) : ∃ score, trialScore name t = some score :=
  g.scored_trials.exists_trialScore h hok hname

end Grid

namespace Grid

variable {experiment : Experiment} {caseIds : List EntityId} {names : List String}
  (g : Grid experiment caseIds names)

/-- The trials of the baseline. -/
def baselineTrials : List Trial := g.keys.map g.baseline

/-- The trials of the candidate. -/
def candidateTrials : List Trial := g.keys.map g.candidate

/-- The aggregated result. -/
def aggregated (stamp : Stamp) : EvaluationResult where
  experimentId := experiment.id
  metrics := comparisons names g.baselineTrials g.candidateTrials
  evidence := []
  id := stamp.id
  createdAt := stamp.createdAt
  metrics_nodup := by
    rw [map_metric_comparisons]
    exact nodup_expectedMetricNames g.names_nodup
  evidence_nodup := List.nodup_nil

/-- The runs and the case results are the two columns of the trials. -/
theorem zip_outcome : g.outcome.runs.zip g.outcome.caseResults = g.trials :=
  zip_outcomeOf g.trials

/-- The trials of the baseline version. -/
theorem trialsOf_baseline : trialsOf experiment.baselineVersionId g.trials = g.baselineTrials := by
  unfold trialsOf trials
  rw [List.filter_append, List.filter_eq_self.mpr, List.filter_eq_nil_iff.mpr, List.append_nil]
  · rfl
  · -- no trial of the candidate
    intro t ht
    obtain ⟨key, hkey, rfl⟩ := List.mem_map.mp ht
    rw [(g.candidate_records key hkey).versionId]
    simpa using experiment.versions_ne.symm
  · -- every trial of the baseline
    intro t ht
    obtain ⟨key, hkey, rfl⟩ := List.mem_map.mp ht
    simpa using (g.baseline_records key hkey).versionId

/-- The trials of the candidate version. -/
theorem trialsOf_candidate :
    trialsOf experiment.candidateVersionId g.trials = g.candidateTrials := by
  unfold trialsOf trials
  rw [List.filter_append, List.filter_eq_nil_iff.mpr, List.filter_eq_self.mpr, List.nil_append]
  · rfl
  · intro t ht
    obtain ⟨key, hkey, rfl⟩ := List.mem_map.mp ht
    simpa using (g.candidate_records key hkey).versionId
  · intro t ht
    obtain ⟨key, hkey, rfl⟩ := List.mem_map.mp ht
    rw [(g.baseline_records key hkey).versionId]
    simpa using experiment.versions_ne

/-- The runs of the baseline version. -/
theorem filter_baseline :
    g.outcome.runs.filter (fun r => decide (r.systemVersionId = experiment.baselineVersionId))
      = g.baselineTrials.map Prod.fst := by
  rw [← g.trialsOf_baseline]
  exact filter_runs_outcomeOf _ _

/-- The runs of the candidate version. -/
theorem filter_candidate :
    g.outcome.runs.filter (fun r => decide (r.systemVersionId = experiment.candidateVersionId))
      = g.candidateTrials.map Prod.fst := by
  rw [← g.trialsOf_candidate]
  exact filter_runs_outcomeOf _ _

/-- The validation passes. -/
theorem validateOutcome_eq_ok : validateOutcome experiment g.outcome names = .ok () := by
  refine g.scored_trials.validateOutcome_eq_ok_iff.mpr ⟨g.names_nodup, fun t ht => ?_⟩
  obtain ⟨versionId, key, hversion, hrecords⟩ := records_of_mem ht
  unfold requireRunOf
  simp only [hrecords.experimentId, hrecords.versionId, hversion, ne_eq, not_true_eq_false,
    if_false, ExceptRules.pure_eq_ok]
  split
  · rename_i hok
    rw [hrecords.scored (by simpa using hok), if_neg]
    rw [not_not, Sorting.sorted_eq_nil_iff, List.filter_eq_nil_iff]
    intro name hname
    simpa using hname
  · rfl

/-- Aggregation returns on the outcome of a grid. -/
theorem aggregateResults_eq_ok (stamp : Stamp) :
    aggregateResults experiment g.outcome names stamp = .ok (g.aggregated stamp) := by
  have hb : trialsOf experiment.baselineVersionId g.trials ≠ [] := by
    simpa [trialsOf_baseline, baselineTrials] using g.keys_ne_nil
  have hc : trialsOf experiment.candidateVersionId g.trials ≠ [] := by
    simpa [trialsOf_candidate, candidateTrials] using g.keys_ne_nil
  have haggregate := g.scored_trials.aggregateResults_eq g.validateOutcome_eq_ok hb hc stamp
  rw [g.trialsOf_baseline, g.trialsOf_candidate] at haggregate
  have hevidence : (([] : List MetricEvidence).map fun e => e.metric).Nodup := List.nodup_nil
  exact haggregate.trans
    (EvaluationResult.make_of_nodup (g.aggregated stamp).metrics_nodup hevidence)

end Grid

end EvalOps
