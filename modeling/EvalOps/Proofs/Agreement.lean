import EvalOps.Proofs.Latency
import EvalOps.Proofs.Quality

/-!
# `EvalOps.Proofs.Agreement`: the two computations of a metric agree

A metric is computed twice: the aggregation folds over the runs of one version, and the evidence
projects the matched pairs onto two series. On the outcome of a run the summaries of the evidence
have the values of the comparison, so the point test and the boundary of the interval use one
reference. `evidence_agrees_with_metrics` states this for the quality metrics, for the mean latency
when no run failed, and for the total cost up to the number of pairs.

The two computations visit the trials in different orders. A mean forgets the order, and that is
all the bridge there is: the sorted keys are a permutation of the keys.
-/

set_option autoImplicit false

namespace EvalOps

/-- The evidence of a metric has the means of its comparison. -/
structure Agree (mc : MetricComparison) (e : MetricEvidence) : Prop where
  baseline : e.baseline.mean = mc.baselineValue
  candidate : e.candidate.mean = mc.candidateValue
  delta : e.pairedDelta.mean = mc.delta

/-- The mean of the differences is the difference of the means. -/
theorem mean_differences {baseline candidate : List ℚ}
    (h : baseline.length = candidate.length) :
    mean (differences baseline candidate) = mean candidate - mean baseline := by
  have hsum : ∀ {bs cs : List ℚ}, bs.length = cs.length →
      (differences bs cs).sum = cs.sum - bs.sum := by
    intro bs
    induction bs with
    | nil =>
        intro cs hlen
        rw [show cs = [] from List.length_eq_zero_iff.mp hlen.symm]
        simp [differences]
    | cons b bs ih =>
        intro cs hlen
        cases cs with
        | nil => cases hlen
        | cons c cs =>
            rw [show differences (b :: bs) (c :: cs) = (c - b) :: differences bs cs from rfl,
              List.sum_cons, List.sum_cons, List.sum_cons, ih (by simpa using hlen)]
            ring
  unfold mean
  rw [hsum h, length_differences h, h, sub_div]

/-- What `metric_evidence` returns summarizes the two series and their differences. -/
theorem metricEvidence_summaries {rt : Runtime} {options : BootstrapOptions} {metric : String}
    {kind : MetricKind} {baseline candidate : List ℚ} {dropped : ℕ} {e : MetricEvidence}
    (h : metricEvidence rt options metric kind baseline candidate dropped = .ok e) :
    baseline.length = candidate.length ∧ e.metric = metric ∧
      e.nPairs = (differences baseline candidate).length ∧
      e.baseline = summarize rt baseline ∧ e.candidate = summarize rt candidate ∧
      e.pairedDelta = summarize rt (differences baseline candidate) := by
  unfold metricEvidence at h
  rw [ExceptRules.throw_eq_error] at h
  by_cases hlen : baseline.length ≠ candidate.length
  · rw [if_pos hlen] at h
    exact nomatch h
  · rw [if_neg hlen] at h
    dsimp only at h
    obtain ⟨ci, _, hmake⟩ := ExceptRules.bind_eq_ok.mp h
    have hfields := MetricEvidence.make_eq_ok_iff.mp hmake
    rw [hfields]
    exact ⟨not_not.mp hlen, rfl, rfl, rfl, rfl, rfl⟩

/-- A comparison and a piece of evidence of these names. -/
def Compares (result : EvaluationResult) (evidence : List MetricEvidence)
    (metric evidenced : String) (agree : MetricComparison → MetricEvidence → Prop) : Prop :=
  ∃ mc ∈ result.metrics, ∃ e ∈ evidence, mc.metric = metric ∧ e.metric = evidenced ∧ agree mc e

namespace Grid

variable {experiment : Experiment} {caseIds : List EntityId} {names : List String}
  (g : Grid experiment caseIds names) {rt : Runtime} {options : BootstrapOptions}
  {evidence : List MetricEvidence}

theorem sortedKeys_perm : g.sortedKeys.Perm g.keys := Sorting.sorted_perm g.keys

/-- A mean over the sorted keys is the mean over the trials. -/
theorem mean_sortedKeys (f : PairKey → Trial) (observe : Trial → ℚ) :
    mean (g.sortedKeys.map fun key => observe (f key)) = meanOf observe (g.keys.map f) := by
  unfold meanOf
  rw [List.map_map]
  exact mean_perm (g.sortedKeys_perm.map _)

/-- Every series has its evidence. -/
theorem exists_evidence
    (h : buildStatisticalEvidence rt options experiment g.outcome names = .ok evidence)
    {s : PairedSeries} (hs : s ∈ g.series) :
    ∃ e ∈ evidence, e.metric = s.metric ∧
      e.nPairs = (differences s.baseline s.candidate).length ∧
      e.baseline.mean = mean s.baseline ∧ e.candidate.mean = mean s.candidate ∧
      e.pairedDelta.mean = mean s.candidate - mean s.baseline := by
  obtain ⟨d, hd, hvalues⟩ := g.pairedObservations_eq_ok
  unfold buildStatisticalEvidence at h
  rw [hd, ExceptRules.ok_bind, hvalues] at h
  have hmem : ∃ i, (s, i) ∈ g.series.zipIdx := by
    rw [← List.zipIdx_map_fst 0 g.series, List.mem_map] at hs
    obtain ⟨⟨_, i⟩, hi, rfl⟩ := hs
    exact ⟨i, hi⟩
  obtain ⟨i, hi⟩ := hmem
  obtain ⟨e, he, hevidence⟩ :=
    ListRules.exists_of_forall₂_of_mem (ExceptRules.mapM_eq_ok_iff.mp h) hi
  obtain ⟨hlen, hmetric, hpairs, hb, hc, hdelta⟩ := metricEvidence_summaries hevidence
  exact ⟨e, he, hmetric, hpairs, by rw [hb, summarize_mean], by rw [hc, summarize_mean],
    by rw [hdelta, summarize_mean, mean_differences hlen]⟩

/-- A quality metric has a series and a comparison over the same observation. -/
theorem mem_of_quality {metric : String} {observe : Trial → ℚ}
    (hq : Quality names metric observe) :
    (∃ kind, g.observed metric kind observe ∈ g.series) ∧
      comparison metric hq.nonblank g.baselineTrials g.candidateTrials (meanOf observe)
        ∈ comparisons names g.baselineTrials g.candidateTrials := by
  -- Both lists are the success rate, the two metrics of each evaluator, and the rest.
  have hmem : ∀ {α : Type} {first x : α} {rest : List α} {f : String → List α} {name : String},
      name ∈ names → x ∈ f name → x ∈ first :: names.flatMap f ++ rest := fun hname hx =>
    List.mem_append_left _ (List.mem_cons_of_mem _ (List.mem_flatMap.mpr ⟨_, hname, hx⟩))
  cases hq with
  | success => exact ⟨⟨.binary, by simp [series]⟩, by simp [comparisons]⟩
  | pass name hname =>
      exact ⟨⟨.binary, hmem hname List.mem_cons_self⟩, hmem hname List.mem_cons_self⟩
  | score name hname =>
      have hsecond : ∀ {α : Type} {x y : α}, y ∈ [x, y] := List.mem_cons_of_mem _ List.mem_cons_self
      exact ⟨⟨.continuous, hmem hname hsecond⟩, hmem hname hsecond⟩

/-- The series of the latencies, when no trial failed. -/
theorem latencySeries_of_all_ok (hok : ∀ t ∈ g.trials, t.1.error = none) :
    (latencySeries g.pairs g.keys.length 0).baseline
        = g.sortedKeys.map (fun key => (g.baseline key).1.usage.latencyMs) ∧
      (latencySeries g.pairs g.keys.length 0).candidate
        = g.sortedKeys.map fun key => (g.candidate key).1.usage.latencyMs := by
  have hpairs : g.pairs.filter (fun p => p.1.error.isNone && p.2.error.isNone) = g.pairs := by
    rw [List.filter_eq_self]
    intro p hp
    obtain ⟨key, hkey, rfl⟩ := List.mem_map.mp hp
    simp [hok _ (g.baseline_mem_trials hkey), hok _ (g.candidate_mem_trials hkey)]
  unfold latencySeries
  dsimp only
  rw [hpairs]
  exact ⟨List.map_map .., List.map_map ..⟩

/-- The mean latency of trials that all succeeded. -/
theorem latencyMeanOf_of_all_ok (ts : List Trial) (hok : ∀ t ∈ ts, t.1.error = none) :
    latencyMeanOf ts = meanOf (fun t => t.1.usage.latencyMs) ts := by
  unfold latencyMeanOf meanOf
  rw [latencyMean_eq]
  congr 1
  unfold successfulLatencies
  rw [List.filter_eq_self.mpr]
  · exact List.map_map ..
  · intro r hr
    obtain ⟨t, ht, rfl⟩ := List.mem_map.mp hr
    simp [hok t ht]

/-- The cost of a version is its mean cost, once for each pair. -/
theorem costTotalOf_eq (f : PairKey → Trial) :
    costTotalOf (g.keys.map f) = g.keys.length * meanOf costValue (g.keys.map f) := by
  have hne : (g.keys.length : ℚ) ≠ 0 := by
    simpa using g.keys_ne_nil
  unfold costTotalOf costTotal meanOf mean
  rw [List.length_map, List.length_map, mul_div_cancel₀ _ hne, List.map_map]
  rfl

end Grid

/-- On the outcome of a run the evidence of every quality metric has the means of the comparison,
and the mean paired difference is the delta. The same holds of the mean latency when no run
failed, and the total cost is the mean cost of the evidence times the number of pairs. -/
theorem evidence_agrees_with_metrics {experiment : Experiment} {dataset : Dataset}
    {names : List String} {outcome : RunOutcome} (h : Produced experiment dataset names outcome)
    {rt : Runtime} {options : BootstrapOptions} {stamp : Stamp} {result : EvaluationResult}
    {evidence : List MetricEvidence}
    (hresult : aggregateResults experiment outcome names stamp = .ok result)
    (hevidence : buildStatisticalEvidence rt options experiment outcome names = .ok evidence) :
    (∀ metric, IsQualityMetric names metric → Compares result evidence metric metric Agree) ∧
    ((∀ run ∈ outcome.runs, run.error = none) →
      Compares result evidence "latency_ms.mean" "latency_ms.mean" Agree) ∧
    Compares result evidence "cost_usd.total" "cost_usd.mean" fun mc e =>
      mc.baselineValue = e.nPairs * e.baseline.mean ∧
        mc.candidateValue = e.nPairs * e.candidate.mean := by
  obtain ⟨g, rfl⟩ := h.grid
  rw [g.aggregateResults_eq_ok stamp] at hresult
  cases hresult
  refine ⟨?_, ?_, ?_⟩
  · -- the quality metrics
    intro metric hmetric
    obtain ⟨observe, hq⟩ : ∃ observe, Quality names metric observe := by
      rcases hmetric with rfl | ⟨name, hname, rfl | rfl⟩
      · exact ⟨_, .success⟩
      · exact ⟨_, .pass name hname⟩
      · exact ⟨_, .score name hname⟩
    obtain ⟨⟨kind, hseries⟩, hmc⟩ := g.mem_of_quality hq
    obtain ⟨e, he, hname, _, hb, hc, hdelta⟩ := g.exists_evidence hevidence hseries
    have hbaseline : mean (g.observed metric kind observe).baseline
        = meanOf observe g.baselineTrials := g.mean_sortedKeys g.baseline observe
    have hcandidate : mean (g.observed metric kind observe).candidate
        = meanOf observe g.candidateTrials := g.mean_sortedKeys g.candidate observe
    rw [hbaseline, hcandidate] at hdelta
    exact ⟨_, hmc, e, he, rfl, hname, hb.trans hbaseline, hc.trans hcandidate, hdelta⟩
  · -- the mean latency: without failures the pairs that are kept are all pairs
    intro hok
    have htrials : ∀ t ∈ g.trials, t.1.error = none := fun t ht =>
      hok t.1 (List.mem_map_of_mem ht)
    obtain ⟨e, he, hname, _, hb, hc, hdelta⟩ :=
      g.exists_evidence hevidence (s := latencySeries g.pairs g.keys.length 0)
        (by simp [Grid.series])
    obtain ⟨hbs, hcs⟩ := g.latencySeries_of_all_ok htrials
    have hbaseline : mean (latencySeries g.pairs g.keys.length 0).baseline
        = latencyMeanOf g.baselineTrials := by
      rw [hbs, Grid.latencyMeanOf_of_all_ok g.baselineTrials
        fun t ht => htrials t (List.mem_append_left _ ht)]
      exact g.mean_sortedKeys g.baseline fun t => t.1.usage.latencyMs
    have hcandidate : mean (latencySeries g.pairs g.keys.length 0).candidate
        = latencyMeanOf g.candidateTrials := by
      rw [hcs, Grid.latencyMeanOf_of_all_ok g.candidateTrials
        fun t ht => htrials t (List.mem_append_right _ ht)]
      exact g.mean_sortedKeys g.candidate fun t => t.1.usage.latencyMs
    rw [hbaseline, hcandidate] at hdelta
    exact ⟨comparison "latency_ms.mean" (by decide) g.baselineTrials g.candidateTrials
      latencyMeanOf, by simp [Grid.aggregated, comparisons], e, he, rfl, hname,
      hb.trans hbaseline, hc.trans hcandidate, hdelta⟩
  · -- the total cost
    obtain ⟨e, he, hname, hpairs, hb, hc, _⟩ := g.exists_evidence hevidence
      (s := g.observed "cost_usd.mean" .continuous Grid.costValue) (by simp [Grid.series])
    have hnPairs : e.nPairs = g.keys.length := by
      rw [hpairs, length_differences (by simp [Grid.observed, fullSeries])]
      simp [Grid.observed, fullSeries, g.length_sortedKeys]
    refine ⟨comparison "cost_usd.total" (by decide) g.baselineTrials g.candidateTrials costTotalOf,
      by simp [Grid.aggregated, comparisons], e, he, rfl, hname, ?_, ?_⟩
    · rw [hnPairs, hb]
      exact (g.costTotalOf_eq g.baseline).trans
        (congrArg _ (g.mean_sortedKeys g.baseline Grid.costValue).symm)
    · rw [hnPairs, hc]
      exact (g.costTotalOf_eq g.candidate).trans
        (congrArg _ (g.mean_sortedKeys g.candidate Grid.costValue).symm)

/-- The agreement on an offline run of one case. -/
theorem evidence_agrees_with_metrics_offline :
    ∃ outcome result evidence,
      aggregateResults (offlineExperiment 1 (le_refl 1)) outcome [] (offlineStamp 0) = .ok result ∧
      buildStatisticalEvidence (offlineRuntime 0) .default (offlineExperiment 1 (le_refl 1))
        outcome [] = .ok evidence ∧
      (∀ metric, IsQualityMetric [] metric → Compares result evidence metric metric Agree) ∧
      ((∀ run ∈ outcome.runs, run.error = none) →
        Compares result evidence "latency_ms.mean" "latency_ms.mean" Agree) ∧
      Compares result evidence "cost_usd.total" "cost_usd.mean" fun mc e =>
        mc.baselineValue = e.nPairs * e.baseline.mean ∧
          mc.candidateValue = e.nPairs * e.candidate.mean := by
  obtain ⟨g, _, hrun, _⟩ := offline_grid 0 (le_refl 1)
    (fun _ _ => .ok (offlineResponse 1 zero_le_one)) (by simp)
  obtain ⟨evidence, hevidence, _⟩ := g.buildStatisticalEvidence_eq_ok (offlineRuntime 0)
    (default_valid BootstrapOptions.default.seed)
  have hresult := g.aggregateResults_eq_ok (offlineStamp 0)
  exact ⟨g.outcome, _, evidence, hresult, hevidence,
    evidence_agrees_with_metrics (produced_offlineRun hrun) hresult hevidence⟩

end EvalOps
