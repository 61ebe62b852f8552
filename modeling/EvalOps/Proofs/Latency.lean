import EvalOps.Proofs.Assess
import EvalOps.Proofs.Returns

/-!
# `EvalOps.Proofs.Latency`: what failing does to the latency metrics

A failed run has no latency, so the latency metrics of a version are statistics of its
successful runs, and `0` when there are none. When candidate runs turn into provider failures,
the statistic moves to the runs that remain. `failing_runs_move_latency_to_the_rest` says when a
regression ends there: exactly when the rest no longer breaches the threshold. It ends when
nothing remains, and it does not end when only the fastest runs failed.
-/

set_option autoImplicit false

namespace EvalOps

/-! ### The two statistics -/

/-- The nearest-rank 95th percentile, `0` of no values. -/
def nearestRank (xs : List ℚ) : ℚ :=
  (Sorting.sorted xs).getD (⌈(19 / 20 : ℚ) * xs.length⌉ - 1).toNat 0

/-- The latency metrics, each with its statistic of the latencies. -/
inductive LatencyMetric : String → (List ℚ → ℚ) → Prop
  | mean : LatencyMetric "latency_ms.mean" EvalOps.mean
  | p95 : LatencyMetric "latency_ms.p95" nearestRank

/-- The mean of no latencies is `0`, as `_latency_mean` returns. -/
theorem latencyMean_eq (runs : List EvaluationRun) :
    latencyMean runs = mean (successfulLatencies runs) := by
  unfold latencyMean mean
  dsimp only
  split
  · rename_i hnil
    rw [List.isEmpty_iff.mp hnil]
    simp
  · rfl

theorem latencyP95Value_eq (runs : List EvaluationRun) :
    latencyP95Value runs = nearestRank (successfulLatencies runs) := by
  unfold latencyP95Value nearestRank
  dsimp only
  rw [Sorting.length_sorted]

theorem nearestRank_perm {xs ys : List ℚ} (h : xs.Perm ys) : nearestRank xs = nearestRank ys := by
  unfold nearestRank
  rw [Sorting.sorted_congr h, h.length_eq]

/-- Without the values below the others, the mean is no lower. -/
theorem mean_append_le {xs ys : List ℚ} (hne : ys ≠ []) (h : ∀ x ∈ xs, ∀ y ∈ ys, x ≤ y) :
    mean (xs ++ ys) ≤ mean ys := by
  have hpos : (0 : ℚ) < ys.length := by exact_mod_cast List.length_pos_iff.mpr hne
  -- Each value of `xs` is at most each of `ys`, so at most their mean.
  have hlow : ∀ x ∈ xs, x ≤ mean ys := by
    intro x hx
    unfold mean
    rw [le_div_iff₀ hpos, mul_comm, ← nsmul_eq_mul]
    exact List.card_nsmul_le_sum ys x (h x hx)
  have hsum : xs.sum ≤ xs.length * mean ys := by
    rw [← nsmul_eq_mul]
    exact List.sum_le_card_nsmul xs (mean ys) hlow
  have hys : ys.sum = ys.length * mean ys := by
    unfold mean
    rw [mul_div_cancel₀ _ hpos.ne']
  have hlen : (0 : ℚ) < (xs ++ ys).length := by
    rw [List.length_append]
    push_cast
    linarith [(Nat.cast_nonneg xs.length : (0 : ℚ) ≤ xs.length)]
  rw [mean, div_le_iff₀ hlen, List.sum_append, List.length_append]
  push_cast
  linarith

/-- Without the values below the others, the percentile is no lower. -/
theorem nearestRank_append_le {xs ys : List ℚ} (hne : ys ≠ []) (h : ∀ x ∈ xs, ∀ y ∈ ys, x ≤ y) :
    nearestRank (xs ++ ys) ≤ nearestRank ys := by
  have hpos : (1 : ℚ) ≤ ys.length := by exact_mod_cast List.length_pos_iff.mpr hne
  have hnonneg : (0 : ℚ) ≤ xs.length := Nat.cast_nonneg _
  have hlow : 1 ≤ ⌈(19 / 20 : ℚ) * ys.length⌉ := Int.one_le_ceil_iff.mpr (by linarith)
  have hhigh : ⌈(19 / 20 : ℚ) * ys.length⌉ ≤ (ys.length : ℤ) :=
    Int.ceil_le.mpr (by push_cast; linarith)
  -- The rank grows by no more than the number of values put in front.
  have hrank : ⌈(19 / 20 : ℚ) * (xs ++ ys).length⌉ ≤ xs.length + ⌈(19 / 20 : ℚ) * ys.length⌉ := by
    rw [Int.ceil_le, List.length_append]
    push_cast
    linarith [Int.le_ceil ((19 / 20 : ℚ) * ys.length)]
  have hone : 1 ≤ ⌈(19 / 20 : ℚ) * (xs ++ ys).length⌉ := by
    rw [Int.one_le_ceil_iff, List.length_append]
    push_cast
    linarith
  have hordered : (Sorting.sorted xs ++ Sorting.sorted ys).Pairwise (· ≤ ·) := by
    rw [← Sorting.sorted_append h]
    exact Sorting.sorted_pairwise _
  -- The rank among `ys` lies `xs.length` places further in the whole list.
  calc nearestRank (xs ++ ys)
      = Interpolation.entry (Sorting.sorted xs ++ Sorting.sorted ys)
          (⌈(19 / 20 : ℚ) * (xs ++ ys).length⌉ - 1) := by
        unfold nearestRank Interpolation.entry
        rw [Sorting.sorted_append h]
    _ ≤ Interpolation.entry (Sorting.sorted xs ++ Sorting.sorted ys)
          (xs.length + (⌈(19 / 20 : ℚ) * ys.length⌉ - 1)) := by
        apply Interpolation.entry_le_entry hordered
        · omega
        · omega
        · simp only [List.length_append, Sorting.length_sorted, Nat.cast_add]
          omega
    _ = nearestRank ys := by
        unfold nearestRank Interpolation.entry
        rw [List.getD_append_right _ _ _ _ (by rw [Sorting.length_sorted]; omega),
          Sorting.length_sorted]
        congr 1
        omega

namespace LatencyMetric

variable {metric : String} {statistic : List ℚ → ℚ}

theorem perm (h : LatencyMetric metric statistic) {xs ys : List ℚ} (hperm : xs.Perm ys) :
    statistic xs = statistic ys := by
  cases h with
  | mean => exact mean_perm hperm
  | p95 => exact nearestRank_perm hperm

theorem append_le (h : LatencyMetric metric statistic) {xs ys : List ℚ} (hne : ys ≠ [])
    (hle : ∀ x ∈ xs, ∀ y ∈ ys, x ≤ y) : statistic (xs ++ ys) ≤ statistic ys := by
  cases h with
  | mean => exact mean_append_le hne hle
  | p95 => exact nearestRank_append_le hne hle

theorem nil (h : LatencyMetric metric statistic) : statistic [] = 0 := by
  cases h with
  | mean => simp [EvalOps.mean]
  | p95 => simp [nearestRank, Sorting.sorted]

theorem nonneg (h : LatencyMetric metric statistic) {xs : List ℚ} (hxs : ∀ x ∈ xs, 0 ≤ x) :
    0 ≤ statistic xs := by
  cases h with
  | mean => exact mean_nonneg hxs
  | p95 =>
      unfold nearestRank
      rw [List.getD_eq_getElem?_getD]
      cases hget : (Sorting.sorted xs)[(⌈(19 / 20 : ℚ) * xs.length⌉ - 1).toNat]? with
      | none => exact le_refl 0
      | some x => exact hxs x (Sorting.mem_sorted.mp (List.mem_of_getElem? hget))

theorem directionOf (h : LatencyMetric metric statistic) :
    directionOf metric = .lowerIsBetter := by
  cases h <;> decide

theorem mem (h : LatencyMetric metric statistic) :
    metric ∈ ["latency_ms.mean", "latency_ms.p95"] := by
  cases h <;> decide

theorem eq_mean (h : LatencyMetric metric statistic) (hmetric : metric = "latency_ms.mean") :
    statistic = EvalOps.mean := by
  cases h with
  | mean => rfl
  | p95 => exact absurd hmetric (by decide)

theorem eq_nearestRank (h : LatencyMetric metric statistic)
    (hmetric : metric = "latency_ms.p95") : statistic = nearestRank := by
  cases h with
  | mean => exact absurd hmetric (by decide)
  | p95 => rfl

/-- No quality metric is a latency metric. -/
theorem not_quality (h : LatencyMetric metric statistic) {names : List String}
    {observe : Trial → ℚ} (hq : Quality names metric observe) : False := by
  have hlower := h.directionOf
  rw [hq.directionOf] at hlower
  exact nomatch hlower

end LatencyMetric

/-! ### Failing runs -/

section

variable (experiment : Experiment) (ids : EntityId → Bool) (exc : EntityId → PyError)

/-- The run is a successful candidate run of the set. -/
def isFailing (run : EvaluationRun) : Bool :=
  decide (run.systemVersionId = experiment.candidateVersionId) && run.error.isNone &&
    ids run.id

/-- The trial, with the provider failure that it turns into. -/
def failTrial (t : Trial) : Trial :=
  if isFailing experiment ids t.1 then
    ({ t.1 with
        output := ""
        usage := UsageMetrics.zero
        error := some (failureText (exc t.1.id))
        retrieval := []
        toolCalls := [] },
      { t.2 with scores := [], scores_nodup := List.nodup_nil })
  else t

/-- The outcome after the successful candidate runs of the set have failed. -/
def failRuns (outcome : RunOutcome) : RunOutcome :=
  let ts := (outcome.runs.zip outcome.caseResults).map (failTrial experiment ids exc)
  ⟨ts.map Prod.fst, ts.map Prod.snd⟩

/-- The latencies of the successful candidate runs. -/
def candidateLatencies (outcome : RunOutcome) : List ℚ :=
  successfulLatencies
    (outcome.runs.filter fun r => decide (r.systemVersionId = experiment.candidateVersionId))

end

variable {experiment : Experiment} {ids : EntityId → Bool} {exc : EntityId → PyError}

theorem failTrial_id (t : Trial) : (failTrial experiment ids exc t).1.id = t.1.id := by
  unfold failTrial
  split <;> rfl

/-- A trial of another version does not fail. -/
theorem failTrial_of_version_ne {t : Trial}
    (h : t.1.systemVersionId ≠ experiment.candidateVersionId) :
    failTrial experiment ids exc t = t := by
  unfold failTrial isFailing
  simp [h]

/-- What has failed is the record of a failed call, the rest is as it was. -/
theorem Records.failTrial {names : List String} {versionId : EntityId} {key : PairKey} {t : Trial}
    (h : Records experiment names versionId key t) :
    Records experiment names versionId key (failTrial experiment ids exc t) := by
  unfold EvalOps.failTrial
  split
  · exact ⟨h.experimentId, h.versionId, h.caseId, h.repeatIndex, h.runId,
      fun _ => ⟨rfl, rfl, rfl⟩, fun hnone => absurd hnone (Option.some_ne_none _)⟩
  · exact h

theorem successfulLatencies_cons (run : EvaluationRun) (runs : List EvaluationRun) :
    successfulLatencies (run :: runs)
      = if run.error.isNone then run.usage.latencyMs :: successfulLatencies runs
        else successfulLatencies runs := by
  unfold successfulLatencies
  cases hok : run.error.isNone <;> simp [hok]

/-- The latencies are those of the runs that fail and those that remain. -/
theorem successfulLatencies_perm (ts : List Trial) :
    (successfulLatencies (ts.map Prod.fst)).Perm
      (((ts.map Prod.fst).filter (isFailing experiment ids)).map
          (fun r => r.usage.latencyMs) ++
        successfulLatencies ((ts.map (failTrial experiment ids exc)).map Prod.fst)) := by
  induction ts with
  | nil => exact List.Perm.nil
  | cons t ts ih =>
      simp only [List.map_cons, successfulLatencies_cons]
      -- A run that fails was successful: its latency moves from the right part to the left one.
      by_cases hfailing : isFailing experiment ids t.1 = true
      · have hok : t.1.error.isNone = true := by
          unfold isFailing at hfailing
          simp only [Bool.and_eq_true] at hfailing
          exact hfailing.1.2
        have hfailed : (failTrial experiment ids exc t).1.error.isNone = false := by
          unfold failTrial
          rw [if_pos hfailing]
          rfl
        rw [if_pos hok, List.filter_cons_of_pos hfailing, hfailed]
        exact ih.cons _
      · have hsame : failTrial experiment ids exc t = t := if_neg hfailing
        rw [List.filter_cons_of_neg hfailing, hsame]
        split
        · exact (ih.cons _).trans List.perm_middle.symm
        · exact ih

namespace Grid

variable {caseIds : List EntityId} {names : List String} (g : Grid experiment caseIds names)

/-- The grid after the runs of the set have failed. -/
def failing (ids : EntityId → Bool) (exc : EntityId → PyError) :
    Grid experiment caseIds names where
  baseline := g.baseline
  candidate := fun key => failTrial experiment ids exc (g.candidate key)
  caseIds_ne_nil := g.caseIds_ne_nil
  caseIds_nodup := g.caseIds_nodup
  names_nodup := g.names_nodup
  baseline_records := g.baseline_records
  candidate_records := fun key hkey => (g.candidate_records key hkey).failTrial
  ids_nodup := by
    have h := g.ids_nodup
    simp only [List.map_append, List.map_map, Function.comp_def, failTrial_id] at h ⊢
    exact h

theorem outcome_failing :
    failRuns experiment ids exc g.outcome = (g.failing ids exc).outcome := by
  -- The set only fails runs of the candidate.
  have hbaseline : g.baselineTrials.map (failTrial experiment ids exc) = g.baselineTrials := by
    conv_rhs => rw [← List.map_id g.baselineTrials]
    apply List.map_congr_left
    intro t ht
    obtain ⟨key, hkey, rfl⟩ := List.mem_map.mp ht
    apply failTrial_of_version_ne
    rw [(g.baseline_records key hkey).versionId]
    exact experiment.versions_ne
  have htrials : g.trials.map (failTrial experiment ids exc)
      = (g.failing ids exc).trials := by
    change (g.baselineTrials ++ g.candidateTrials).map _ = _
    rw [List.map_append, hbaseline]
    unfold candidateTrials
    rw [List.map_map]
    rfl
  unfold failRuns
  rw [g.zip_outcome, htrials]
  rfl

/-- The candidate latencies of the outcome of a grid. -/
theorem candidateLatencies_outcome :
    candidateLatencies experiment g.outcome
      = successfulLatencies (g.candidateTrials.map Prod.fst) := by
  unfold candidateLatencies
  rw [g.filter_candidate]

variable (ids exc) in
/-- The candidate latencies are those of the runs that fail and those that remain. -/
theorem candidateLatencies_perm :
    (candidateLatencies experiment g.outcome).Perm
      (((g.candidateTrials.map Prod.fst).filter (isFailing experiment ids)).map
          (fun r => r.usage.latencyMs) ++
        candidateLatencies experiment (g.failing ids exc).outcome) := by
  rw [g.candidateLatencies_outcome, (g.failing ids exc).candidateLatencies_outcome]
  have hcandidates : (g.failing ids exc).candidateTrials
      = g.candidateTrials.map (failTrial experiment ids exc) := by
    unfold candidateTrials
    rw [List.map_map]
    rfl
  rw [hcandidates]
  exact successfulLatencies_perm g.candidateTrials

variable (ids exc) in
/-- A latency comparison of the two runs: one baseline, and the statistic of what remains. -/
theorem forall₂_comparisons_failing :
    List.Forall₂
      (fun mc mc' => mc'.metric = mc.metric ∧ ∀ statistic, LatencyMetric mc.metric statistic →
        0 ≤ mc.baselineValue ∧ mc'.baselineValue = mc.baselineValue ∧
        mc.candidateValue = statistic (candidateLatencies experiment g.outcome) ∧
        mc'.candidateValue
          = statistic (candidateLatencies experiment (g.failing ids exc).outcome))
      (comparisons names g.baselineTrials g.candidateTrials)
      (comparisons names (g.failing ids exc).baselineTrials
        (g.failing ids exc).candidateTrials) := by
  have hnonneg : ∀ x ∈ successfulLatencies (g.baselineTrials.map Prod.fst), (0 : ℚ) ≤ x := by
    intro x hx
    obtain ⟨run, _, rfl⟩ := List.mem_map.mp hx
    exact run.usage.latencyMs_nonneg
  apply forall₂_comparisons
  · -- a quality metric
    intro metric observe hq
    exact ⟨rfl, fun statistic h => (h.not_quality hq).elim⟩
  · -- the mean
    refine ⟨rfl, fun statistic h => ?_⟩
    rw [h.eq_mean rfl, g.candidateLatencies_outcome,
      (g.failing ids exc).candidateLatencies_outcome]
    refine ⟨?_, rfl, latencyMean_eq _, latencyMean_eq _⟩
    exact (LatencyMetric.mean.nonneg hnonneg).trans_eq (latencyMean_eq _).symm
  · -- the percentile
    refine ⟨rfl, fun statistic h => ?_⟩
    rw [h.eq_nearestRank rfl, g.candidateLatencies_outcome,
      (g.failing ids exc).candidateLatencies_outcome]
    refine ⟨?_, rfl, latencyP95Value_eq _, latencyP95Value_eq _⟩
    exact (LatencyMetric.p95.nonneg hnonneg).trans_eq (latencyP95Value_eq _).symm
  · -- the cost
    exact ⟨rfl, fun statistic h => absurd h.mem (by simp [comparison])⟩

end Grid

theorem candidateLatencies_nonneg {outcome : RunOutcome} {x : ℚ}
    (hx : x ∈ candidateLatencies experiment outcome) : 0 ≤ x := by
  obtain ⟨run, _, rfl⟩ := List.mem_map.mp hx
  exact run.usage.latencyMs_nonneg

/-- No threshold of a policy is negative. -/
theorem thresholdOf_nonneg {policy : Option ReleasePolicy} {metric : String} {t : ℚ}
    (h : thresholdOf policy metric = some t) : 0 ≤ t := by
  obtain ⟨p, rfl, hget⟩ := Option.bind_eq_some_iff.mp h
  exact p.thresholds_nonneg _ ((Dict.get?_eq_some_iff _ _ _).mp hget)

/-- A latency of zero breaches no threshold. -/
theorem not_breach_zero {b t : ℚ} (ht : 0 ≤ t) : ¬Breach .lowerIsBetter b 0 t := by
  rintro (⟨_, hne⟩ | ⟨hne, hlt⟩)
  · exact hne rfl
  · rw [zero_sub, neg_div, div_self hne] at hlt
    linarith

/-- A higher latency breaches every threshold that a lower one breaches. -/
theorem breach_of_ge {b c c' t : ℚ} (hb : 0 ≤ b) (hc : 0 ≤ c) (hle : c ≤ c')
    (h : Breach .lowerIsBetter b c t) : Breach .lowerIsBetter b c' t := by
  -- Above a baseline of zero any change breaches, and above a positive one a relative change.
  rcases h with ⟨hzero, hne⟩ | ⟨hne, hlt⟩
  · exact Or.inl ⟨hzero, fun hzero' => hne (le_antisymm (hzero' ▸ hle) hc)⟩
  · have hpos : 0 < b := lt_of_le_of_ne hb (Ne.symm hne)
    exact Or.inr ⟨hne, hlt.trans_le (div_le_div_of_nonneg_right (by linarith) hpos.le)⟩

variable (ids exc) in
/-- The two runs have evidence for the same metrics. -/
theorem Grid.forall₂_series_failing {caseIds : List EntityId} {names : List String}
    (g : Grid experiment caseIds names) :
    List.Forall₂ (fun s s' : PairedSeries => s'.metric = s.metric) g.series
      (g.failing ids exc).series :=
  Grid.forall₂_series g (fun _ _ _ _ => rfl) rfl rfl

/-- How the verdict of a latency metric that is a regression moves when the latencies `failed`
go and the latencies `rest` remain. -/
structure LatencyMoves (policy : Option ReleasePolicy) (failed rest : List ℚ)
    (statistic : List ℚ → ℚ) (v v' : MetricVerdict) : Prop where
  pass_iff_rest : v'.outcome = .pass ↔ ¬∃ t, thresholdOf policy v.metric = some t ∧
    Breach .lowerIsBetter v.baseline (statistic rest) t
  pass_of_nil : rest = [] → v'.outcome = .pass
  not_pass_of_faster : rest ≠ [] → (∀ x ∈ failed, ∀ y ∈ rest, x ≤ y) → v'.outcome ≠ .pass

/-- The latencies of the runs that fail. -/
def failingLatencies (experiment : Experiment) (ids : EntityId → Bool) (outcome : RunOutcome) :
    List ℚ :=
  (outcome.runs.filter (isFailing experiment ids)).map fun r => r.usage.latencyMs

/-- The assessment after the runs of the set have failed. -/
theorem Grid.assess_failing {caseIds : List EntityId} {names : List String}
    (g : Grid experiment caseIds names) (ids : EntityId → Bool) (exc : EntityId → PyError)
    {rt : Runtime} {policy : Option ReleasePolicy} {stamp : Stamp} {a : EvaluationOutcome}
    (ha : assess rt experiment names policy stamp g.outcome = .ok a) (stamp' : Stamp) :
    ∃ a', assess rt experiment names policy stamp' (failRuns experiment ids exc g.outcome)
        = .ok a' ∧
      List.Forall₂
        (fun v v' => v'.metric = v.metric ∧ ∀ statistic, LatencyMetric v.metric statistic →
          v.outcome = .regression → LatencyMoves policy (failingLatencies experiment ids g.outcome)
            (candidateLatencies experiment (failRuns experiment ids exc g.outcome)) statistic v v')
        a.gate.verdicts a'.gate.verdicts := by
  rw [g.outcome_failing]
  have hmetrics := g.forall₂_comparisons_failing ids exc
  have hcovered : PolicyCovered policy
      (comparisons names (g.failing ids exc).baselineTrials (g.failing ids exc).candidateTrials) :=
    policyCovered_congr (by simp only [map_metric_comparisons]) (Grid.policyCovered_of_assess ha)
  obtain ⟨hresult, hdecided⟩ := Grid.of_assess ha
  obtain ⟨a', ha', _, hresult', hdecided'⟩ := (g.failing ids exc).assess_eq_ok rt stamp' hcovered
  refine ⟨a', ha', ?_⟩
  rw [hdecided.verdicts, hdecided'.verdicts]
  have hevidence := hresult.forall₂_evidence hresult' (g.forall₂_series_failing ids exc)
  rw [← hresult.metrics, ← hresult'.metrics] at hmetrics
  refine forall₂_verdictsOf (fun _ _ => True) hmetrics (hevidence.imp ?_) ?_
  · rintro e e' ⟨s, s', seed, hname, he, he'⟩
    rw [he, he']
    exact ⟨hname, trivial⟩
  · intro mc mc' e e' hname hmc he
    refine ⟨hname, fun statistic hstatistic hregression => ?_⟩
    change LatencyMetric mc.metric statistic at hstatistic
    obtain ⟨hnonneg, hbaseline, hcandidate, hcandidate'⟩ := hmc statistic hstatistic
    obtain ⟨t, ht, hbreach, _⟩ := regression_iff.mp hregression
    rw [hstatistic.directionOf, hcandidate] at hbreach
    have hpass : (verdictIn .lowerIsBetter mc' (thresholdOf policy mc.metric) e').outcome = .pass ↔
        ¬∃ u, thresholdOf policy mc.metric = some u ∧ Breach .lowerIsBetter mc.baselineValue
          (statistic (candidateLatencies experiment (g.failing ids exc).outcome)) u := by
      rw [pass_iff, hbaseline, hcandidate']
    rw [hstatistic.directionOf]
    refine ⟨hpass, fun hnil => hpass.mpr ?_, fun hne hle => mt hpass.mp (not_not.mpr ⟨t, ht, ?_⟩)⟩
    · -- nothing remains: the statistic is `0`
      rintro ⟨u, hu, hbreach'⟩
      rw [hnil, hstatistic.nil] at hbreach'
      exact not_breach_zero (thresholdOf_nonneg hu) hbreach'
    · -- only faster runs failed: the statistic is no lower than before
      refine breach_of_ge hnonneg ?_ ?_ hbreach
      · exact hstatistic.nonneg fun x hx => candidateLatencies_nonneg hx
      · rw [hstatistic.perm (g.candidateLatencies_perm ids exc)]
        apply hstatistic.append_le hne
        intro x hx y hy
        obtain ⟨run, hrun, rfl⟩ := List.mem_map.mp hx
        obtain ⟨hmem, hfailing⟩ := List.mem_filter.mp hrun
        obtain ⟨trial, htrial, rfl⟩ := List.mem_map.mp hmem
        have hrun' : trial.1 ∈ g.outcome.runs :=
          List.mem_map_of_mem (List.mem_append_right _ htrial)
        exact hle _ (List.mem_map_of_mem (List.mem_filter.mpr ⟨hrun', hfailing⟩)) y hy

/-- When successful candidate runs turn into failures, a latency metric that is a regression
passes exactly when the statistic of the runs that remain breaches no threshold. It passes when
no run remains. It does not pass when some run remains and no failed run was slower than one
that remains. -/
theorem failing_runs_move_latency_to_the_rest {dataset : Dataset} {names : List String}
    {outcome : RunOutcome} (h : Produced experiment dataset names outcome)
    (ids : EntityId → Bool) (exc : EntityId → PyError) {rt : Runtime}
    {policy : Option ReleasePolicy} {stamp : Stamp} {a : EvaluationOutcome}
    (ha : assess rt experiment names policy stamp outcome = .ok a) (stamp' : Stamp) :
    ∃ a', assess rt experiment names policy stamp' (failRuns experiment ids exc outcome)
        = .ok a' ∧
      List.Forall₂
        (fun v v' => v'.metric = v.metric ∧ ∀ statistic, LatencyMetric v.metric statistic →
          v.outcome = .regression → LatencyMoves policy (failingLatencies experiment ids outcome)
            (candidateLatencies experiment (failRuns experiment ids exc outcome)) statistic v v')
        a.gate.verdicts a'.gate.verdicts := by
  obtain ⟨g, rfl⟩ := h.grid
  exact g.assess_failing ids exc ha stamp'

/-! ### A slow candidate that fails -/

/-- The latency percentile has no evidence, so its breach is a regression. -/
theorem Grid.ResultOf.evidenceFor_p95 {caseIds : List EntityId} {names : List String}
    {g : Grid experiment caseIds names} {rt : Runtime} {stamp : Stamp} {result : EvaluationResult}
    (h : g.ResultOf rt stamp result) : evidenceFor result "latency_ms.p95" = none := by
  unfold evidenceFor
  rw [List.find?_eq_none]
  intro e he
  have hmem : e.metric ∈ g.series.map PairedSeries.metric := by
    rw [← g.map_metric_evidenceFields rt .default, ← h.evidence, List.map_map]
    exact List.mem_map_of_mem (f := fun e : MetricEvidence => e.metric) he
  have hfixed : "latency_ms.p95" ∈ fixedMetrics := by decide
  rw [decide_eq_true_iff]
  intro hp95
  rw [hp95] at hmem
  simp only [Grid.series, Grid.observed, fullSeries, latencySeries, List.map_append, List.map_cons,
    List.map_flatMap, List.map_nil, List.mem_append, List.mem_cons, List.mem_flatMap,
    List.not_mem_nil, or_false] at hmem
  rcases hmem with (h | ⟨name, _, h | h⟩) | h | h
  · exact absurd h (by decide)
  · exact passRateMetric_notMem_fixed name (h ▸ hfixed)
  · exact meanScoreMetric_notMem_fixed name (h ▸ hfixed)
  · exact absurd h (by decide)
  · exact absurd h (by decide)

theorem nearestRank_singleton (x : ℚ) : nearestRank [x] = x := by
  have hceil : ⌈(19 / 20 : ℚ) * (([x] : List ℚ).length : ℕ)⌉ = 1 := by
    rw [Int.ceil_eq_iff]
    norm_num
  unfold nearestRank
  rw [hceil, Sorting.sorted_of_pairwise (List.pairwise_singleton _ x)]
  rfl

/-- The experiment of one case, once. -/
def slowExperiment : Experiment := offlineExperiment 1 one_le_once

/-- The policy that tolerates no increase of the latency percentile. -/
def slowPolicy : ReleasePolicy := offlinePolicy "latency_ms.p95" latencyP95_nonblank 0 nonneg_zero

/-- A candidate ten times as slow as the baseline, and its assessment. -/
theorem slow_candidate :
    ∃ (g : Grid slowExperiment (offlineDataset 0).caseIds []) (a : EvaluationOutcome),
      Produced slowExperiment (offlineDataset 0) [] g.outcome ∧
      assess (offlineRuntime 0) slowExperiment [] (some slowPolicy) (offlineStamp 0) g.outcome
        = .ok a ∧
      ∃ v ∈ a.gate.verdicts, v.metric = "latency_ms.p95" ∧ v.outcome = .regression := by
  obtain ⟨g, _, hrun, hanswered⟩ := offline_grid 0 (le_refl 1)
    (fun _ version => if version = offlineId 0 then
      .ok (offlineResponse 1 (by norm_num)) else .ok (offlineResponse 10 (by norm_num)))
    (by
      intro _ version e he
      split at he <;> cases he)
  have hkeys : g.keys = [toLex (offlineId 0, 0)] := rfl
  obtain ⟨hb, hc⟩ := hanswered (toLex (offlineId 0, 0)) (by simp [hkeys])
  rw [if_pos rfl] at hb
  rw [if_neg (by decide)] at hc
  have hbaseline : latencyP95Of g.baselineTrials = 1 := by
    unfold latencyP95Of Grid.baselineTrials
    rw [hkeys, latencyP95Value_eq]
    simp only [List.map_cons, List.map_nil, successfulLatencies_cons, hb.2.1, hb.2.2]
    exact nearestRank_singleton 1
  have hcandidate : latencyP95Of g.candidateTrials = 10 := by
    unfold latencyP95Of Grid.candidateTrials
    rw [hkeys, latencyP95Value_eq]
    simp only [List.map_cons, List.map_nil, successfulLatencies_cons, hc.2.1, hc.2.2]
    exact nearestRank_singleton 10
  have hcovered : PolicyCovered (some slowPolicy)
      (comparisons [] g.baselineTrials g.candidateTrials) := by
    rintro p hp
    cases hp
    exact unknownMetrics_offlinePolicy _ _ (by rw [map_metric_comparisons]; decide)
  obtain ⟨a, ha, _, hresult, hdecided⟩ := g.assess_eq_ok (offlineRuntime 0) (offlineStamp 0)
    hcovered
  have hmem : comparison "latency_ms.p95" (by decide) g.baselineTrials g.candidateTrials
      latencyP95Of ∈ a.result.metrics := by
    rw [hresult.metrics]
    simp [comparisons]
  have hbreach : Breach .lowerIsBetter (latencyP95Of g.baselineTrials)
      (latencyP95Of g.candidateTrials) 0 := by
    rw [hbaseline, hcandidate]
    exact Or.inr (by norm_num)
  refine ⟨g, a, produced_offlineRun hrun, ha, ?_⟩
  rw [hdecided.verdicts]
  refine ⟨_, List.mem_map_of_mem hmem, rfl, regression_iff.mpr ⟨0, rfl, hbreach, ?_⟩⟩
  intro e he
  cases hresult.evidenceFor_p95.symm.trans he

/-- No candidate run remains after all have failed. -/
theorem Grid.candidateLatencies_failAll {caseIds : List EntityId} {names : List String}
    (g : Grid experiment caseIds names) :
    candidateLatencies experiment (failRuns experiment (fun _ => true) exc g.outcome) = [] := by
  rw [g.outcome_failing, Grid.candidateLatencies_outcome]
  unfold successfulLatencies
  rw [List.map_eq_nil_iff, List.filter_eq_nil_iff]
  intro run hrun
  obtain ⟨t, ht, rfl⟩ := List.mem_map.mp hrun
  obtain ⟨key, hkey, rfl⟩ := List.mem_map.mp ht
  change ¬(failTrial experiment (fun _ => true) exc (g.candidate key)).1.error.isNone = true
  -- A run of the candidate either succeeded, and then it is in the set, or had failed before.
  cases hok : (g.candidate key).1.error.isNone with
  | true =>
      have hfailing : isFailing experiment (fun _ => true) (g.candidate key).1 = true := by
        simp [isFailing, (g.candidate_records key hkey).versionId, hok]
      simp [failTrial, hfailing]
  | false =>
      have hfailing : isFailing experiment (fun _ => true) (g.candidate key).1 = false := by
        simp [isFailing, hok]
      simp [failTrial, hfailing, hok]

/-- The slow candidate is blocked on latency, and passes once all its runs fail. -/
theorem failing_runs_end_latency_regression :
    ∃ outcome a a',
      Produced slowExperiment (offlineDataset 0) [] outcome ∧
      assess (offlineRuntime 0) slowExperiment [] (some slowPolicy) (offlineStamp 0) outcome
        = .ok a ∧
      assess (offlineRuntime 0) slowExperiment [] (some slowPolicy) (offlineStamp 0)
        (failRuns slowExperiment (fun _ => true) (fun _ => offlineFailure) outcome) = .ok a' ∧
      (∃ v ∈ a.gate.verdicts, v.metric = "latency_ms.p95" ∧ v.outcome = .regression) ∧
      ∃ v' ∈ a'.gate.verdicts, v'.metric = "latency_ms.p95" ∧ v'.outcome = .pass := by
  obtain ⟨g, a, hproduced, ha, v, hv, hmetric, hregression⟩ := slow_candidate
  obtain ⟨a', ha', hverdicts⟩ := g.assess_failing (fun _ => true) (fun _ => offlineFailure) ha
    (offlineStamp 0)
  refine ⟨g.outcome, a, a', hproduced, ha, ha', ⟨v, hv, hmetric, hregression⟩, ?_⟩
  obtain ⟨v', hv', hname, hmoves⟩ := ListRules.exists_of_forall₂_of_mem hverdicts hv
  refine ⟨v', hv', hname.trans hmetric, ?_⟩
  exact (hmoves nearestRank (hmetric ▸ LatencyMetric.p95) hregression).pass_of_nil
    g.candidateLatencies_failAll

/-- The slow candidate, and the same candidate with failures only. -/
theorem failing_runs_move_latency_to_the_rest_offline :
    ∃ outcome a a',
      assess (offlineRuntime 0) slowExperiment [] (some slowPolicy) (offlineStamp 0) outcome
        = .ok a ∧
      assess (offlineRuntime 0) slowExperiment [] (some slowPolicy) (offlineStamp 0)
        (failRuns slowExperiment (fun _ => true) (fun _ => offlineFailure) outcome) = .ok a' ∧
      List.Forall₂
        (fun v v' => v'.metric = v.metric ∧ ∀ statistic, LatencyMetric v.metric statistic →
          v.outcome = .regression → LatencyMoves (some slowPolicy)
            (failingLatencies slowExperiment (fun _ => true) outcome)
            (candidateLatencies slowExperiment
              (failRuns slowExperiment (fun _ => true) (fun _ => offlineFailure) outcome))
            statistic v v')
        a.gate.verdicts a'.gate.verdicts := by
  obtain ⟨g, a, hproduced, ha, _⟩ := slow_candidate
  obtain ⟨a', ha', hverdicts⟩ := failing_runs_move_latency_to_the_rest hproduced (fun _ => true)
    (fun _ => offlineFailure) ha (offlineStamp 0)
  exact ⟨g.outcome, a, a', ha, ha', hverdicts⟩

end EvalOps
