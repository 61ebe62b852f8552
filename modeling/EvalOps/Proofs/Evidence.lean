import EvalOps.Proofs.Aggregate

/-!
# `EvalOps.Proofs.Evidence`: the statistical evidence of a run

`metricEvidence_eq_ok` is the equation of one metric: the evidence is `evidenceData` of its
series. `Grid.pairedObservations_eq_ok` gives the series of a run, in the order of the sorted
keys, and `Grid.buildStatisticalEvidence_eq_ok` puts the two together.
-/

set_option autoImplicit false

namespace EvalOps

/-! ### One metric -/

/-- The fields of the evidence of one series. -/
def evidenceData (rt : Runtime) (options : BootstrapOptions) (s : PairedSeries) :
    MetricEvidenceData :=
  let diffs := differences s.baseline s.candidate
  let b := summarize rt s.baseline
  let c := summarize rt s.candidate
  let ci := bootstrapCi rt options diffs
  { metric := s.metric
    kind := s.kind
    nPairs := diffs.length
    baseline := b
    candidate := c
    pairedDelta := summarize rt diffs
    delta := c.mean - b.mean
    relativeChange := if b.mean = 0 then none else some ((c.mean - b.mean) / b.mean)
    confidenceLevel := options.confidenceLevel
    ciLow := ci.1
    ciHigh := ci.2
    ciExcludesZero := !decide (diffs.length < minPairsForCi) && excludesZero ci
    insufficientEvidence := decide (diffs.length < minPairsForCi)
    method := bootstrapMethod
    resamples := options.resamples
    seed := options.seed
    droppedProviderFailures := s.droppedProviderFailures }

/-- A series that the evidence accepts: a named metric and two series of one length. -/
structure PairedSeries.WellFormed (s : PairedSeries) : Prop where
  metric_nonblank : PyText.isBlank s.metric = false
  length_eq : s.baseline.length = s.candidate.length

theorem length_differences {baseline candidate : List ℚ}
    (h : baseline.length = candidate.length) :
    (differences baseline candidate).length = baseline.length := by
  simp [differences, h]

@[simp] theorem summarize_n (rt : Runtime) (values : List ℚ) :
    (summarize rt values).n = values.length := by
  unfold summarize
  split
  · rename_i h
    exact h.symm
  · rfl

/-- The mean of a summary is the mean, also of no values. -/
@[simp] theorem summarize_mean (rt : Runtime) (values : List ℚ) :
    (summarize rt values).mean = mean values := by
  unfold summarize
  split
  · rename_i h
    simp [mean, List.length_eq_zero_iff.mp h]
  · rfl

theorem mean_perm {xs ys : List ℚ} (h : xs.Perm ys) : mean xs = mean ys := by
  unfold mean
  rw [h.sum_eq, h.length_eq]

/-- A summary forgets the order of the values. -/
theorem summarize_perm (rt : Runtime) {xs ys : List ℚ} (h : xs.Perm ys) :
    summarize rt xs = summarize rt ys := by
  have hstdev : stdev rt xs = stdev rt ys := by
    unfold stdev
    rw [mean_perm h, (h.map fun x => (x - mean ys) ^ 2).sum_eq, h.length_eq]
  have hmedian : median xs = median ys := by
    unfold median
    rw [Sorting.sorted_congr h]
  unfold summarize
  simp only [h.length_eq, hstdev, hmedian, mean_perm h]

variable {rt : Runtime} {options : BootstrapOptions}

/-- The bounds are absent together. -/
theorem bootstrapCi_isNone_iff (diffs : List ℚ) :
    (bootstrapCi rt options diffs).1.isNone = (bootstrapCi rt options diffs).2.isNone := by
  unfold bootstrapCi
  split <;> rfl

/-- `__post_init__` accepts the evidence of a well-formed series. -/
theorem evidenceData_valid (hv : options.Valid) {s : PairedSeries} (hs : s.WellFormed) :
    (evidenceData rt options s).postInit = .ok () := by
  have hdiffs := length_differences hs.length_eq
  have htail := hv.tail_pos
  have htail' := hv.tail_le
  -- The two ends are quantiles of one list, at the tail and at its complement.
  have hinverted : (evidenceData rt options s).inverted = false := by
    unfold MetricEvidenceData.inverted evidenceData bootstrapCi
    split
    · rename_i low high hlow hhigh
      dsimp only at hlow hhigh
      split at hlow
      · exact nomatch hlow
      · rename_i hn
        rw [if_neg hn] at hhigh
        cases hlow
        cases hhigh
        simpa using bootstrapBound_le_of_le hv _ htail.le htail' (by linarith)
    · rfl
  have hnone : (bootstrapCi rt options (differences s.baseline s.candidate)).1.isNone =
      (bootstrapCi rt options (differences s.baseline s.candidate)).2.isNone :=
    bootstrapCi_isNone_iff _
  unfold MetricEvidenceData.postInit
  rw [hinverted]
  simp only [evidenceData, MetricEvidenceData.checkSummarySize, hs.metric_nonblank,
    hv.confidence_pos, hv.confidence_lt_one, hnone, hdiffs, hs.length_eq, summarize_n]
  simp

/-- `metric_evidence` on a well-formed series. -/
theorem metricEvidence_eq_ok (hv : options.Valid) {s : PairedSeries} (hs : s.WellFormed) :
    metricEvidence rt options s.metric s.kind s.baseline s.candidate s.droppedProviderFailures
      = .ok ⟨evidenceData rt options s, evidenceData_valid hv hs⟩ := by
  unfold metricEvidence
  simp only [hs.length_eq, ne_eq, not_true_eq_false, if_false,
    pairedBootstrapCi_eq_ok hv hs.length_eq, ExceptRules.ok_bind]
  exact MetricEvidence.make_eq_ok_iff.mpr rfl

/-! ### Runs by key -/

/-- The runs of one version with distinct keys, keyed, in order. -/
theorem runsByKey_entries {versionId : EntityId} {runs : List EvaluationRun}
    {byKey : Dict PairKey EvaluationRun}
    (h : ((byKey.entries ++ (runs.filter fun r => decide (r.systemVersionId = versionId)).map
      fun r => (pairKey r, r)).map Prod.fst).Nodup) :
    ∃ d : Dict PairKey EvaluationRun, runs.foldlM (addRun versionId) byKey = .ok d ∧
      d.entries = byKey.entries ++
        (runs.filter fun r => decide (r.systemVersionId = versionId)).map
          fun r => (pairKey r, r) := by
  induction runs generalizing byKey with
  | nil => exact ⟨byKey, rfl, by simp⟩
  | cons run runs ih =>
      by_cases hversion : run.systemVersionId = versionId
      · rw [List.filter_cons_of_pos (by simpa using hversion), List.map_cons] at h ⊢
        -- A run of the version has a new key.
        have hnew : pairKey run ∉ byKey.keys := by
          intro hmem
          rw [List.map_append, List.nodup_append] at h
          exact h.2.2 _ hmem (pairKey run) (by simp) rfl
        have hentries := Dict.insert_entries_of_notMem hnew run
        have hstep : addRun versionId byKey run = .ok (byKey.insert (pairKey run) run) := by
          simp [addRun, hversion, Dict.contains, hnew]
        obtain ⟨d, hd, hdentries⟩ := @ih (byKey.insert (pairKey run) run)
          (by rw [hentries, List.append_assoc]; exact h)
        refine ⟨d, ?_, ?_⟩
        · rw [List.foldlM_cons, hstep]
          exact hd
        · rw [hdentries, hentries, List.append_assoc]
          rfl
      · rw [List.filter_cons_of_neg (by simpa using hversion)] at h ⊢
        -- A run of another version is passed over.
        obtain ⟨d, hd, hdentries⟩ := ih h
        refine ⟨d, ?_, hdentries⟩
        rw [List.foldlM_cons, addRun, if_pos hversion]
        exact hd

/-- `_runs_by_key`, when the runs of the version have distinct keys. -/
theorem runsByKey_eq_ok {versionId : EntityId} {runs : List EvaluationRun} {ts : List Trial}
    (hfilter : runs.filter (fun r => decide (r.systemVersionId = versionId)) = ts.map Prod.fst)
    (hkeys : (ts.map fun t => pairKey t.1).Nodup) :
    ∃ d : Dict PairKey EvaluationRun, runsByKey runs versionId = .ok d ∧
      d.entries = ts.map fun t => (pairKey t.1, t.1) := by
  obtain ⟨d, hd, hentries⟩ := @runsByKey_entries versionId runs Dict.empty
    (by rw [hfilter]; simpa [Dict.empty, Function.comp_def] using hkeys)
  refine ⟨d, hd, ?_⟩
  rw [hentries, hfilter]
  simp [Dict.empty]

/-- The run of a trial carries the trial's key. -/
theorem Records.pairKey_eq {experiment : Experiment} {names : List String}
    {versionId : EntityId} {key : PairKey} {t : Trial}
    (h : Records experiment names versionId key t) : pairKey t.1 = key := by
  unfold pairKey
  rw [h.caseId, h.repeatIndex]
  exact toLex_ofLex key

namespace Grid

variable {experiment : Experiment} {caseIds : List EntityId} {names : List String}
  (g : Grid experiment caseIds names)

/-- The matched keys, in the order of the series. -/
def sortedKeys : List PairKey := Sorting.sorted g.keys

theorem mem_sortedKeys {key : PairKey} : key ∈ g.sortedKeys ↔ key ∈ g.keys :=
  Sorting.mem_sorted

theorem length_sortedKeys : g.sortedKeys.length = g.keys.length := Sorting.length_sorted g.keys

/-- The matched pairs of runs. -/
def pairs : List (EvaluationRun × EvaluationRun) :=
  g.sortedKeys.map fun key => ((g.baseline key).1, (g.candidate key).1)

/-- The series of an observation to which every pair contributes. -/
def observed (metric : String) (kind : MetricKind) (observe : Trial → ℚ) : PairedSeries :=
  fullSeries metric kind (g.sortedKeys.map fun key => observe (g.baseline key))
    (g.sortedKeys.map fun key => observe (g.candidate key)) g.keys.length 0

/-- The recorded cost of a trial. -/
def costValue (t : Trial) : ℚ := t.1.usage.costUsd

/-- The series of a run. -/
def series : List PairedSeries :=
  g.observed "success_rate" .binary successValue ::
    (names.flatMap fun name =>
      [g.observed (passRateMetric name) .binary (passValue name),
       g.observed (meanScoreMetric name) .continuous (scoreValue name)]) ++
    [latencySeries g.pairs g.keys.length 0, g.observed "cost_usd.mean" .continuous costValue]

/-- The baseline trials carry their keys. -/
theorem map_pairKey_baseline : g.baselineTrials.map (fun t => pairKey t.1) = g.keys := by
  unfold baselineTrials
  rw [List.map_map]
  exact (List.map_congr_left fun key hkey => (g.baseline_records key hkey).pairKey_eq).trans
    (List.map_id' g.keys)

/-- The candidate trials carry their keys. -/
theorem map_pairKey_candidate : g.candidateTrials.map (fun t => pairKey t.1) = g.keys := by
  unfold candidateTrials
  rw [List.map_map]
  exact (List.map_congr_left fun key hkey => (g.candidate_records key hkey).pairKey_eq).trans
    (List.map_id' g.keys)

/-- A dictionary of trials by key returns the run of each key. -/
theorem runAt_eq_ok {d : Dict PairKey EvaluationRun} {f : PairKey → Trial}
    (hd : d.entries = (g.keys.map f).map fun t => (pairKey t.1, t.1))
    (hf : (g.keys.map f).map (fun t => pairKey t.1) = g.keys) {key : PairKey}
    (hkey : key ∈ g.keys) : runAt d key = .ok (f key).1 := by
  have hself : pairKey (f key).1 = key := by
    rw [List.map_map] at hf
    exact List.map_inj_left.mp (hf.trans (List.map_id g.keys).symm) key hkey
  have hget : d.get? key = some (f key).1 := by
    rw [Dict.get?_eq_some_iff, hd]
    exact List.mem_map.mpr ⟨f key, List.mem_map_of_mem hkey, by rw [hself]⟩
  unfold runAt
  rw [hget]
  rfl

/-- Evidence finds the score of a successful trial. -/
theorem scoreFor_eq_ok {t : Trial} (h : t ∈ g.trials) {name : String} {score : EvaluatorScore}
    (hscore : trialScore name t = some score) :
    scoreFor t.1 g.resultsByRun name = .ok score := by
  unfold trialScore at hscore
  split at hscore
  · exact nomatch hscore
  · unfold scoreFor
    rw [resultsByRun_get? h]
    simp only [hscore]
    rfl

/-- `_pass_obs` is the verdict of the trial. -/
theorem passObs_eq_ok {t : Trial} (h : t ∈ g.trials) {name : String} (hname : name ∈ names) :
    passObs t.1 g.resultsByRun name = .ok (passValue name t) := by
  unfold passObs passValue
  split
  · rename_i hfailed
    rw [trialScore_of_failed hfailed]
    rfl
  · rename_i hok
    obtain ⟨score, hscore⟩ := exists_trialScore h (by simpa using hok) hname
    rw [g.scoreFor_eq_ok h hscore, hscore]
    rfl

/-- `_score_obs` is the score of the trial. -/
theorem scoreObs_eq_ok {t : Trial} (h : t ∈ g.trials) {name : String} (hname : name ∈ names) :
    scoreObs t.1 g.resultsByRun name = .ok (scoreValue name t) := by
  unfold scoreObs scoreValue
  split
  · rename_i hfailed
    rw [trialScore_of_failed hfailed]
    rfl
  · rename_i hok
    obtain ⟨score, hscore⟩ := exists_trialScore h (by simpa using hok) hname
    rw [g.scoreFor_eq_ok h hscore, hscore]
    rfl

/-- The trials of the sorted keys are trials of the grid. -/
theorem baseline_mem_trials {key : PairKey} (h : key ∈ g.sortedKeys) :
    g.baseline key ∈ g.trials :=
  List.mem_append_left _ (List.mem_map_of_mem (g.mem_sortedKeys.mp h))

theorem candidate_mem_trials {key : PairKey} (h : key ∈ g.sortedKeys) :
    g.candidate key ∈ g.trials :=
  List.mem_append_right _ (List.mem_map_of_mem (g.mem_sortedKeys.mp h))

/-- A loop over the pairs that observes a value at each key. -/
theorem mapM_pairs_eq_ok {observe : EvaluationRun × EvaluationRun → Py ℚ} {value : PairKey → ℚ}
    (h : ∀ key ∈ g.sortedKeys,
      observe ((g.baseline key).1, (g.candidate key).1) = .ok (value key)) :
    g.pairs.mapM observe = .ok (g.sortedKeys.map value) := by
  unfold Grid.pairs
  rw [List.mapM_map]
  exact ExceptRules.mapM_eq_ok_map h

/-- The two series of one evaluator. -/
theorem evaluatorSeries_eq_ok {name : String} (hname : name ∈ names) :
    evaluatorSeries g.pairs g.resultsByRun g.keys.length 0 name
      = .ok [g.observed (passRateMetric name) .binary (passValue name),
          g.observed (meanScoreMetric name) .continuous (scoreValue name)] := by
  unfold evaluatorSeries
  rw [g.mapM_pairs_eq_ok fun key hkey => g.passObs_eq_ok (g.baseline_mem_trials hkey) hname,
    g.mapM_pairs_eq_ok fun key hkey => g.passObs_eq_ok (g.candidate_mem_trials hkey) hname,
    g.mapM_pairs_eq_ok fun key hkey => g.scoreObs_eq_ok (g.baseline_mem_trials hkey) hname,
    g.mapM_pairs_eq_ok fun key hkey => g.scoreObs_eq_ok (g.candidate_mem_trials hkey) hname]
  rfl

/-- The series bear distinct names. -/
theorem nodup_map_metric_series : (g.series.map PairedSeries.metric).Nodup := by
  have hmap : g.series.map PairedSeries.metric
      = ["success_rate"] ++
          (evaluatorMetricNames names ++ ["latency_ms.mean", "cost_usd.mean"]) := by
    simp [series, observed, fullSeries, latencySeries, evaluatorMetricNames, List.map_flatMap]
  rw [hmap]
  exact nodup_metricNames g.names_nodup _ _ (by decide) (by decide)

/-- `paired_observations` on the outcome of a grid. -/
theorem pairedObservations_eq_ok :
    ∃ d : Dict String PairedSeries,
      pairedObservations experiment g.outcome names = .ok d ∧ d.values = g.series := by
  obtain ⟨b, hb, hbentries⟩ := runsByKey_eq_ok g.filter_baseline
    (g.map_pairKey_baseline ▸ g.nodup_keys)
  obtain ⟨c, hc, hcentries⟩ := runsByKey_eq_ok g.filter_candidate
    (g.map_pairKey_candidate ▸ g.nodup_keys)
  have hbkeys : b.keys = g.keys := by
    unfold Dict.keys
    rw [hbentries, List.map_map]
    exact g.map_pairKey_baseline
  have hckeys : c.keys = g.keys := by
    unfold Dict.keys
    rw [hcentries, List.map_map]
    exact g.map_pairKey_candidate
  -- Both versions have every key of the grid, so every key is common.
  have hcommon : b.keys.filter c.contains = g.keys := by
    rw [hbkeys, List.filter_eq_self]
    intro key hkey
    simpa [Dict.contains, hckeys] using hkey
  have hbsize : b.size = g.keys.length := by
    rw [← hbkeys]
    simp [Dict.size, Dict.keys]
  have hcsize : c.size = g.keys.length := by
    rw [← hckeys]
    simp [Dict.size, Dict.keys]
  have hpairs : (g.sortedKeys.mapM fun key => do
      pure ((← runAt b key), (← runAt c key)) : Py _) = .ok g.pairs := by
    apply ExceptRules.mapM_eq_ok_map
    intro key hkey
    have hmem := g.mem_sortedKeys.mp hkey
    rw [g.runAt_eq_ok hbentries g.map_pairKey_baseline hmem,
      g.runAt_eq_ok hcentries g.map_pairKey_candidate hmem]
    rfl
  have hseries : allSeries g.pairs g.resultsByRun g.keys.length 0 names = .ok g.series := by
    unfold allSeries
    rw [ExceptRules.mapM_eq_ok_map fun name hname => g.evaluatorSeries_eq_ok hname]
    simp [series, observed, Grid.pairs, Function.comp_def, successValue, costValue,
      List.flatMap_def]
  refine ⟨Dict.ofList (g.series.map fun s => (s.metric, s)), ?_, ?_⟩
  · unfold pairedObservations
    simp only [g.names_nodup, not_true_eq_false, if_false, hb, hc, ExceptRules.ok_bind, hcommon,
      hbsize, hcsize, Sorting.length_sorted, Nat.sub_self, Nat.add_zero]
    change (do
      let pairs ← g.sortedKeys.mapM fun key => do
        pure ((← runAt b key), (← runAt c key))
      let series ← allSeries pairs g.resultsByRun g.keys.length 0 names
      pure (Dict.ofList (series.map fun s : PairedSeries => (s.metric, s)))) = _
    rw [hpairs, ExceptRules.ok_bind, hseries]
    rfl
  · unfold Dict.values
    rw [Dict.ofList_entries (by rw [List.map_map]; exact g.nodup_map_metric_series), List.map_map]
    exact List.map_id' g.series

/-- Each series is well formed. -/
theorem wellFormed_series {s : PairedSeries} (hs : s ∈ g.series) : s.WellFormed := by
  have hobserved : ∀ {metric : String} (kind : MetricKind) (observe : Trial → ℚ),
      PyText.isBlank metric = false → (g.observed metric kind observe).WellFormed := by
    intro metric kind observe hmetric
    exact ⟨hmetric, by simp [observed, fullSeries]⟩
  simp only [series, List.mem_append, List.mem_cons, List.mem_flatMap, List.not_mem_nil,
    or_false] at hs
  rcases hs with (rfl | ⟨name, _, rfl | rfl⟩) | rfl | rfl
  · exact hobserved _ _ (by decide)
  · exact hobserved _ _ (passRateMetric_nonblank name)
  · exact hobserved _ _ (meanScoreMetric_nonblank name)
  · exact ⟨show PyText.isBlank "latency_ms.mean" = false by decide, by simp [latencySeries]⟩
  · exact hobserved _ _ (by decide)

/-- The evidence fields of the run: the `i`-th series draws from the seed `seed + i`. -/
def evidenceFields (rt : Runtime) (options : BootstrapOptions) : List MetricEvidenceData :=
  g.series.zipIdx.map fun p => evidenceData rt { options with seed := options.seed + p.2 } p.1

/-- `build_statistical_evidence` on the outcome of a grid. -/
theorem buildStatisticalEvidence_eq_ok (rt : Runtime) {options : BootstrapOptions}
    (hv : options.Valid) :
    ∃ evidence : List MetricEvidence,
      buildStatisticalEvidence rt options experiment g.outcome names = .ok evidence ∧
      evidence.map MetricEvidence.toMetricEvidenceData = g.evidenceFields rt options := by
  obtain ⟨d, hd, hvalues⟩ := g.pairedObservations_eq_ok
  have hseed : ∀ seed, BootstrapOptions.Valid { options with seed } := fun _ =>
    ⟨hv.confidence_pos, hv.confidence_lt_one, hv.resamples_pos⟩
  have hwf : ∀ p ∈ g.series.zipIdx, p.1.WellFormed := fun p hp =>
    g.wellFormed_series (List.fst_mem_of_mem_zipIdx hp)
  unfold buildStatisticalEvidence
  rw [hd, ExceptRules.ok_bind, hvalues]
  apply ExceptRules.exists_mapM_eq_ok
  rintro ⟨s, i⟩ hp
  exact ⟨_, metricEvidence_eq_ok (hseed (options.seed + i)) (hwf _ hp), rfl⟩

end Grid

end EvalOps
