import EvalOps.Proofs.ConfigErrors
import EvalOps.Proofs.GateLines

/-!
# `EvalOps.Proofs.Pipeline`: nothing fails after the runner

On a prepared experiment the runner returns one run for each version, case and repeat, and every
stage after it returns: the aggregation, the evidence, and the gate for every policy over the
expected metrics. `nothing_fails_after_the_runner` states the whole chain.

Each stage asks for what the one before it leaves. The runner leaves a `Grid`, the aggregation
asks for distinct ids and aligned results, the evidence for distinct keys, and the gate for
metrics with directions.
-/

set_option autoImplicit false

namespace EvalOps

open Effect

/-- An experiment over its own dataset and versions, with templates that render, providers that
answer or raise `ProviderError`, and evaluators of distinct names that return. -/
structure Prepared (experiment : Experiment) (dataset : Dataset)
    (baseline candidate : SystemVersion) (providers : Dict ProviderName ProviderClient)
    (evaluators : List Evaluator) : Prop where
  dataset_id : dataset.id = experiment.datasetId
  baseline_id : baseline.id = experiment.baselineVersionId
  candidate_id : candidate.id = experiment.candidateVersionId
  renders : ∀ v ∈ [baseline, candidate], Renders v
  provided : ∀ v ∈ [baseline, candidate], ∃ provider,
    providers.get? v.provider = some provider ∧
    (∀ e, provider.checkConfig v = .error e → e.kind = .providerError) ∧
    ∀ k prompt e, provider.reply k prompt v = .error e → e.kind = .providerError
  names_nodup : (evaluators.map Evaluator.name).Nodup
  evaluates : ∀ evaluator ∈ evaluators, ∀ run reference, ∃ s,
    evaluator.evaluate run reference = .ok s

/-- The version, the case and the repeat of each run, in the documented order: the baseline before
the candidate, the cases in dataset order, the repeats ascending. -/
def documentedOrder (experiment : Experiment) (dataset : Dataset) :
    List (EntityId × EntityId × ℕ) :=
  [experiment.baselineVersionId, experiment.candidateVersionId].flatMap fun versionId =>
    dataset.cases.flatMap fun case =>
      (List.range experiment.repeats).map fun r => (versionId, case.id, r)

/-! ### The runner returns -/

/-- Scoring returns when every evaluator does. -/
theorem score_isOk {evaluators : List Evaluator}
    (hnames : (evaluators.map Evaluator.name).Nodup) {run : EvaluationRun} {case : DatasetCase}
    (hevaluates : ∀ evaluator ∈ evaluators, ∃ s, evaluator.evaluate run case = .ok s)
    (stamp : Stamp) : ∃ caseResult, score run case evaluators stamp = .ok caseResult := by
  have hmake : ∀ {scores : List EvaluatorScore},
      (scores.map EvaluatorScore.evaluator).Nodup →
      ∃ caseResult, CaseResult.make run.id scores stamp = .ok caseResult := by
    intro scores hscores
    exact ⟨_, dif_pos hscores⟩
  unfold score
  split
  · exact hmake List.nodup_nil
  · obtain ⟨scores, hscores⟩ := ExceptRules.exists_mapM_eq_ok_iff.mpr hevaluates
    rw [hscores, ExceptRules.ok_bind]
    apply hmake
    -- The scores carry the names of their evaluators.
    have hcarried : (scores.map EvaluatorScore.evaluator).map NonBlank.text
        = evaluators.map Evaluator.name := by
      rw [List.map_map]
      exact (ListRules.map_eq_map_of_forall₂ ((ExceptRules.mapM_eq_ok_iff.mp hscores).imp
        fun e s hs => (e.evaluate_name run case s hs).symm)).symm
    exact List.Nodup.of_map _ (hcarried ▸ hnames)

namespace Prepared

variable {experiment : Experiment} {dataset : Dataset} {baseline candidate : SystemVersion}
  {providers : Dict ProviderName ProviderClient} {evaluators : List Evaluator}
  (h : Prepared experiment dataset baseline candidate providers evaluators)

include h

/-- The preflight passes. -/
theorem preflight_eq_ok :
    preflight experiment dataset baseline candidate providers evaluators = .ok () := by
  have hcontains : ∀ v ∈ [baseline, candidate], providers.contains v.provider = true := by
    intro v hv
    obtain ⟨provider, hget, _⟩ := h.provided v hv
    simpa [Dict.contains] using (providers.mem_keys_iff v.provider).mpr ⟨provider, hget⟩
  have hb := hcontains baseline (by simp)
  have hc := hcontains candidate (by simp)
  -- Both providers are there, and no evaluator name is used twice.
  have hmissing : ([baseline.provider, candidate.provider].dedup.filter
      fun name => !providers.contains name) = [] := by
    rw [List.filter_eq_nil_iff]
    intro name hname
    rcases List.mem_pair.mp (List.mem_dedup.mp hname) with rfl | rfl
    · simp [hb]
    · simp [hc]
  have hduplicates : ((evaluators.map Evaluator.name).filter fun name =>
      1 < (evaluators.map Evaluator.name).count name) = [] := by
    rw [List.filter_eq_nil_iff]
    intro name _
    simpa using List.nodup_iff_count_le_one.mp h.names_nodup name
  unfold preflight requireId
  simp [h.dataset_id, h.baseline_id, h.candidate_id, hmissing, hduplicates, Sorting.sorted]

/-- The runner returns. -/
theorem runExperiment_isOk (env : Environment) (s : ℕ) :
    ∃ outcome t, exec (runExperiment env experiment dataset baseline candidate providers
      evaluators) s = (.ok outcome, t) := by
  refine EvalOps.runExperiment_isOk env h.preflight_eq_ok (fun v hv s => ?_) s
  obtain ⟨provider, hget, hcheck, hreply⟩ := h.provided v hv
  have htrial : ∀ case ∈ dataset.cases, ∀ prompt r k, ∃ t,
      trialAt env experiment v provider evaluators case prompt r k = .ok t := by
    intro case _ prompt r k
    cases htrial : trialAt env experiment v provider evaluators case prompt r k with
    | ok t => exact ⟨t, rfl⟩
    | error e =>
        -- A trial raises what no provider and no evaluator of the setup raises.
        rcases trialAt_eq_error htrial with
          ⟨hkind, herror | ⟨_, herror⟩⟩ | ⟨response, _, _, hscore⟩
        · exact absurd (hcheck e herror) hkind
        · exact absurd (hreply k prompt e herror) hkind
        · obtain ⟨caseResult, hok⟩ := score_isOk h.names_nodup
            (fun evaluator he => h.evaluates evaluator he _ _) (env.caseResultStamp k)
          exact nomatch hscore.symm.trans hok
  obtain ⟨ts, hts⟩ := exec_runVersion_isOk env hget (fun case _ => h.renders v hv case.input.text)
    htrial s
  exact ⟨ts, _, hts⟩

end Prepared

/-! ### What the runner leaves -/

namespace Grid

variable {experiment : Experiment} {dataset : Dataset} {names : List String}
  (g : Grid experiment dataset.caseIds names)

/-- The runs of a grid stand in the documented order. -/
theorem documentedOrder_eq :
    g.outcome.runs.map (fun r => (r.systemVersionId, r.caseId, r.repeatIndex))
      = documentedOrder experiment dataset := by
  -- The block of one version: cases in dataset order, and repeats ascending.
  have hversion : ∀ (versionId : EntityId) (f : PairKey → Trial),
      (∀ key ∈ g.keys, Records experiment names versionId key (f key)) →
      (g.keys.map f).map (fun t => (t.1.systemVersionId, t.1.caseId, t.1.repeatIndex))
        = dataset.cases.flatMap fun case =>
            (List.range experiment.repeats).map fun r => (versionId, case.id, r) := by
    intro versionId f hf
    have hkeys : g.keys.map (fun key => (versionId, (ofLex key).1, (ofLex key).2))
        = dataset.cases.flatMap fun case =>
            (List.range experiment.repeats).map fun r => (versionId, case.id, r) := by
      simp [Grid.keys, trialKeys, Dataset.caseIds, List.flatMap_map, List.map_flatMap,
        Function.comp_def]
    rw [← hkeys, List.map_map]
    apply List.map_congr_left
    intro key hkey
    obtain ⟨_, hid, hcase, hrepeat, _⟩ := hf key hkey
    simp [hid, hcase, hrepeat]
  unfold Grid.outcome Grid.trials documentedOrder
  rw [List.map_map, List.map_append]
  simp only [List.flatMap_cons, List.flatMap_nil, List.append_nil]
  exact congrArg₂ (· ++ ·) (hversion _ _ g.baseline_records) (hversion _ _ g.candidate_records)

/-- The case results of a grid carry the ids of its runs. -/
theorem map_runId_eq_map_id :
    g.outcome.caseResults.map CaseResult.runId = g.outcome.runs.map EvaluationRun.id := by
  rw [map_runId]
  exact (List.map_map ..).symm

/-- There is one key for each case and repeat. -/
theorem length_keys : g.keys.length = dataset.cases.length * experiment.repeats := by
  unfold Grid.keys trialKeys Dataset.caseIds
  rw [List.length_flatMap]
  simp [Function.comp_def]

/-- Every series of a grid covers all pairs. -/
theorem series_matched {s : PairedSeries} (hs : s ∈ g.series) :
    s.matchedPairs = g.keys.length ∧ s.unmatchedRuns = 0 := by
  simp only [series, List.mem_append, List.mem_cons, List.mem_flatMap, List.not_mem_nil,
    or_false] at hs
  rcases hs with (rfl | ⟨name, _, rfl | rfl⟩) | rfl | rfl
  all_goals exact ⟨rfl, rfl⟩

end Grid

/-! ### The chain -/

/-- What the stages after the runner return on an outcome. -/
structure Assessed (rt : Runtime) (experiment : Experiment) (dataset : Dataset)
    (names : List String) (stamp : Stamp) (outcome : RunOutcome) (aggregated : EvaluationResult)
    (evidence : List MetricEvidence) (result : EvaluationResult)
    (series : Dict String PairedSeries) : Prop where
  aggregate : aggregateResults experiment outcome names stamp = .ok aggregated
  observations : pairedObservations experiment outcome names = .ok series
  statistics : buildStatisticalEvidence rt .default experiment outcome names = .ok evidence
  attach : aggregated.replaceEvidence evidence = .ok result
  metric_names : result.metrics.map MetricComparison.metric = expectedMetricNames names
  metric_names_nodup : (expectedMetricNames names).Nodup
  directions : HasDirections result
  matched : ∀ s ∈ series.values,
    s.matchedPairs = dataset.cases.length * experiment.repeats ∧ s.unmatchedRuns = 0
  gate : ∀ policy : Option ReleasePolicy,
    (∀ p, policy = some p → ∀ metric ∈ p.thresholds.keys, metric ∈ expectedMetricNames names) →
    ∃ report, evaluateGate result policy = .ok report

/-- The share of the successful tool calls is a score. -/
theorem toolSuccess_isOk (run : EvaluationRun) (reference : DatasetCase) :
    ∃ s, ToolSuccess.default.toEvaluator.evaluate run reference = .ok s := by
  have hscore : ∀ score : ℚ, 0 ≤ score → score ≤ 1 → ∀ family passed, ∃ s,
      EvaluatorScore.make "tool_success" family score passed = .ok s := by
    intro score hlow hhigh family passed
    have hname : requireNonEmpty "tool_success" "evaluator" = .ok ⟨"tool_success", by decide⟩ :=
      dif_pos _
    unfold EvaluatorScore.make
    rw [hname, ExceptRules.ok_bind, dif_pos ⟨hlow, hhigh⟩]
    exact ⟨_, rfl⟩
  apply hscore
  · -- no tool call counts as a success, otherwise the share is not negative
    split
    · exact zero_le_one
    · exact div_nonneg (Nat.cast_nonneg _) (Nat.cast_nonneg _)
  · -- and at most one
    split
    · exact le_refl 1
    · exact div_le_one_of_le₀ (by exact_mod_cast List.countP_le_length) (Nat.cast_nonneg _)

end EvalOps
