import EvalOps.Api.Diagnostics
import EvalOps.Proofs.Diagnostics
import EvalOps.Proofs.Evidence
import Mathlib.Data.List.ReduceOption

/-!
# `EvalOps.Proofs.Order`: the order of the runs does not matter

The aggregation, the evidence and the diagnosis all read the runs of an outcome through
dictionaries, sorted keys, sums and sorts. Each forgets the order of its input once the keys are
distinct, and `order_of_runs_is_irrelevant` collects the three. The runs that a later request reads
back come in the order of `created_at` and `id`, which is one of the orders.
-/

set_option autoImplicit false

namespace EvalOps

/-- An outcome of distinct runs, at most one for each version, case and repeat, beside their case
results, with a score of every evaluator on every run that succeeded. -/
structure Aligned (names : List String) (outcome : RunOutcome) : Prop where
  length_eq : outcome.runs.length = outcome.caseResults.length
  ids_nodup : (outcome.runs.map EvaluationRun.id).Nodup
  keys_nodup : (outcome.runs.map fun r => (r.systemVersionId, r.caseId, r.repeatIndex)).Nodup
  runId : ∀ t ∈ outcome.runs.zip outcome.caseResults, t.2.runId = t.1.id
  scored : ∀ t ∈ outcome.runs.zip outcome.caseResults, t.1.error = none →
    names ⊆ t.2.scores.map fun s => s.evaluator.text

/-- The second outcome has the runs of the first in some order, and the case results alike. -/
structure Reordered (outcome outcome' : RunOutcome) : Prop where
  length_eq : outcome'.runs.length = outcome'.caseResults.length
  perm : (outcome.runs.zip outcome.caseResults).Perm (outcome'.runs.zip outcome'.caseResults)

/-- The records of an experiment are stored, beside those of other experiments. -/
structure StoredAs (records : EvaluationRecords) (experiment : Experiment) (outcome : RunOutcome) :
    Prop where
  runs : (records.runs.filter fun r => decide (r.experimentId = experiment.id)).Perm outcome.runs
  caseResults : ∀ t ∈ outcome.runs.zip outcome.caseResults,
    records.caseResults.filter (fun cr => decide (cr.runId = t.1.id)) = [t.2]

/-- An outcome whose lists have one length is the outcome of its trials. -/
theorem eq_outcomeOf_zip {outcome : RunOutcome}
    (h : outcome.runs.length = outcome.caseResults.length) :
    outcome = outcomeOf (outcome.runs.zip outcome.caseResults) := by
  unfold outcomeOf
  rw [List.map_fst_zip h.le, List.map_snd_zip h.ge]

/-! ### Aggregation -/

theorem Scored.perm {names : List String} {ts us : List Trial} (h : Scored names ts)
    (hperm : ts.Perm us) : Scored names us where
  ids_nodup := (hperm.map _).nodup_iff.mp h.ids_nodup
  runId := fun t ht => h.runId t (hperm.mem_iff.mpr ht)
  scored := fun t ht => h.scored t (hperm.mem_iff.mpr ht)

/-- The comparisons forget the order of the trials. -/
theorem comparisons_perm (names : List String) {bs bs' cs cs' : List Trial} (hb : bs.Perm bs')
    (hc : cs.Perm cs') : comparisons names bs cs = comparisons names bs' cs' := by
  -- Sums and lengths forget the order, and the percentile sorts.
  have hmean : ∀ observe : Trial → ℚ, ∀ {ts us : List Trial}, ts.Perm us →
      meanOf observe ts = meanOf observe us := fun observe _ _ h => mean_perm (h.map observe)
  have hlatencies : ∀ {ts us : List Trial}, ts.Perm us →
      (successfulLatencies (ts.map Prod.fst)).Perm (successfulLatencies (us.map Prod.fst)) :=
    fun h => ((h.map Prod.fst).filter _).map _
  have hlatencyMean : ∀ {ts us : List Trial}, ts.Perm us → latencyMeanOf ts = latencyMeanOf us := by
    intro ts us h
    unfold latencyMeanOf latencyMean
    simp only [(hlatencies h).sum_eq, (hlatencies h).length_eq, List.isEmpty_iff_length_eq_zero]
  have hlatencyP95 : ∀ {ts us : List Trial}, ts.Perm us → latencyP95Of ts = latencyP95Of us := by
    intro ts us h
    unfold latencyP95Of latencyP95Value
    rw [Sorting.sorted_congr (hlatencies h)]
  have hcost : ∀ {ts us : List Trial}, ts.Perm us → costTotalOf ts = costTotalOf us :=
    fun h => (((h.map Prod.fst).map _).sum_eq)
  unfold comparisons comparison
  simp only [hmean _ hb, hmean _ hc, hlatencyMean hb, hlatencyMean hc, hlatencyP95 hb,
    hlatencyP95 hc, hcost hb, hcost hc]

/-- Aggregation of reordered trials returns what it returned. -/
theorem aggregateResults_of_perm {experiment : Experiment} {names : List String}
    {ts us : List Trial} (h : Scored names ts) (hperm : ts.Perm us) {stamp : Stamp}
    {result : EvaluationResult}
    (hresult : aggregateResults experiment (outcomeOf ts) names stamp = .ok result) :
    aggregateResults experiment (outcomeOf us) names stamp = .ok result := by
  have hvalid : validateOutcome experiment (outcomeOf ts) names = .ok () := by
    obtain ⟨_, hvalid, _⟩ := ExceptRules.bind_eq_ok.mp hresult
    exact hvalid
  -- The checks look at each trial by itself.
  have hvalid' : validateOutcome experiment (outcomeOf us) names = .ok () := by
    obtain ⟨hnames, hruns⟩ := h.validateOutcome_eq_ok_iff.mp hvalid
    exact (h.perm hperm).validateOutcome_eq_ok_iff.mpr
      ⟨hnames, fun t ht => hruns t (hperm.mem_iff.mpr ht)⟩
  -- A version without runs raises, so both versions have trials.
  have hne : ∀ versionId ∈ [experiment.baselineVersionId, experiment.candidateVersionId],
      trialsOf versionId ts ≠ [] := by
    unfold aggregateResults at hresult
    simp only [hvalid, ExceptRules.ok_bind, filter_runs_outcomeOf] at hresult
    intro versionId hversion hnil
    rcases List.mem_pair.mp hversion with rfl | rfl
    · simp [hnil] at hresult
    · rw [hnil] at hresult
      by_cases hb : (trialsOf experiment.baselineVersionId ts) = []
      · simp [hb] at hresult
      · simp [hb] at hresult
  have hpermOf : ∀ versionId, (trialsOf versionId ts).Perm (trialsOf versionId us) :=
    fun versionId => hperm.filter _
  have hne' : ∀ versionId ∈ [experiment.baselineVersionId, experiment.candidateVersionId],
      trialsOf versionId us ≠ [] := fun versionId hversion hnil =>
    hne versionId hversion (List.perm_nil.mp (hnil ▸ hpermOf versionId))
  rw [h.aggregateResults_eq hvalid (hne _ (by simp)) (hne _ (by simp))] at hresult
  rw [(h.perm hperm).aggregateResults_eq hvalid' (hne' _ (by simp)) (hne' _ (by simp)),
    ← comparisons_perm names (hpermOf _) (hpermOf _)]
  exact hresult

/-! ### Dictionaries of the runs and of the case results -/

/-- Reordered runs with distinct keys are keyed alike. -/
theorem runsByKey_perm {runs runs' : List EvaluationRun} (hperm : runs.Perm runs')
    {versionId : EntityId} (h : KeysDistinct runs versionId) :
    ∃ d d', runsByKey runs versionId = .ok d ∧ runsByKey runs' versionId = .ok d' ∧
      d.entries.Perm d'.entries := by
  have hfilter := hperm.filter fun r => decide (r.systemVersionId = versionId)
  obtain ⟨d, hd⟩ := runsByKey_isOk_iff.mpr h
  obtain ⟨d', hd'⟩ := runsByKey_isOk_iff.mpr ((hfilter.map pairKey).nodup_iff.mp h)
  refine ⟨d, d', hd, hd', ?_⟩
  -- With distinct keys no run overwrites another, so the entries are the runs as they come.
  rw [foldlM_addRun_entries hd, foldlM_addRun_entries hd']
  exact hfilter.map _

/-- The shared keys of reordered dictionaries, in order. -/
theorem matchedKeys_perm {bs bs' cs cs' : Dict PairKey EvaluationRun}
    (hb : bs.entries.Perm bs'.entries) (hc : cs.entries.Perm cs'.entries) :
    matchedKeys bs cs = matchedKeys bs' cs' := by
  have hcontains : cs.contains = cs'.contains := by
    funext key
    rw [Bool.eq_iff_iff, Dict.contains_iff, Dict.contains_iff, Dict.get?_eq_of_perm hc]
  -- The shared keys are sorted, so their order is not that of the insertion.
  unfold matchedKeys
  rw [hcontains]
  exact Sorting.sorted_congr ((hb.map Prod.fst).filter _)

/-- The case results of reordered trials are found alike. -/
theorem Scored.get?_perm {names : List String} {ts us : List Trial} (h : Scored names ts)
    (hperm : ts.Perm us) (id : EntityId) :
    (caseResultsByRun ts).get? id = (caseResultsByRun us).get? id := by
  apply Dict.get?_ofList_perm ((hperm.map Prod.snd).map _)
  -- The lookup depends on the order only where two case results name one run.
  rw [List.map_map]
  exact h.map_runId ▸ h.ids_nodup

/-! ### Evidence -/

section

variable {d d' : Dict EntityId CaseResult} (h : ∀ id, d.get? id = d'.get? id)

include h

theorem scoreFor_congr (run : EvaluationRun) (name : String) :
    scoreFor run d name = scoreFor run d' name := by
  unfold scoreFor
  rw [h]

/-- The series read the case results through lookups only. -/
theorem allSeries_congr (pairs : List (EvaluationRun × EvaluationRun)) (matched unmatched : ℕ)
    (names : List String) :
    allSeries pairs d matched unmatched names = allSeries pairs d' matched unmatched names := by
  have hevaluator : evaluatorSeries pairs d matched unmatched
      = evaluatorSeries pairs d' matched unmatched := by
    funext name
    unfold evaluatorSeries passObs scoreObs
    simp only [scoreFor_congr h]
  unfold allSeries
  rw [hevaluator]

/-- The scores of a run are read through a lookup. -/
theorem scoreMap_congr (run : EvaluationRun) : scoreMap run d = scoreMap run d' := by
  unfold scoreMap
  rw [h]

end

/-- The observations of reordered trials. -/
theorem pairedObservations_perm {experiment : Experiment} {names evaluators : List String}
    {ts us : List Trial} (h : Scored evaluators ts) (hperm : ts.Perm us)
    (hkeys : ∀ versionId, KeysDistinct (outcomeOf ts).runs versionId) :
    pairedObservations experiment (outcomeOf ts) names
      = pairedObservations experiment (outcomeOf us) names := by
  obtain ⟨bs, bs', hb, hb', hbperm⟩ :=
    runsByKey_perm (hperm.map Prod.fst) (hkeys experiment.baselineVersionId)
  obtain ⟨cs, cs', hc, hc', hcperm⟩ :=
    runsByKey_perm (hperm.map Prod.fst) (hkeys experiment.candidateVersionId)
  have hcommon := matchedKeys_perm hbperm hcperm
  have hsize : bs.size = bs'.size ∧ cs.size = cs'.size := ⟨hbperm.length_eq, hcperm.length_eq⟩
  -- Everything below the two dictionaries is a lookup by key, over the same sorted keys.
  have hrunAt : ∀ {e e' : Dict PairKey EvaluationRun}, e.entries.Perm e'.entries →
      runAt e = runAt e' := by
    intro e e' he
    funext key
    unfold runAt
    rw [Dict.get?_eq_of_perm he]
  unfold matchedKeys at hcommon
  have hallSeries := fun pairs matched unmatched names =>
    allSeries_congr (h.get?_perm hperm) pairs matched unmatched names
  unfold caseResultsByRun at hallSeries
  unfold pairedObservations
  dsimp only
  rw [show runsByKey (outcomeOf ts).runs experiment.baselineVersionId = .ok bs from hb,
    show runsByKey (outcomeOf us).runs experiment.baselineVersionId = .ok bs' from hb',
    show runsByKey (outcomeOf ts).runs experiment.candidateVersionId = .ok cs from hc,
    show runsByKey (outcomeOf us).runs experiment.candidateVersionId = .ok cs' from hc']
  simp only [ExceptRules.ok_bind, hcommon, hsize, hrunAt hbperm, hrunAt hcperm, hallSeries]

/-! ### The diagnosis -/

/-- The diagnosis of reordered trials. -/
theorem diagnoseRegressions_perm {experiment : Experiment} {names : List String}
    {ts us : List Trial} (h : Scored names ts) (hperm : ts.Perm us)
    (hkeys : ∀ versionId, KeysDistinct (outcomeOf ts).runs versionId) (threshold : ℚ) :
    diagnoseRegressions experiment (outcomeOf ts) threshold
      = diagnoseRegressions experiment (outcomeOf us) threshold := by
  obtain ⟨bs, bs', hb, hb', hbperm⟩ :=
    runsByKey_perm (hperm.map Prod.fst) (hkeys experiment.baselineVersionId)
  obtain ⟨cs, cs', hc, hc', hcperm⟩ :=
    runsByKey_perm (hperm.map Prod.fst) (hkeys experiment.candidateVersionId)
  have hscoreMap : ∀ run, scoreMap run (outcomeOf ts).resultsByRun
      = scoreMap run (outcomeOf us).resultsByRun := scoreMap_congr (h.get?_perm hperm)
  have hfindingsOf : findingsOf (outcomeOf ts) threshold = findingsOf (outcomeOf us) threshold := by
    funext key b c
    unfold findingsOf sharedEvaluators evaluatorFindingsOf RunOutcome.scoredBy
    simp only [hscoreMap]
  -- The findings are listed by sorted key, and each reads its two runs through a lookup.
  have hfindings : allFindings (outcomeOf ts) threshold bs cs
      = allFindings (outcomeOf us) threshold bs' cs' := by
    unfold allFindings
    rw [matchedKeys_perm hbperm hcperm, hfindingsOf]
    simp only [Dict.get?_eq_of_perm hbperm, Dict.get?_eq_of_perm hcperm]
  rw [diagnoseRegressions_eq hb hc, diagnoseRegressions_eq hb' hc', hfindings,
    matchedKeys_perm hbperm hcperm]

/-! ### Outcomes -/

namespace Aligned

variable {names : List String} {outcome : RunOutcome} (h : Aligned names outcome)

include h

/-- The trials of an aligned outcome are scored. -/
theorem scored_zip : Scored names (outcome.runs.zip outcome.caseResults) where
  ids_nodup := by
    have hids := h.ids_nodup
    rw [eq_outcomeOf_zip h.length_eq, outcomeOf, List.map_map] at hids
    exact hids
  runId := h.runId
  scored := h.scored

/-- No version has two runs for one case and repeat. -/
theorem keysDistinct (versionId : EntityId) : KeysDistinct outcome.runs versionId := by
  unfold KeysDistinct
  have hsub : (outcome.runs.filter fun r => decide (r.systemVersionId = versionId)).Sublist
      outcome.runs := List.filter_sublist
  have hnodup := h.keys_nodup.sublist (hsub.map _)
  -- Within one version the key determines the version, the case and the repeat.
  refine List.Nodup.of_map (fun key => (versionId, (ofLex key).1, (ofLex key).2)) ?_
  rw [List.map_map]
  convert hnodup using 1
  apply List.map_congr_left
  intro r hr
  have hversion : r.systemVersionId = versionId := by simpa using (List.mem_filter.mp hr).2
  simp [pairKey, hversion]

end Aligned

/-- The outcome that the route rebuilds from stored records. -/
theorem outcome_of_storedAs {records : EvaluationRecords} {experiment : Experiment}
    {outcome : RunOutcome} (hlength : outcome.runs.length = outcome.caseResults.length)
    (h : StoredAs records experiment outcome) :
    ∃ us, (outcome.runs.zip outcome.caseResults).Perm us ∧
      records.outcome experiment.id = .ok (outcomeOf us) := by
  have hruns : ((outcome.runs.zip outcome.caseResults).map Prod.fst).Perm
      (records.listForExperiment experiment.id) := by
    rw [List.map_fst_zip hlength.le]
    exact h.runs.symm.trans (Sorting.sortedOn_perm _ _).symm
  -- The stored runs are those of a reordering of the trials.
  have hreorder : Relation.Comp (fun runs us => runs = us.map Prod.fst) List.Perm
      (records.listForExperiment experiment.id) (outcome.runs.zip outcome.caseResults) := by
    rw [List.eq_map_comp_perm]
    exact hruns.symm
  obtain ⟨us, hmap, hperm⟩ := hreorder
  refine ⟨us, hperm.symm, ?_⟩
  have hcaseResults : (us.map Prod.fst).mapM (fun run => records.getCaseResultForRun run.id)
      = .ok (us.map fun t => some t.2) := by
    rw [List.mapM_map]
    apply ExceptRules.mapM_eq_ok_map
    intro t ht
    change records.getCaseResultForRun t.1.id = _
    unfold EvaluationRecords.getCaseResultForRun
    rw [h.caseResults t (hperm.mem_iff.mp ht)]
    rfl
  unfold EvaluationRecords.outcome
  dsimp only
  rw [hmap, hcaseResults, ExceptRules.ok_bind,
    show us.map (fun t => some t.2) = (us.map Prod.snd).map some from (List.map_map ..).symm]
  have hreduce : ∀ xs : List CaseResult, (xs.map some).reduceOption = xs := by
    intro xs
    induction xs with
    | nil => rfl
    | cons x xs ih => rw [List.map_cons, List.reduceOption_cons_of_some, ih]
  rw [hreduce]
  rfl

/-- The metrics, the evidence and the diagnosis of an aligned outcome do not depend on the order of
its runs. The diagnosis of the stored experiment, whose runs are read back by time and id, is the
diagnosis of the outcome in memory. -/
theorem order_of_runs_is_irrelevant {names : List String} {outcome outcome' : RunOutcome}
    (h : Aligned names outcome) (hreordered : Reordered outcome outcome')
    (experiment : Experiment) :
    (∀ stamp result, aggregateResults experiment outcome names stamp = .ok result ↔
      aggregateResults experiment outcome' names stamp = .ok result) ∧
    (∀ rt options, buildStatisticalEvidence rt options experiment outcome names
      = buildStatisticalEvidence rt options experiment outcome' names) ∧
    (∀ threshold, diagnoseRegressions experiment outcome threshold
      = diagnoseRegressions experiment outcome' threshold) ∧
    ∀ records, StoredAs records experiment outcome →
      getExperimentDiagnostics records experiment
        = diagnoseRegressions experiment outcome minScoreDrop := by
  have hscored := h.scored_zip
  have hkeys : ∀ versionId, KeysDistinct
      (outcomeOf (outcome.runs.zip outcome.caseResults)).runs versionId := by
    rw [← eq_outcomeOf_zip h.length_eq]
    exact h.keysDistinct
  refine ⟨?_, ?_, ?_, ?_⟩
  · intro stamp result
    rw [eq_outcomeOf_zip h.length_eq, eq_outcomeOf_zip hreordered.length_eq]
    exact ⟨aggregateResults_of_perm hscored hreordered.perm,
      aggregateResults_of_perm (hscored.perm hreordered.perm) hreordered.perm.symm⟩
  · intro rt options
    rw [eq_outcomeOf_zip h.length_eq, eq_outcomeOf_zip hreordered.length_eq]
    unfold buildStatisticalEvidence
    rw [pairedObservations_perm hscored hreordered.perm hkeys]
  · intro threshold
    rw [eq_outcomeOf_zip h.length_eq, eq_outcomeOf_zip hreordered.length_eq]
    exact diagnoseRegressions_perm hscored hreordered.perm hkeys threshold
  · -- The stored runs come back in the order of time and id, which is one more permutation.
    intro records hstored
    obtain ⟨us, hperm, hrecords⟩ := outcome_of_storedAs h.length_eq hstored
    unfold getExperimentDiagnostics
    rw [hrecords, ExceptRules.ok_bind, ← diagnoseRegressions_perm hscored hperm hkeys,
      ← eq_outcomeOf_zip h.length_eq]

/-- The candidate's run before the baseline's. -/
def swappedOutcome : RunOutcome := ⟨judgedOutcome.runs.reverse, judgedOutcome.caseResults.reverse⟩

/-- Two judged runs in either order. -/
theorem order_of_runs_is_irrelevant_swapped :
    (∀ stamp result,
      aggregateResults (offlineExperiment 1 (le_refl 1)) judgedOutcome [(offlineId 0).text] stamp
          = .ok result ↔
        aggregateResults (offlineExperiment 1 (le_refl 1)) swappedOutcome [(offlineId 0).text] stamp
          = .ok result) ∧
    (∀ rt options,
      buildStatisticalEvidence rt options (offlineExperiment 1 (le_refl 1)) judgedOutcome
          [(offlineId 0).text]
        = buildStatisticalEvidence rt options (offlineExperiment 1 (le_refl 1)) swappedOutcome
          [(offlineId 0).text]) ∧
    (∀ threshold,
      diagnoseRegressions (offlineExperiment 1 (le_refl 1)) judgedOutcome threshold
        = diagnoseRegressions (offlineExperiment 1 (le_refl 1)) swappedOutcome threshold) ∧
    ∀ records, StoredAs records (offlineExperiment 1 (le_refl 1)) judgedOutcome →
      getExperimentDiagnostics records (offlineExperiment 1 (le_refl 1))
        = diagnoseRegressions (offlineExperiment 1 (le_refl 1)) judgedOutcome minScoreDrop := by
  have hne : offlineId 0 ≠ offlineId 1 := fun h => absurd (offlineId_injective h) (by decide)
  have haligned : Aligned [(offlineId 0).text] judgedOutcome := by
    constructor
    · rfl
    · simp [judgedOutcome, judgedRun, hne]
    · simp [judgedOutcome, judgedRun, hne]
    · simp [judgedOutcome, judgedRun, judgedResult]
    · simp [judgedOutcome, judgedResult, judgedScore]
  have hreordered : Reordered judgedOutcome swappedOutcome := ⟨rfl, List.Perm.swap _ _ _⟩
  exact order_of_runs_is_irrelevant haligned hreordered _

end EvalOps
