import EvalOps.Proofs.Assess
import EvalOps.Proofs.Returns

/-!
# `EvalOps.Proofs.CaseIds`: what a renaming of the cases changes

The series of a metric list the paired observations in the order of the sorted keys, and the
bootstrap draws positions. A renaming of the cases permutes the order, so the interval stays the
same exactly when the differences do: `renaming_keeps_assessment_iff` states that an assessment
does not depend on the names of the cases, for any generator, exactly when the differences of any
two cases can trade places.
-/

set_option autoImplicit false

namespace EvalOps

/-! ### Renaming -/

/-- The run, with its case renamed. -/
def renameRun (ρ : EntityId → EntityId) (run : EvaluationRun) : EvaluationRun :=
  { run with caseId := ρ run.caseId }

/-- The outcome, with its cases renamed in every run. -/
def RunOutcome.rename (ρ : EntityId → EntityId) (outcome : RunOutcome) : RunOutcome :=
  ⟨outcome.runs.map (renameRun ρ), outcome.caseResults⟩

/-- The trial, with its case renamed. -/
def renameTrial (ρ : EntityId → EntityId) (t : Trial) : Trial := (renameRun ρ t.1, t.2)

/-- The key, with its case renamed. -/
def renameKey (ρ : EntityId → EntityId) (key : PairKey) : PairKey :=
  toLex (ρ (ofLex key).1, (ofLex key).2)

theorem trialKeys_map (ρ : EntityId → EntityId) (caseIds : List EntityId) (repeats : ℕ) :
    trialKeys (caseIds.map ρ) repeats = (trialKeys caseIds repeats).map (renameKey ρ) := by
  unfold trialKeys
  rw [List.flatMap_map, List.map_flatMap]
  simp only [List.map_map]
  rfl

/-- The renaming keeps the cases apart. -/
def CasesApart (caseIds : List EntityId) (ρ : EntityId → EntityId) : Prop :=
  Set.InjOn ρ {c | c ∈ caseIds}

/-- A way back from the new names. -/
noncomputable def restore (caseIds : List EntityId) (ρ : EntityId → EntityId) :
    EntityId → EntityId := Function.invFunOn ρ {c | c ∈ caseIds}

theorem restore_apply {caseIds : List EntityId} {ρ : EntityId → EntityId}
    (hρ : CasesApart caseIds ρ) {c : EntityId} (hc : c ∈ caseIds) :
    restore caseIds ρ (ρ c) = c :=
  hρ.leftInvOn_invFunOn hc

/-! ### Observations -/

/-- One metric of the evidence: what it observes of a trial, and which pairs it keeps. -/
structure Observation where
  metric : String
  kind : MetricKind
  observe : Trial → ℚ
  keeps : Trial → Trial → Bool

/-- An observation to which every pair contributes. -/
def Observation.full (metric : String) (kind : MetricKind) (observe : Trial → ℚ) : Observation :=
  ⟨metric, kind, observe, fun _ _ => true⟩

/-- The latency, of pairs that succeeded on both sides. -/
def latencyObservation : Observation where
  metric := "latency_ms.mean"
  kind := .continuous
  observe := fun t => t.1.usage.latencyMs
  keeps := fun b c => b.1.error.isNone && c.1.error.isNone

/-- The metrics that have evidence. -/
def observations (names : List String) : List Observation :=
  .full "success_rate" .binary successValue ::
    (names.flatMap fun name =>
      [.full (passRateMetric name) .binary (passValue name),
       .full (meanScoreMetric name) .continuous (scoreValue name)]) ++
    [latencyObservation, .full "cost_usd.mean" .continuous Grid.costValue]

/-- The trials of one version on one case, in the order of the repeats. -/
def caseTrials (outcome : RunOutcome) (versionId caseId : EntityId) : List Trial :=
  (outcome.runs.zip outcome.caseResults).filter fun t =>
    decide (t.1.systemVersionId = versionId ∧ t.1.caseId = caseId)

/-- The paired differences of one metric on one case. -/
def caseDifferences (experiment : Experiment) (outcome : RunOutcome) (o : Observation)
    (caseId : EntityId) : List ℚ :=
  (((caseTrials outcome experiment.baselineVersionId caseId).zip
    (caseTrials outcome experiment.candidateVersionId caseId)).filter
      fun p => o.keeps p.1 p.2).map fun p => o.observe p.2 - o.observe p.1

/-- The differences of any two cases can trade places, in every metric with enough pairs for an
interval. -/
def CasesCommute (experiment : Experiment) (caseIds : List EntityId) (names : List String)
    (outcome : RunOutcome) : Prop :=
  ∀ o ∈ observations names,
    minPairsForCi ≤ (caseIds.flatMap (caseDifferences experiment outcome o)).length →
    ∀ c ∈ caseIds, ∀ c' ∈ caseIds,
      caseDifferences experiment outcome o c ++ caseDifferences experiment outcome o c'
        = caseDifferences experiment outcome o c' ++ caseDifferences experiment outcome o c

namespace Grid

variable {experiment : Experiment} {caseIds : List EntityId} {names : List String}
  (g : Grid experiment caseIds names)

/-- The keys at which an observation keeps the pair. -/
def keptKeys (o : Observation) (keys : List PairKey) : List PairKey :=
  keys.filter fun key => o.keeps (g.baseline key) (g.candidate key)

/-- The series of an observation that lists the pairs in the order of `keys`. -/
def seriesOf (keys : List PairKey) (o : Observation) : PairedSeries where
  metric := o.metric
  kind := o.kind
  baseline := (g.keptKeys o keys).map fun key => o.observe (g.baseline key)
  candidate := (g.keptKeys o keys).map fun key => o.observe (g.candidate key)
  matchedPairs := g.keys.length
  comparablePairs := (g.keptKeys o keys).length
  droppedProviderFailures := g.keys.length - (g.keptKeys o keys).length
  unmatchedRuns := 0

/-- The differences of an observation, in the order of `keys`. -/
def differencesOf (keys : List PairKey) (o : Observation) : List ℚ :=
  (g.keptKeys o keys).map fun key => o.observe (g.candidate key) - o.observe (g.baseline key)

/-- The series of the run are those of the observations, in the order of the sorted keys. -/
theorem series_eq_map : g.series = (observations names).map (g.seriesOf g.sortedKeys) := by
  -- All series but the latency keep every pair.
  have hfull : ∀ metric kind observe,
      g.observed metric kind observe
        = g.seriesOf g.sortedKeys (.full metric kind observe) := by
    intro metric kind observe
    have hkept : g.keptKeys (.full metric kind observe) g.sortedKeys = g.sortedKeys :=
      List.filter_eq_self.mpr fun _ _ => rfl
    unfold seriesOf observed fullSeries
    rw [hkept, g.length_sortedKeys, Nat.sub_self]
    rfl
  have hlatency : latencySeries g.pairs g.keys.length 0
      = g.seriesOf g.sortedKeys latencyObservation := by
    unfold latencySeries seriesOf keptKeys Grid.pairs latencyObservation
    simp only [List.filter_map, List.map_map, List.length_map, Function.comp_def]
  unfold series observations
  rw [hlatency]
  simp only [hfull, List.map_append, List.map_cons, List.map_nil, List.map_flatMap]

theorem differences_seriesOf (keys : List PairKey) (o : Observation) :
    differences (g.seriesOf keys o).baseline (g.seriesOf keys o).candidate
      = g.differencesOf keys o := by
  unfold differences seriesOf differencesOf
  dsimp only
  rw [List.zip_map', List.map_map]
  rfl

end Grid

/-! ### Cases in order -/

theorem trialKeys_perm {σ τ : List EntityId} (h : σ.Perm τ) (repeats : ℕ) :
    (trialKeys σ repeats).Perm (trialKeys τ repeats) := h.flatMap_right _

/-- The keys in order list the cases in order, and each with its repeats in order. -/
theorem sorted_trialKeys {caseIds : List EntityId} (h : caseIds.Nodup) (repeats : ℕ) :
    Sorting.sorted (trialKeys caseIds repeats) = trialKeys (Sorting.sorted caseIds) repeats := by
  apply Sorting.sorted_eq_of_perm (trialKeys_perm (Sorting.sorted_perm caseIds).symm repeats)
  have hnodup : (Sorting.sorted caseIds).Nodup := (Sorting.sorted_perm caseIds).nodup_iff.mpr h
  unfold trialKeys
  rw [List.pairwise_flatMap]
  constructor
  · -- one case: the repeats ascend
    intro c _
    rw [List.pairwise_map]
    refine List.pairwise_lt_range.imp ?_
    intro r r' hlt
    exact Prod.Lex.toLex_le_toLex.mpr (Or.inr ⟨rfl, hlt.le⟩)
  · -- two cases: the smaller name comes first, whatever the repeats
    refine ((Sorting.sorted_pairwise caseIds).and hnodup).imp ?_
    rintro c c' ⟨hle, hne⟩ key hkey key' hkey'
    obtain ⟨r, _, rfl⟩ := List.mem_map.mp hkey
    obtain ⟨r', _, rfl⟩ := List.mem_map.mp hkey'
    exact Prod.Lex.toLex_le_toLex.mpr (Or.inl (lt_of_le_of_ne hle hne))

/-- The keys of one case among all. -/
theorem filter_trialKeys {caseIds : List EntityId} (h : caseIds.Nodup) (repeats : ℕ)
    {c : EntityId} (hc : c ∈ caseIds) :
    (trialKeys caseIds repeats).filter (fun key => decide ((ofLex key).1 = c))
      = (List.range repeats).map fun r => toLex (c, r) := by
  induction caseIds with
  | nil => exact nomatch hc
  | cons a as ih =>
      obtain ⟨ha, has⟩ := List.nodup_cons.mp h
      unfold trialKeys at ih ⊢
      rw [List.flatMap_cons, List.filter_append]
      -- Only the block of `c` has keys of `c`, since the cases differ.
      by_cases hac : a = c
      · rw [hac] at ha ⊢
        rw [List.filter_eq_self.mpr (by simp), List.filter_eq_nil_iff.mpr, List.append_nil]
        rintro key hkey hkeyc
        obtain ⟨c', hc', hkey⟩ := List.mem_flatMap.mp hkey
        obtain ⟨r, _, rfl⟩ := List.mem_map.mp hkey
        exact ha ((of_decide_eq_true hkeyc : c' = c) ▸ hc')
      · rw [List.filter_eq_nil_iff.mpr (by simp [hac]), List.nil_append]
        exact ih has ((List.mem_cons.mp hc).resolve_left fun h => hac h.symm)

namespace Grid

variable {experiment : Experiment} {caseIds : List EntityId} {names : List String}
  (g : Grid experiment caseIds names)

theorem sortedKeys_eq :
    g.sortedKeys = trialKeys (Sorting.sorted caseIds) experiment.repeats :=
  sorted_trialKeys g.caseIds_nodup experiment.repeats

/-- The trials of one case among those of a version. -/
theorem filter_map_trialKeys {f : PairKey → Trial} {versionId : EntityId}
    (hf : ∀ key ∈ g.keys, Records experiment names versionId key (f key)) {c : EntityId}
    (hc : c ∈ caseIds) (versionId' : EntityId) :
    (g.keys.map f).filter
        (fun t => decide (t.1.systemVersionId = versionId' ∧ t.1.caseId = c))
      = if versionId = versionId' then
          (List.range experiment.repeats).map fun r => f (toLex (c, r))
        else [] := by
  rw [List.filter_map]
  have hcongr : g.keys.filter ((fun t : Trial => decide
      (t.1.systemVersionId = versionId' ∧ t.1.caseId = c)) ∘ f)
      = g.keys.filter fun key => decide (versionId = versionId' ∧ (ofLex key).1 = c) := by
    apply List.filter_congr
    intro key hkey
    simp only [Function.comp_apply, (hf key hkey).versionId, (hf key hkey).caseId]
  rw [hcongr]
  split
  · rename_i hversion
    simp only [hversion, true_and]
    rw [show g.keys = trialKeys caseIds experiment.repeats from rfl,
      filter_trialKeys g.caseIds_nodup experiment.repeats hc, List.map_map]
    rfl
  · rename_i hversion
    simp [hversion]

theorem caseTrials_baseline {c : EntityId} (hc : c ∈ caseIds) :
    caseTrials g.outcome experiment.baselineVersionId c
      = (List.range experiment.repeats).map fun r => g.baseline (toLex (c, r)) := by
  unfold caseTrials
  rw [g.zip_outcome]
  unfold trials
  rw [List.filter_append, g.filter_map_trialKeys g.baseline_records hc, if_pos rfl,
    g.filter_map_trialKeys g.candidate_records hc, if_neg experiment.versions_ne.symm,
    List.append_nil]

theorem caseTrials_candidate {c : EntityId} (hc : c ∈ caseIds) :
    caseTrials g.outcome experiment.candidateVersionId c
      = (List.range experiment.repeats).map fun r => g.candidate (toLex (c, r)) := by
  unfold caseTrials
  rw [g.zip_outcome]
  unfold trials
  rw [List.filter_append, g.filter_map_trialKeys g.baseline_records hc,
    if_neg experiment.versions_ne, g.filter_map_trialKeys g.candidate_records hc, if_pos rfl,
    List.nil_append]

/-- The differences of an observation are those of the cases, one case after the other. -/
theorem differencesOf_trialKeys {σ : List EntityId} (hσ : σ ⊆ caseIds) (o : Observation) :
    g.differencesOf (trialKeys σ experiment.repeats) o
      = σ.flatMap (caseDifferences experiment g.outcome o) := by
  unfold differencesOf keptKeys trialKeys
  rw [List.filter_flatMap, List.map_flatMap]
  apply List.flatMap_congr
  intro c hc
  unfold caseDifferences
  rw [g.caseTrials_baseline (hσ hc), g.caseTrials_candidate (hσ hc), List.zip_map']
  simp only [List.filter_map, List.map_map, Function.comp_def]

/-! ### Evidence in two orders -/

variable {rt : Runtime} {options : BootstrapOptions} {ks ks' : List PairKey} {o : Observation}

theorem length_differencesOf_perm (h : ks.Perm ks') :
    (g.differencesOf ks o).length = (g.differencesOf ks' o).length := by
  unfold differencesOf
  rw [List.length_map, List.length_map]
  exact (h.filter _).length_eq

/-- The evidence of one metric in two orders, when its differences are the same. -/
theorem evidenceData_seriesOf_congr (h : ks.Perm ks')
    (hdiffs : minPairsForCi ≤ (g.differencesOf ks o).length →
      g.differencesOf ks o = g.differencesOf ks' o) :
    evidenceData rt options (g.seriesOf ks o) = evidenceData rt options (g.seriesOf ks' o) := by
  have hkept : (g.keptKeys o ks).Perm (g.keptKeys o ks') := h.filter _
  have hlen := g.length_differencesOf_perm (o := o) h
  -- The summaries are sums, medians and counts: the order of the pairs does not matter to them.
  have hb : summarize rt (g.seriesOf ks o).baseline = summarize rt (g.seriesOf ks' o).baseline :=
    summarize_perm rt (hkept.map _)
  have hc : summarize rt (g.seriesOf ks o).candidate = summarize rt (g.seriesOf ks' o).candidate :=
    summarize_perm rt (hkept.map _)
  have hd : summarize rt (g.differencesOf ks o) = summarize rt (g.differencesOf ks' o) :=
    summarize_perm rt (hkept.map _)
  -- The interval is the one part that draws by position.
  have hci : bootstrapCi rt options (g.differencesOf ks o)
      = bootstrapCi rt options (g.differencesOf ks' o) := by
    by_cases hn : (g.differencesOf ks o).length < minPairsForCi
    · unfold bootstrapCi
      rw [if_pos hn, if_pos (hlen ▸ hn)]
    · rw [hdiffs (not_lt.mp hn)]
  have hdropped : (g.seriesOf ks o).droppedProviderFailures
      = (g.seriesOf ks' o).droppedProviderFailures := by
    unfold seriesOf
    dsimp only
    rw [hkept.length_eq]
  unfold evidenceData
  dsimp only
  rw [g.differences_seriesOf, g.differences_seriesOf, hb, hc, hd, hci, hlen, hdropped]
  rfl

/-- A generator that always returns `p` puts both ends of the interval at the difference `p`. -/
theorem bootstrapBound_offlineRuntime (hv : options.Valid) {diffs : List ℚ} {p : ℕ}
    (hp : p < diffs.length) {q : ℚ} (h0 : 0 ≤ q) (h1 : q ≤ 1) :
    bootstrapBound (offlineRuntime p) options diffs q = diffs[p] := by
  apply bootstrapBound_of_estimates hv h0 h1
  intro r
  have hentry : ∀ j ∈ List.range diffs.length,
      diffs.getD ((offlineRuntime p).randrange options.seed diffs.length
        (r * diffs.length + j)) 0 = diffs[p] := by
    intro j _
    have hmin : min p (diffs.length - 1) = p := by omega
    change diffs.getD (min p (diffs.length - 1)) 0 = diffs[p]
    rw [hmin, List.getD_eq_getElem _ _ hp]
  have hcast : (diffs.length : ℚ) ≠ 0 := by
    have : 0 < diffs.length := by omega
    exact_mod_cast this.ne'
  unfold estimate
  rw [List.map_congr_left hentry, List.map_const', List.sum_replicate, List.length_range,
    nsmul_eq_mul, mul_div_cancel_left₀ _ hcast]

/-- Evidence that is the same for every generator comes from the same differences. -/
theorem differencesOf_eq_of_evidenceData (hv : options.Valid)
    (h : ∀ rt, evidenceData rt options (g.seriesOf ks o)
      = evidenceData rt options (g.seriesOf ks' o))
    (hlen : (g.differencesOf ks o).length = (g.differencesOf ks' o).length)
    (hn : minPairsForCi ≤ (g.differencesOf ks o).length) :
    g.differencesOf ks o = g.differencesOf ks' o := by
  have htail := hv.tail_pos
  have htail' := hv.tail_le
  apply List.ext_getElem hlen
  -- The generator that always returns `p` shows the difference at `p`.
  intro p hp hp'
  have hci := congrArg MetricEvidenceData.ciLow (h (offlineRuntime p))
  simp only [evidenceData, g.differences_seriesOf, bootstrapCi, if_neg (not_lt.mpr hn),
    if_neg (not_lt.mpr (hlen ▸ hn)), Option.some.injEq] at hci
  rwa [bootstrapBound_offlineRuntime hv hp htail.le (by linarith),
    bootstrapBound_offlineRuntime hv hp' htail.le (by linarith)] at hci

/-! ### The renamed run -/

variable {ρ : EntityId → EntityId}

theorem restore_renameKey (hρ : CasesApart caseIds ρ) {key : PairKey} (hkey : key ∈ g.keys) :
    renameKey (restore caseIds ρ) (renameKey ρ key) = key := by
  unfold renameKey
  rw [ofLex_toLex, restore_apply hρ (mem_trialKeys.mp hkey).1]
  rfl

/-- A renamed trial is recorded under its renamed key. -/
theorem records_renameTrial {versionId : EntityId} {key : PairKey} {t : Trial}
    (h : Records experiment names versionId key t) :
    Records experiment names versionId (renameKey ρ key) (renameTrial ρ t) :=
  ⟨h.experimentId, h.versionId, congrArg ρ h.caseId, h.repeatIndex, h.runId, h.failed, h.scored⟩

/-- The renamed trials of a version, by renamed key. -/
noncomputable def renamed (_ : Grid experiment caseIds names) (ρ : EntityId → EntityId)
    (f : PairKey → Trial) (key : PairKey) : Trial :=
  renameTrial ρ (f (renameKey (restore caseIds ρ) key))

theorem renamed_renameKey (hρ : CasesApart caseIds ρ) (f : PairKey → Trial) {key : PairKey}
    (hkey : key ∈ g.keys) : g.renamed ρ f (renameKey ρ key) = renameTrial ρ (f key) := by
  unfold renamed
  rw [g.restore_renameKey hρ hkey]

theorem map_renamed (hρ : CasesApart caseIds ρ) (f : PairKey → Trial) :
    (trialKeys (caseIds.map ρ) experiment.repeats).map (g.renamed ρ f)
      = (g.keys.map f).map (renameTrial ρ) := by
  rw [trialKeys_map, List.map_map, List.map_map]
  exact List.map_congr_left fun key hkey => g.renamed_renameKey hρ f hkey

theorem records_renamed (hρ : CasesApart caseIds ρ) {f : PairKey → Trial} {versionId : EntityId}
    (hf : ∀ key ∈ g.keys, Records experiment names versionId key (f key)) {key : PairKey}
    (hkey : key ∈ trialKeys (caseIds.map ρ) experiment.repeats) :
    Records experiment names versionId key (g.renamed ρ f key) := by
  rw [trialKeys_map] at hkey
  obtain ⟨old, hold, rfl⟩ := List.mem_map.mp hkey
  rw [g.renamed_renameKey hρ f hold]
  exact records_renameTrial (hf old hold)

/-- The grid of the renamed outcome. -/
noncomputable def rename (hρ : CasesApart caseIds ρ) :
    Grid experiment (caseIds.map ρ) names where
  baseline := g.renamed ρ g.baseline
  candidate := g.renamed ρ g.candidate
  caseIds_ne_nil := by simpa using g.caseIds_ne_nil
  caseIds_nodup := g.caseIds_nodup.map_on fun c hc c' hc' h => hρ hc hc' h
  names_nodup := g.names_nodup
  baseline_records := fun _ hkey => g.records_renamed hρ g.baseline_records hkey
  candidate_records := fun _ hkey => g.records_renamed hρ g.candidate_records hkey
  ids_nodup := by
    rw [g.map_renamed hρ, g.map_renamed hρ, ← List.map_append, List.map_map]
    exact g.ids_nodup

theorem baselineTrials_rename (hρ : CasesApart caseIds ρ) :
    (g.rename hρ).baselineTrials = g.baselineTrials.map (renameTrial ρ) :=
  g.map_renamed hρ g.baseline

theorem candidateTrials_rename (hρ : CasesApart caseIds ρ) :
    (g.rename hρ).candidateTrials = g.candidateTrials.map (renameTrial ρ) :=
  g.map_renamed hρ g.candidate

theorem outcome_rename (hρ : CasesApart caseIds ρ) :
    (g.rename hρ).outcome = g.outcome.rename ρ := by
  have htrials : (g.rename hρ).trials = g.trials.map (renameTrial ρ) := by
    change (g.rename hρ).baselineTrials ++ (g.rename hρ).candidateTrials
      = (g.baselineTrials ++ g.candidateTrials).map (renameTrial ρ)
    rw [g.baselineTrials_rename, g.candidateTrials_rename, List.map_append]
  unfold outcome RunOutcome.rename
  rw [htrials, List.map_map, List.map_map, List.map_map]
  rfl

end Grid

/-- No observation reads the name of a case. -/
theorem Quality.observe_renameTrial {names : List String} {metric : String} {observe : Trial → ℚ}
    (h : Quality names metric observe) (ρ : EntityId → EntityId) (t : Trial) :
    observe (renameTrial ρ t) = observe t := by
  cases h <;> rfl

theorem observations_renameTrial {names : List String} {o : Observation}
    (h : o ∈ observations names) (ρ : EntityId → EntityId) :
    (∀ t, o.observe (renameTrial ρ t) = o.observe t) ∧
      ∀ b c, o.keeps (renameTrial ρ b) (renameTrial ρ c) = o.keeps b c := by
  simp only [observations, List.mem_append, List.mem_cons, List.mem_flatMap, List.not_mem_nil,
    or_false] at h
  rcases h with (rfl | ⟨name, _, rfl | rfl⟩) | rfl | rfl <;>
    exact ⟨fun _ => rfl, fun _ _ => rfl⟩

/-- No comparison reads the name of a case. -/
theorem comparisons_renameTrial (names : List String) (bs cs : List Trial)
    (ρ : EntityId → EntityId) :
    comparisons names (bs.map (renameTrial ρ)) (cs.map (renameTrial ρ))
      = comparisons names bs cs := by
  have hruns : ∀ ts : List Trial,
      (ts.map (renameTrial ρ)).map Prod.fst = (ts.map Prod.fst).map (renameRun ρ) := by
    intro ts
    rw [List.map_map, List.map_map]
    rfl
  have hmean : ∀ {metric observe}, Quality names metric observe → ∀ ts : List Trial,
      meanOf observe (ts.map (renameTrial ρ)) = meanOf observe ts := by
    intro metric observe hq ts
    unfold meanOf
    rw [List.map_map]
    exact congrArg mean (List.map_congr_left fun t _ => hq.observe_renameTrial ρ t)
  have hlatencies : ∀ runs : List EvaluationRun,
      successfulLatencies (runs.map (renameRun ρ)) = successfulLatencies runs := by
    intro runs
    unfold successfulLatencies
    rw [List.filter_map, List.map_map]
    rfl
  rw [← List.forall₂_eq_eq_eq]
  apply forall₂_comparisons
  · intro metric observe hq
    unfold comparison
    rw [hmean hq, hmean hq]
  · unfold comparison latencyMeanOf latencyMean
    simp only [hruns, hlatencies]
  · unfold comparison latencyP95Of latencyP95Value
    simp only [hruns, hlatencies]
  · unfold comparison costTotalOf costTotal
    simp only [hruns, List.map_map]
    rfl

namespace Grid

variable {experiment : Experiment} {caseIds : List EntityId} {names : List String}
  (g : Grid experiment caseIds names) {ρ : EntityId → EntityId}

/-- The cases in the order of their new names. -/
noncomputable def renamedOrder (caseIds : List EntityId) (ρ : EntityId → EntityId) :
    List EntityId :=
  (Sorting.sorted (caseIds.map ρ)).map (restore caseIds ρ)

theorem renamedOrder_perm (hρ : CasesApart caseIds ρ) :
    (renamedOrder caseIds ρ).Perm caseIds := by
  have hrestore : (caseIds.map ρ).map (restore caseIds ρ) = caseIds := by
    rw [List.map_map]
    exact (List.map_congr_left fun c hc => restore_apply hρ hc).trans (List.map_id caseIds)
  unfold renamedOrder
  exact ((Sorting.sorted_perm (caseIds.map ρ)).map _).trans (List.Perm.of_eq hrestore)

theorem map_renamedOrder (hρ : CasesApart caseIds ρ) :
    (renamedOrder caseIds ρ).map ρ = Sorting.sorted (caseIds.map ρ) := by
  unfold renamedOrder
  rw [List.map_map]
  refine (List.map_congr_left fun c hc => ?_).trans (List.map_id _)
  obtain ⟨old, hold, rfl⟩ := List.mem_map.mp (Sorting.mem_sorted.mp hc)
  exact congrArg ρ (restore_apply hρ hold)

/-- The keys in the order of the new names. -/
noncomputable def renamedKeys (_ : Grid experiment caseIds names) (ρ : EntityId → EntityId) :
    List PairKey :=
  trialKeys (renamedOrder caseIds ρ) experiment.repeats

theorem mem_renamedKeys (hρ : CasesApart caseIds ρ) {key : PairKey} :
    key ∈ g.renamedKeys ρ ↔ key ∈ g.keys :=
  (trialKeys_perm (renamedOrder_perm hρ) experiment.repeats).mem_iff

theorem sortedKeys_rename (hρ : CasesApart caseIds ρ) :
    (g.rename hρ).sortedKeys = (g.renamedKeys ρ).map (renameKey ρ) := by
  rw [(g.rename hρ).sortedKeys_eq, ← map_renamedOrder hρ, trialKeys_map]
  rfl

/-- The series of the renamed run are those of the run, in the order of the new names. -/
theorem series_rename (hρ : CasesApart caseIds ρ) :
    (g.rename hρ).series = (observations names).map (g.seriesOf (g.renamedKeys ρ)) := by
  rw [(g.rename hρ).series_eq_map]
  apply List.map_congr_left
  intro o ho
  obtain ⟨hobserve, hkeeps⟩ := observations_renameTrial ho ρ
  have hb : ∀ key ∈ g.renamedKeys ρ,
      (g.rename hρ).baseline (renameKey ρ key) = renameTrial ρ (g.baseline key) :=
    fun key hkey => g.renamed_renameKey hρ g.baseline ((g.mem_renamedKeys hρ).mp hkey)
  have hc : ∀ key ∈ g.renamedKeys ρ,
      (g.rename hρ).candidate (renameKey ρ key) = renameTrial ρ (g.candidate key) :=
    fun key hkey => g.renamed_renameKey hρ g.candidate ((g.mem_renamedKeys hρ).mp hkey)
  -- The new keys in order are the old keys in the order of the new names.
  have hkept : (g.rename hρ).keptKeys o (g.rename hρ).sortedKeys
      = (g.keptKeys o (g.renamedKeys ρ)).map (renameKey ρ) := by
    unfold keptKeys
    rw [g.sortedKeys_rename hρ, List.filter_map]
    congr 1
    apply List.filter_congr
    intro key hkey
    simp only [Function.comp_apply, hb key hkey, hc key hkey, hkeeps]
  have hlength : (g.rename hρ).keys.length = g.keys.length := by
    unfold Grid.keys
    rw [trialKeys_map, List.length_map]
  have hmem : ∀ key ∈ g.keptKeys o (g.renamedKeys ρ), key ∈ g.renamedKeys ρ :=
    fun key hkey => List.mem_of_mem_filter hkey
  unfold seriesOf
  rw [hkept, hlength, List.map_map, List.map_map, List.length_map]
  congr 1
  · exact List.map_congr_left fun key hkey => by
      simp only [Function.comp_apply, hb key (hmem key hkey), hobserve]
  · exact List.map_congr_left fun key hkey => by
      simp only [Function.comp_apply, hc key (hmem key hkey), hobserve]

/-- The evidence fields of the run, for the pairs in a given order. -/
def evidenceFieldsAt (rt : Runtime) (ks : List PairKey) : List MetricEvidenceData :=
  (observations names).zipIdx.map fun p =>
    evidenceData rt
      { BootstrapOptions.default with seed := BootstrapOptions.default.seed + p.2 }
      (g.seriesOf ks p.1)

theorem evidenceFields_eq (rt : Runtime) :
    g.evidenceFields rt .default = g.evidenceFieldsAt rt g.sortedKeys := by
  unfold evidenceFields evidenceFieldsAt
  rw [g.series_eq_map, List.zipIdx_map, List.map_map]
  rfl

theorem evidenceFields_rename (hρ : CasesApart caseIds ρ) (rt : Runtime) :
    (g.rename hρ).evidenceFields rt .default = g.evidenceFieldsAt rt (g.renamedKeys ρ) := by
  unfold evidenceFields evidenceFieldsAt
  rw [g.series_rename hρ, List.zipIdx_map, List.map_map]
  rfl

end Grid

/-! ### The assessment -/

/-- What the assessment says about the release. -/
def EvaluationOutcome.assessment (a : EvaluationOutcome) : EvaluationResult × GateReport :=
  (a.result, a.gate)

namespace Grid

variable {experiment : Experiment} {caseIds : List EntityId} {names : List String}
  (g : Grid experiment caseIds names) {ρ : EntityId → EntityId}

/-- A renaming keeps the assessment exactly when it keeps the evidence. -/
theorem assess_rename_iff (hρ : CasesApart caseIds ρ) (rt : Runtime) (stamp : Stamp) :
    (∀ policy, (assess rt experiment names policy stamp (g.outcome.rename ρ)).map
        EvaluationOutcome.assessment
      = (assess rt experiment names policy stamp g.outcome).map EvaluationOutcome.assessment) ↔
      g.evidenceFieldsAt rt (g.renamedKeys ρ) = g.evidenceFieldsAt rt g.sortedKeys := by
  obtain ⟨result, hresult, hassess⟩ := g.assess_eq rt stamp
  obtain ⟨result', hresult', hassess'⟩ := (g.rename hρ).assess_eq rt stamp
  rw [← g.outcome_rename hρ, ← g.evidenceFields_rename hρ, ← g.evidenceFields_eq]
  simp only [hassess, hassess']
  constructor
  · -- Without a policy the gate passes, so the results are what is compared.
    intro h
    obtain ⟨report, hgate, _⟩ := evaluateGate_eq_ok hresult.directed
      policyCovered_none
    obtain ⟨report', hgate', _⟩ := evaluateGate_eq_ok hresult'.directed
      policyCovered_none
    have hnone := h none
    rw [hgate, hgate'] at hnone
    have hsame : result' = result := congrArg Prod.fst (Except.ok.inj hnone)
    rw [← hresult.evidence, ← hresult'.evidence, hsame]
  · intro h policy
    -- The comparisons do not read the names, so only the evidence can differ.
    have hcomparisons : comparisons names (g.rename hρ).baselineTrials (g.rename hρ).candidateTrials
        = comparisons names g.baselineTrials g.candidateTrials := by
      rw [g.baselineTrials_rename, g.candidateTrials_rename, comparisons_renameTrial]
    rw [hresult'.eq_of_fields hresult hcomparisons h]
    cases evaluateGate result policy <;> rfl

/-- Evidence in two orders is the same for every generator exactly when the differences are. -/
theorem evidenceFieldsAt_eq_iff {ks ks' : List PairKey} (h : ks.Perm ks') :
    (∀ rt, g.evidenceFieldsAt rt ks = g.evidenceFieldsAt rt ks') ↔
      ∀ o ∈ observations names, minPairsForCi ≤ (g.differencesOf ks o).length →
        g.differencesOf ks o = g.differencesOf ks' o := by
  unfold evidenceFieldsAt
  constructor
  · intro heq o ho hn
    obtain ⟨i, hi, hget⟩ := List.mem_iff_getElem.mp ho
    have hmem : (o, i) ∈ (observations names).zipIdx := by
      rw [List.mk_mem_zipIdx_iff_getElem?, List.getElem?_eq_getElem hi, hget]
    exact g.differencesOf_eq_of_evidenceData (default_valid _)
      (fun rt => List.map_inj_left.mp (heq rt) (o, i) hmem)
      (g.length_differencesOf_perm h) hn
  · intro hdiffs rt
    apply List.map_congr_left
    rintro ⟨o, i⟩ hmem
    exact g.evidenceData_seriesOf_congr h (hdiffs o (List.fst_mem_of_mem_zipIdx hmem))

end Grid

/-! ### Every order of the cases -/

/-- The identifiers are ordered as their numbers. -/
theorem offlineId_le {i j : ℕ} (h : i ≤ j) : offlineId i ≤ offlineId j := by
  change (offlineId i).text ≤ (offlineId j).text
  rw [String.le_iff_toList_le]
  apply not_lt.mp
  apply List.IsPrefix.le
  have hadd : j + 1 = (i + 1) + (j - i) := by omega
  simp only [offlineId, String.toList_ofList]
  rw [hadd, List.replicate_add (i + 1)]
  exact List.prefix_append _ _

/-- The names that put the cases in a given order. -/
def orderNames (σ : List EntityId) (c : EntityId) : EntityId := offlineId (σ.idxOf c)

theorem casesApart_orderNames {caseIds σ : List EntityId} (h : σ.Perm caseIds) :
    CasesApart caseIds (orderNames σ) := by
  intro c hc c' _ heq
  exact (List.idxOf_inj (h.mem_iff.mpr hc)).mp (offlineId_injective heq)

theorem renamedOrder_orderNames {caseIds σ : List EntityId} (hnodup : caseIds.Nodup)
    (h : σ.Perm caseIds) : Grid.renamedOrder caseIds (orderNames σ) = σ := by
  have hσ : σ.Nodup := h.nodup_iff.mpr hnodup
  -- The new names ascend in the order `σ`.
  have hsorted : Sorting.sorted (caseIds.map (orderNames σ)) = σ.map (orderNames σ) := by
    apply Sorting.sorted_eq_of_perm (h.symm.map _)
    rw [List.pairwise_map, List.pairwise_iff_getElem]
    intro i j hi hj hij
    unfold orderNames
    rw [hσ.idxOf_getElem, hσ.idxOf_getElem]
    exact offlineId_le hij.le
  unfold Grid.renamedOrder
  rw [hsorted, List.map_map]
  refine (List.map_congr_left fun c hc => ?_).trans (List.map_id σ)
  exact restore_apply (casesApart_orderNames h) (h.mem_iff.mp hc)

/-- What has one concatenation in every order can trade places. -/
theorem append_comm_of_every_order {β : Type} {f : EntityId → List β} {caseIds : List EntityId}
    (hnodup : caseIds.Nodup) (whole : List β)
    (h : ∀ σ : List EntityId, σ.Perm caseIds → σ.flatMap f = whole) :
    ∀ c ∈ caseIds, ∀ c' ∈ caseIds, f c ++ f c' = f c' ++ f c := by
  intro c hc c' hc'
  by_cases hne : c = c'
  · rw [hne]
  · have herase : c' ∈ caseIds.erase c := hnodup.mem_erase_iff.mpr ⟨Ne.symm hne, hc'⟩
    have hperm : (c :: c' :: (caseIds.erase c).erase c').Perm caseIds :=
      ((List.perm_cons_erase herase).symm.cons c).trans (List.perm_cons_erase hc).symm
    -- Two orders that differ in their first two elements only.
    have hsame := (h _ hperm).trans (h _ ((List.Perm.swap c c' _).trans hperm)).symm
    simp only [List.flatMap_cons, ← List.append_assoc] at hsame
    exact List.append_cancel_right hsame

/-- For every generator, every policy and every renaming of the cases the assessment stays the
same, exactly when the differences of any two cases can trade places. -/
theorem renaming_keeps_assessment_iff {experiment : Experiment} {dataset : Dataset}
    {names : List String} {outcome : RunOutcome} (h : Produced experiment dataset names outcome)
    (stamp : Stamp) :
    (∀ rt ρ, CasesApart dataset.caseIds ρ → ∀ policy,
      (assess rt experiment names policy stamp (outcome.rename ρ)).map
          EvaluationOutcome.assessment
        = (assess rt experiment names policy stamp outcome).map EvaluationOutcome.assessment) ↔
      CasesCommute experiment dataset.caseIds names outcome := by
  obtain ⟨g, rfl⟩ := h.grid
  have hnodup : dataset.caseIds.Nodup := dataset.cases_nodup
  have hsorted : (Sorting.sorted dataset.caseIds).Perm dataset.caseIds := Sorting.sorted_perm _
  -- In the order `σ` of the cases the differences are concatenated in the order `σ`.
  have hdifferences : ∀ (o : Observation) (σ : List EntityId), σ.Perm dataset.caseIds →
      g.differencesOf (trialKeys σ experiment.repeats) o
        = σ.flatMap (caseDifferences experiment g.outcome o) := fun o σ hσ =>
    g.differencesOf_trialKeys hσ.subset o
  constructor
  · -- Every order of the cases is the order of some names.
    intro hkeeps o ho hn
    apply append_comm_of_every_order hnodup
      ((Sorting.sorted dataset.caseIds).flatMap (caseDifferences experiment g.outcome o))
    intro σ hσ
    have hρ := casesApart_orderNames hσ
    have hfields := fun rt => (g.assess_rename_iff hρ rt stamp).mp (hkeeps rt _ hρ)
    have hperm : (g.renamedKeys (orderNames σ)).Perm g.sortedKeys := by
      rw [g.sortedKeys_eq]
      exact trialKeys_perm ((Grid.renamedOrder_perm hρ).trans hsorted.symm) _
    have hdiffs := (g.evidenceFieldsAt_eq_iff hperm).mp hfields o ho
    unfold Grid.renamedKeys at hdiffs
    rw [renamedOrder_orderNames hnodup hσ, g.sortedKeys_eq, hdifferences o σ hσ,
      hdifferences o _ hsorted] at hdiffs
    exact hdiffs (hn.trans_eq (hσ.flatMap_right _).length_eq.symm)
  · -- The new names put the cases in some order.
    intro hcommute rt ρ hρ
    rw [g.assess_rename_iff hρ rt stamp]
    have horder := Grid.renamedOrder_perm hρ
    have hperm : (g.renamedKeys ρ).Perm g.sortedKeys := by
      rw [g.sortedKeys_eq]
      exact trialKeys_perm (horder.trans hsorted.symm) _
    refine (g.evidenceFieldsAt_eq_iff hperm).mpr (fun o ho hn => ?_) rt
    unfold Grid.renamedKeys at hn ⊢
    rw [hdifferences o _ horder] at hn ⊢
    rw [g.sortedKeys_eq, hdifferences o _ hsorted]
    have hcases := hcommute o ho (hn.trans_eq (horder.flatMap_right _).length_eq)
    exact ListRules.flatMap_eq_of_perm (horder.trans hsorted.symm) fun c hc c' hc' =>
      hcases c (horder.mem_iff.mp hc) c' (horder.mem_iff.mp hc')

/-! ### One failed case among eight -/

/-- The experiment of eight cases, once each. -/
def flakyExperiment : Experiment := offlineExperiment 1 one_le_once

/-- The policy that tolerates no loss of success. -/
def flakyPolicy : ReleasePolicy := offlinePolicy "success_rate" successRate_nonblank 0 nonneg_zero

/-- The candidate fails on the first case only. -/
def flakyAnswer (prompt : String) (version : EntityId) : Py ProviderResponse :=
  if prompt = (offlineId 0).text ∧ version = offlineId 1 then .error offlineFailure
  else .ok (offlineResponse 1 nonneg_one)

/-- When the policy over the success rate blocks. -/
theorem Grid.decision_successPolicy {experiment : Experiment} {caseIds : List EntityId}
    {names : List String} {g : Grid experiment caseIds names} {rt : Runtime} {stamp : Stamp}
    {result : EvaluationResult} {report : GateReport} (hresult : g.ResultOf rt stamp result)
    (hdecided : Decided result (some flakyPolicy) report) {s : PairedSeries}
    {rest : List PairedSeries} (hseries : g.series = s :: rest)
    (hmetric : s.metric = "success_rate") :
    report.decision = .block ↔
      Breach .higherIsBetter (meanOf successValue g.baselineTrials)
          (meanOf successValue g.candidateTrials) 0 ∧
        Confirms .higherIsBetter (evidenceData rt .default s) 0 := by
  -- The success rate is the first series, so its seed is the default one.
  have hevidence : ∃ e, evidenceFor result "success_rate" = some e ∧
      e.toMetricEvidenceData = evidenceData rt .default s := by
    have hfields := hresult.evidence
    unfold Grid.evidenceFields at hfields
    rw [hseries, List.zipIdx_cons, List.map_cons] at hfields
    obtain ⟨e, es, hes, he, _⟩ := List.map_eq_cons_iff.mp hfields
    have hseed : evidenceData rt .default s = evidenceData rt
        { BootstrapOptions.default with seed := BootstrapOptions.default.seed + (0 : ℕ) } s := by
      simp
    refine ⟨e, ?_, he.trans hseed.symm⟩
    unfold evidenceFor
    rw [hes, List.find?_cons_of_pos]
    rw [decide_eq_true_iff, he]
    exact hmetric
  obtain ⟨e, hfind, he⟩ := hevidence
  have hmem : comparison "success_rate" (by decide) g.baselineTrials g.candidateTrials
      (meanOf successValue) ∈ result.metrics := by
    rw [hresult.metrics]
    exact List.mem_cons_self
  rw [hdecided.decision, hdecided.verdicts]
  constructor
  · rintro ⟨v, hv, hregression⟩
    obtain ⟨mc, hmc, rfl⟩ := List.mem_map.mp hv
    obtain ⟨t, ht, hbreach, hconfirms⟩ := regression_iff.mp hregression
    obtain ⟨hname, rfl⟩ : mc.metric = "success_rate" ∧ t = 0 := by
      have hentry := (Dict.get?_eq_some_iff _ _ _).mp ht
      simpa [flakyPolicy, offlinePolicy] using hentry
    have hmc' := List.inj_on_of_nodup_map result.metrics_nodup hmc hmem hname
    rw [hmc'] at hbreach hconfirms
    exact ⟨hbreach, he ▸ hconfirms e hfind⟩
  · rintro ⟨hbreach, hconfirms⟩
    refine ⟨_, List.mem_map_of_mem hmem, regression_iff.mpr ⟨0, rfl, hbreach, ?_⟩⟩
    intro e' he'
    cases hfind.symm.trans he'
    rw [he]
    exact hconfirms

theorem trialKeys_one (ids : List ℕ) :
    trialKeys (ids.map offlineId) 1 = ids.map fun k => toLex (offlineId k, 0) := by
  unfold trialKeys
  rw [List.flatMap_map]
  exact List.flatMap_pure_eq_map _ ids

/-- What an answer makes of the success of a trial. -/
theorem successValue_of_answered {answer : Py ProviderResponse} {t : Trial}
    (h : Answered answer t) : successValue t = if answer.isOk then 1 else 0 := by
  unfold successValue successObs
  cases answer with
  | ok response => simp [h.2.1, Except.isOk, Except.toBool]
  | error e =>
      have hfailed : t.1.error.isSome = true := h.2
      simp [Option.isSome_iff_ne_none.mp hfailed, Except.isOk, Except.toBool]

/-- The grid of the flaky candidate, with the success of its trials. -/
theorem flaky_grid :
    ∃ g : Grid flakyExperiment (offlineDataset 7).caseIds [],
      Produced flakyExperiment (offlineDataset 7) [] g.outcome ∧
      ∀ k < 8, successValue (g.baseline (toLex (offlineId k, 0))) = 1 ∧
        successValue (g.candidate (toLex (offlineId k, 0))) = if k = 0 then 0 else 1 := by
  obtain ⟨g, _, hrun, hanswered⟩ := offline_grid 7 (le_refl 1) flakyAnswer (by
    intro prompt version e he
    unfold flakyAnswer at he
    split at he
    · cases he
      rfl
    · cases he)
  refine ⟨g, produced_offlineRun hrun, fun k hk => ?_⟩
  have hkey : (toLex (offlineId k, 0) : PairKey) ∈ g.keys := by
    refine mem_trialKeys.mpr ⟨?_, Nat.one_pos⟩
    exact List.mem_map.mpr ⟨offlineCase k, List.mem_map_of_mem (List.mem_range.mpr hk), rfl⟩
  obtain ⟨hb, hc⟩ := hanswered _ hkey
  have htext : (offlineId k).text = (offlineId 0).text ↔ k = 0 :=
    ⟨fun h => offlineId_injective (NonBlank.text_injective h), fun h => by rw [h]⟩
  have hversion : offlineId 0 ≠ offlineId 1 := fun h => absurd (offlineId_injective h) (by decide)
  rw [successValue_of_answered hb, successValue_of_answered hc]
  unfold flakyAnswer
  simp only [ofLex_toLex, htext, hversion, and_false, and_true, if_false]
  refine ⟨rfl, ?_⟩
  split <;> rfl

/-- The differences of the success rate, in an order of the cases. -/
theorem differencesOf_flaky {g : Grid flakyExperiment (offlineDataset 7).caseIds []}
    (hg : ∀ k < 8, successValue (g.baseline (toLex (offlineId k, 0))) = 1 ∧
      successValue (g.candidate (toLex (offlineId k, 0))) = if k = 0 then 0 else 1)
    {ids : List ℕ} (hids : ids ⊆ List.range 8) :
    g.differencesOf (trialKeys (ids.map offlineId) 1) (.full "success_rate" .binary successValue)
      = ids.map fun k => if k = 0 then -1 else 0 := by
  have hkept : g.keptKeys (.full "success_rate" .binary successValue)
      (trialKeys (ids.map offlineId) 1) = trialKeys (ids.map offlineId) 1 :=
    List.filter_eq_self.mpr fun _ _ => rfl
  unfold Grid.differencesOf
  rw [hkept, trialKeys_one, List.map_map]
  apply List.map_congr_left
  intro k hk
  obtain ⟨hb, hc⟩ := hg k (List.mem_range.mp (hids hk))
  change successValue (g.candidate (toLex (offlineId k, 0)))
    - successValue (g.baseline (toLex (offlineId k, 0))) = _
  rw [hb, hc]
  split <;> norm_num

/-- Seven successes of eight breach the policy. -/
theorem breach_flaky {g : Grid flakyExperiment (offlineDataset 7).caseIds []}
    (hg : ∀ k < 8, successValue (g.baseline (toLex (offlineId k, 0))) = 1 ∧
      successValue (g.candidate (toLex (offlineId k, 0))) = if k = 0 then 0 else 1) :
    Breach .higherIsBetter (meanOf successValue g.baselineTrials)
      (meanOf successValue g.candidateTrials) 0 := by
  have hkeys : g.keys = (List.range 8).map fun k => toLex (offlineId k, 0) :=
    trialKeys_one (List.range 8)
  have hb : g.baselineTrials.map successValue = (List.range 8).map fun _ => 1 := by
    unfold Grid.baselineTrials
    rw [hkeys, List.map_map, List.map_map]
    exact List.map_congr_left fun k hk => (hg k (List.mem_range.mp hk)).1
  have hc : g.candidateTrials.map successValue
      = (List.range 8).map fun k => if k = 0 then 0 else 1 := by
    unfold Grid.candidateTrials
    rw [hkeys, List.map_map, List.map_map]
    exact List.map_congr_left fun k hk => (hg k (List.mem_range.mp hk)).2
  unfold meanOf mean
  rw [hb, hc]
  constructor <;> norm_num [List.range_succ]

/-- Eight pairs confirm a loss when the first difference is one, under the generator that always
returns `0`. -/
theorem confirms_flaky {options : BootstrapOptions} (hv : options.Valid) {s : PairedSeries}
    (first : ℚ) (rest : List ℚ) (hdiffs : differences s.baseline s.candidate = first :: rest)
    (hlen : rest.length = 7) :
    Confirms .higherIsBetter (evidenceData (offlineRuntime 0) options s) 0 ↔ first < 0 := by
  have htail := hv.tail_pos
  have htail' := hv.tail_le
  rw [confirms_evidenceData_iff, hdiffs]
  dsimp only
  rw [Grid.bootstrapBound_offlineRuntime hv (List.length_pos_of_mem List.mem_cons_self)
    (by linarith) (by linarith)]
  simp [minPairsToBlock, hlen]

/-- The case that fails comes first under its own name and last after the renaming, so the
renaming turns a block into a pass. -/
theorem renaming_turns_block_into_pass :
    ∃ outcome ρ a a',
      Produced flakyExperiment (offlineDataset 7) [] outcome ∧
      CasesApart (offlineDataset 7).caseIds ρ ∧
      assess (offlineRuntime 0) flakyExperiment [] (some flakyPolicy) (offlineStamp 0) outcome
        = .ok a ∧
      assess (offlineRuntime 0) flakyExperiment [] (some flakyPolicy) (offlineStamp 0)
        (outcome.rename ρ) = .ok a' ∧
      a.gate.decision = .block ∧ a'.gate.decision ≠ .block := by
  obtain ⟨g, hproduced, hg⟩ := flaky_grid
  have hids : (offlineDataset 7).caseIds = (List.range 8).map offlineId := rfl
  have hnodup : (offlineDataset 7).caseIds.Nodup := (offlineDataset 7).cases_nodup
  have hreverse : ((List.range 8).reverse.map offlineId).Perm (offlineDataset 7).caseIds :=
    (List.reverse_perm _).map _
  have hρ := casesApart_orderNames hreverse
  have hcovered : ∀ {caseIds} (g : Grid flakyExperiment caseIds []),
      PolicyCovered (some flakyPolicy) (comparisons [] g.baselineTrials g.candidateTrials) := by
    rintro caseIds g p hp
    cases hp
    exact unknownMetrics_offlinePolicy _ _ (by rw [map_metric_comparisons]; decide)
  obtain ⟨a, ha, _, hresult, hdecided⟩ := g.assess_eq_ok (offlineRuntime 0) (offlineStamp 0)
    (hcovered g)
  obtain ⟨a', ha', _, hresult', hdecided'⟩ := (g.rename hρ).assess_eq_ok (offlineRuntime 0)
    (offlineStamp 0) (hcovered _)
  rw [g.outcome_rename hρ] at ha'
  have hvalid := default_valid BootstrapOptions.default.seed
  refine ⟨g.outcome, _, a, a', hproduced, hρ, ha, ha', ?_, ?_⟩
  · -- under its own names the first difference is the loss
    rw [Grid.decision_successPolicy hresult hdecided g.series_eq_map rfl]
    refine ⟨breach_flaky hg, (confirms_flaky hvalid (-1) (List.replicate 7 0) ?_
      rfl).mpr (by norm_num)⟩
    have hsorted : Sorting.sorted (offlineDataset 7).caseIds = (List.range 8).map offlineId := by
      rw [hids]
      apply Sorting.sorted_of_pairwise
      rw [List.pairwise_map]
      exact List.pairwise_lt_range.imp fun h => offlineId_le h.le
    rw [g.differences_seriesOf, g.sortedKeys_eq, hsorted]
    exact differencesOf_flaky hg (List.Subset.refl _)
  · -- after the renaming the first difference is none
    rw [ne_eq, Grid.decision_successPolicy hresult' hdecided' (g.series_rename hρ) rfl]
    rintro ⟨_, hconfirms⟩
    refine absurd ((confirms_flaky hvalid 0 (List.replicate 6 0 ++ [-1]) ?_
      rfl).mp hconfirms) (lt_irrefl 0)
    rw [g.differences_seriesOf, Grid.renamedKeys, renamedOrder_orderNames hnodup hreverse]
    exact differencesOf_flaky hg (List.reverse_subset.mpr (List.Subset.refl _))

/-- The equivalence for the flaky candidate. -/
theorem renaming_keeps_assessment_iff_flaky :
    ∃ outcome,
      (∀ rt ρ, CasesApart (offlineDataset 7).caseIds ρ → ∀ policy,
        (assess rt flakyExperiment [] policy (offlineStamp 0) (outcome.rename ρ)).map
            EvaluationOutcome.assessment
          = (assess rt flakyExperiment [] policy (offlineStamp 0) outcome).map
            EvaluationOutcome.assessment) ↔
        CasesCommute flakyExperiment (offlineDataset 7).caseIds [] outcome := by
  obtain ⟨g, hproduced, _⟩ := flaky_grid
  exact ⟨g.outcome, renaming_keeps_assessment_iff hproduced (offlineStamp 0)⟩

end EvalOps
