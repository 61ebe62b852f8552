import EvalOps.Diagnostics
import EvalOps.Proofs.Returns

/-!
# `EvalOps.Proofs.Diagnostics`: what the diagnosis finds

`diagnoseRegressions` returns exactly when neither version has two runs for one case and repeat
(`diagnoseRegressions_isOk_iff`). Its findings are those of the matched pairs, pair by pair and
evaluator by evaluator (`findingsOn_provider`, `findingsOn_evaluator`).

`findings_exact_iff` compares them with the documented rule. The documentation reports a score that
fell by at least the threshold, and the code one that fell by more, so the two agree where no score
fell by exactly the threshold.
-/

set_option autoImplicit false

namespace EvalOps

/-! ### Runs by key -/

/-- The loop of `_runs_by_key` appends the runs of the version. -/
theorem foldlM_addRun_entries {versionId : EntityId} {runs : List EvaluationRun}
    {byKey d : Dict PairKey EvaluationRun} (h : runs.foldlM (addRun versionId) byKey = .ok d) :
    d.entries = byKey.entries ++
      (runs.filter fun r => decide (r.systemVersionId = versionId)).map
        fun r => (pairKey r, r) := by
  -- Each turn skips a run of another version, raises on a known key, or appends an entry.
  induction runs generalizing byKey with
  | nil =>
      cases h
      simp
  | cons run runs ih =>
      rw [List.foldlM_cons] at h
      obtain ⟨byKey', hstep, hrest⟩ := ExceptRules.bind_eq_ok.mp h
      rw [ih hrest]
      unfold addRun at hstep
      by_cases hversion : run.systemVersionId = versionId
      · rw [if_neg (not_not.mpr hversion)] at hstep
        split at hstep
        · cases hstep
        · rename_i hnew
          cases hstep
          rw [Dict.insert_entries_of_notMem (by simpa [Dict.contains] using hnew),
            List.filter_cons_of_pos (by simpa using hversion), List.append_assoc]
          rfl
      · rw [if_pos hversion] at hstep
        cases hstep
        rw [List.filter_cons_of_neg (by simpa using hversion)]

/-- What `_runs_by_key` returns: the runs of the version by their keys. -/
theorem get?_runsByKey {versionId : EntityId} {runs : List EvaluationRun}
    {d : Dict PairKey EvaluationRun} (h : runsByKey runs versionId = .ok d) {key : PairKey}
    {run : EvaluationRun} :
    d.get? key = some run ↔
      run ∈ runs ∧ run.systemVersionId = versionId ∧ pairKey run = key := by
  rw [Dict.get?_eq_some_iff, foldlM_addRun_entries h]
  simp only [Dict.empty, List.nil_append, List.mem_map, List.mem_filter, decide_eq_true_eq]
  constructor
  · rintro ⟨r, ⟨hr, hversion⟩, hpair⟩
    cases hpair
    exact ⟨hr, hversion, rfl⟩
  · rintro ⟨hr, hversion, rfl⟩
    exact ⟨run, ⟨hr, hversion⟩, rfl⟩

/-- No case and repeat of the version has two runs. -/
def KeysDistinct (runs : List EvaluationRun) (versionId : EntityId) : Prop :=
  ((runs.filter fun r => decide (r.systemVersionId = versionId)).map pairKey).Nodup

/-- `_runs_by_key` returns exactly when the keys of the version are distinct. -/
theorem runsByKey_isOk_iff {runs : List EvaluationRun} {versionId : EntityId} :
    (∃ d, runsByKey runs versionId = .ok d) ↔ KeysDistinct runs versionId := by
  unfold KeysDistinct
  constructor
  · rintro ⟨d, h⟩
    have hnodup := d.nodup
    rw [foldlM_addRun_entries h] at hnodup
    simpa [Dict.empty, Function.comp_def] using hnodup
  · intro hkeys
    -- A new key never meets an old one, so no turn raises.
    have key : ∀ (runs : List EvaluationRun) (byKey : Dict PairKey EvaluationRun),
        (byKey.keys ++ (runs.filter fun r => decide (r.systemVersionId = versionId)).map
          pairKey).Nodup → ∃ d, runs.foldlM (addRun versionId) byKey = .ok d := by
      intro runs
      induction runs with
      | nil => exact fun byKey _ => ⟨byKey, rfl⟩
      | cons run runs ih =>
          intro byKey hnodup
          rw [List.foldlM_cons, addRun]
          by_cases hversion : run.systemVersionId = versionId
          · rw [List.filter_cons_of_pos (by simpa using hversion), List.map_cons] at hnodup
            have hnew : pairKey run ∉ byKey.keys := by
              intro hmem
              rw [List.nodup_append] at hnodup
              exact hnodup.2.2 _ hmem (pairKey run) List.mem_cons_self rfl
            have hkeys' : (byKey.insert (pairKey run) run).keys = byKey.keys ++ [pairKey run] := by
              unfold Dict.keys
              rw [Dict.insert_entries_of_notMem hnew, List.map_append]
              rfl
            rw [if_neg (not_not.mpr hversion), if_neg (by simpa [Dict.contains] using hnew)]
            apply ih
            rw [hkeys', List.append_assoc]
            exact hnodup
          · rw [List.filter_cons_of_neg (by simpa using hversion)] at hnodup
            rw [if_pos hversion]
            exact ih byKey hnodup
    exact key runs Dict.empty (by simpa [Dict.empty, Dict.keys] using hkeys)

/-- A matched pair of an outcome: a baseline run and a candidate run of one case and repeat. -/
structure Matched (experiment : Experiment) (outcome : RunOutcome) (key : PairKey)
    (b c : EvaluationRun) : Prop where
  baseline_mem : b ∈ outcome.runs
  baseline_version : b.systemVersionId = experiment.baselineVersionId
  baseline_key : pairKey b = key
  candidate_mem : c ∈ outcome.runs
  candidate_version : c.systemVersionId = experiment.candidateVersionId
  candidate_key : pairKey c = key

/-! ### One pair -/

/-- The case results of an outcome by run. -/
def RunOutcome.resultsByRun (outcome : RunOutcome) : Dict EntityId CaseResult :=
  Dict.ofList (outcome.caseResults.map fun cr => (cr.runId, cr))

/-- The score of a run from an evaluator. -/
def RunOutcome.scoredBy (outcome : RunOutcome) (run : EvaluationRun) (name : NonBlank) :
    Option EvaluatorScore :=
  (scoreMap run outcome.resultsByRun).get? name

/-- The findings of one evaluator on one pair, none unless it scored both runs. -/
def evaluatorFindingsOf (outcome : RunOutcome) (threshold : ℚ) (key : PairKey)
    (b c : EvaluationRun) (name : NonBlank) : List PairFinding :=
  match outcome.scoredBy b name, outcome.scoredBy c name with
  | some sb, some sc => evaluatorFindings key b c threshold name sb sc
  | _, _ => []

/-- The evaluators that scored both runs of a pair, in order. -/
def sharedEvaluators (outcome : RunOutcome) (b c : EvaluationRun) : List NonBlank :=
  Sorting.sorted ((scoreMap b outcome.resultsByRun).keys.filter
    (scoreMap c outcome.resultsByRun).contains)

/-- The findings of one pair. -/
def findingsOf (outcome : RunOutcome) (threshold : ℚ) (key : PairKey) (b c : EvaluationRun) :
    List PairFinding :=
  providerFindings key b c ++
    (sharedEvaluators outcome b c).flatMap (evaluatorFindingsOf outcome threshold key b c)

section

variable {outcome : RunOutcome} {threshold : ℚ} {key : PairKey} {b c : EvaluationRun}

theorem mem_sharedEvaluators {name : NonBlank} :
    name ∈ sharedEvaluators outcome b c ↔
      ∃ sb sc, outcome.scoredBy b name = some sb ∧ outcome.scoredBy c name = some sc := by
  unfold sharedEvaluators RunOutcome.scoredBy
  rw [Sorting.mem_sorted, List.mem_filter, Dict.mem_keys_iff, Dict.contains_iff]
  constructor
  · rintro ⟨⟨sb, hb⟩, sc, hc⟩
    exact ⟨sb, sc, hb, hc⟩
  · rintro ⟨sb, sc, hb, hc⟩
    exact ⟨⟨sb, hb⟩, sc, hc⟩

theorem nodup_sharedEvaluators : (sharedEvaluators outcome b c).Nodup :=
  (Sorting.sorted_perm _).nodup_iff.mpr ((scoreMap b outcome.resultsByRun).nodup.filter _)

/-- `_pair_findings` returns. -/
theorem pairFindings_eq_ok :
    pairFindings key b c outcome.resultsByRun threshold
      = .ok (findingsOf outcome threshold key b c) := by
  have hloop : ((sharedEvaluators outcome b c).mapM fun name => do
      let bScore ← scoreAt (scoreMap b outcome.resultsByRun) name
      let cScore ← scoreAt (scoreMap c outcome.resultsByRun) name
      pure (evaluatorFindings key b c threshold name bScore cScore) : Py (List (List PairFinding)))
      = .ok ((sharedEvaluators outcome b c).map
          (evaluatorFindingsOf outcome threshold key b c)) := by
    apply ExceptRules.mapM_eq_ok_map
    intro name hname
    -- A shared evaluator has a score on both sides, so neither lookup raises.
    obtain ⟨sb, sc, hb, hc⟩ := mem_sharedEvaluators.mp hname
    unfold evaluatorFindingsOf
    rw [hb, hc]
    unfold RunOutcome.scoredBy at hb hc
    unfold scoreAt
    rw [hb, hc]
    rfl
  unfold pairFindings
  dsimp only
  rw [show Sorting.sorted ((scoreMap b outcome.resultsByRun).keys.filter
      (scoreMap c outcome.resultsByRun).contains) = sharedEvaluators outcome b c from rfl, hloop]
  rfl

theorem mem_providerFindings {f : PairFinding} (h : f ∈ providerFindings key b c) :
    f.key = key ∧ f.kind = .providerFailure ∧ f.evaluator = none ∧ f.baselineRunId = b.id ∧
      f.candidateRunId = c.id := by
  unfold providerFindings at h
  split at h
  · rw [List.mem_singleton.mp h]
    exact ⟨rfl, rfl, rfl, rfl, rfl⟩
  · exact nomatch h

theorem mem_evaluatorFindingsOf {name : NonBlank} {f : PairFinding}
    (h : f ∈ evaluatorFindingsOf outcome threshold key b c name) :
    f.key = key ∧ f.evaluator = some name ∧ f.baselineRunId = b.id ∧ f.candidateRunId = c.id := by
  unfold evaluatorFindingsOf at h
  split at h
  · unfold evaluatorFindings at h
    dsimp only at h
    -- Both branches that report a finding fill in the same key, name and runs.
    split at h
    · rw [List.mem_singleton.mp h]
      exact ⟨rfl, rfl, rfl, rfl⟩
    · split at h
      · rw [List.mem_singleton.mp h]
        exact ⟨rfl, rfl, rfl, rfl⟩
      · exact nomatch h
  · exact nomatch h

/-- The findings of a pair carry its key and its runs. -/
theorem mem_findingsOf {f : PairFinding} (h : f ∈ findingsOf outcome threshold key b c) :
    f.key = key ∧ f.baselineRunId = b.id ∧ f.candidateRunId = c.id := by
  rcases List.mem_append.mp h with h | h
  · obtain ⟨hkey, _, _, hb, hc⟩ := mem_providerFindings h
    exact ⟨hkey, hb, hc⟩
  · obtain ⟨name, _, hf⟩ := List.mem_flatMap.mp h
    obtain ⟨hkey, _, hb, hc⟩ := mem_evaluatorFindingsOf hf
    exact ⟨hkey, hb, hc⟩

/-- The findings of a pair that belong to no evaluator. -/
theorem filter_findingsOf_none :
    (findingsOf outcome threshold key b c).filter (fun f => decide (f.evaluator = none))
      = providerFindings key b c := by
  unfold findingsOf
  rw [List.filter_append, List.filter_eq_self.mpr, List.filter_eq_nil_iff.mpr, List.append_nil]
  · -- The findings of the evaluators have names.
    intro f hf
    obtain ⟨name, _, hf⟩ := List.mem_flatMap.mp hf
    simp [(mem_evaluatorFindingsOf hf).2.1]
  · intro f hf
    simp [(mem_providerFindings hf).2.2.1]

/-- The findings of a pair that belong to an evaluator. -/
theorem filter_findingsOf_some (name : NonBlank) :
    (findingsOf outcome threshold key b c).filter (fun f => decide (f.evaluator = some name))
      = evaluatorFindingsOf outcome threshold key b c name := by
  have hprovider : (providerFindings key b c).filter
      (fun f => decide (f.evaluator = some name)) = [] := by
    rw [List.filter_eq_nil_iff]
    intro f hf
    simp [(mem_providerFindings hf).2.2.1]
  -- The evaluators are distinct, so the part of one evaluator is its own findings.
  have hevaluators : ((sharedEvaluators outcome b c).flatMap
      (evaluatorFindingsOf outcome threshold key b c)).filter
        (fun f => decide (f.evaluator = some name))
      = if name ∈ sharedEvaluators outcome b c then
          evaluatorFindingsOf outcome threshold key b c name else [] := by
    apply ListRules.filter_flatMap_eq_part nodup_sharedEvaluators
    intro other _ f hf
    rw [(mem_evaluatorFindingsOf hf).2.1]
    simp
  unfold findingsOf
  rw [List.filter_append, hprovider, hevaluators, List.nil_append]
  split
  · rfl
  · -- An evaluator that did not score both runs has no findings.
    rename_i hname
    unfold evaluatorFindingsOf
    split
    · rename_i sb sc hb hc
      exact absurd (mem_sharedEvaluators.mpr ⟨sb, sc, hb, hc⟩) hname
    · rfl

end

/-! ### The counts -/

/-- Every group of findings has a representative. -/
theorem representative_isOk {group : List PairFinding} (h : group ≠ []) :
    ∃ ref, representative (Dict.group PairFinding.repeatIndex group) = .ok ref := by
  unfold representative
  have hmem : ∀ {repeatIndex : ℕ} {part : List PairFinding},
      (repeatIndex, part) ∈ (Dict.group PairFinding.repeatIndex group).entries → part ≠ [] :=
    fun hentry => (Dict.group_ne_nil hentry).2
  split
  · -- A group that is not empty has an entry, so there is a minimum.
    rename_i hargmin
    obtain ⟨f, rest, rfl⟩ := List.exists_cons_of_ne_nil h
    have hget := Dict.get?_group PairFinding.repeatIndex (f :: rest) f.repeatIndex
    rw [if_neg (by simp), Dict.get?_eq_some_iff, List.argmin_eq_none.mp hargmin] at hget
    exact nomatch hget
  · -- No entry of a grouping is empty.
    rename_i hargmin
    exact absurd rfl (hmem (List.argmin_mem hargmin))
  · exact ⟨_, rfl⟩

/-- `_regressing_cases` returns. -/
theorem regressingCases_isOk (findings : List PairFinding) :
    ∃ cases, regressingCases findings = .ok cases := by
  have hcases : ∀ e ∈ (Dict.group PairFinding.caseId findings).entries, ∃ case,
      regressingCase e.1 e.2 = .ok case := by
    rintro ⟨caseId, group⟩ hmem
    obtain ⟨ref, href⟩ := representative_isOk (Dict.group_ne_nil hmem).2
    unfold regressingCase
    rw [href]
    exact ⟨_, rfl⟩
  obtain ⟨cases, hok⟩ := ExceptRules.exists_mapM_eq_ok_iff.mpr hcases
  unfold regressingCases
  dsimp only
  rw [hok]
  exact ⟨_, rfl⟩

/-! ### The diagnosis -/

/-- The keys of the matched pairs, in order. -/
def matchedKeys (bs cs : Dict PairKey EvaluationRun) : List PairKey :=
  Sorting.sorted (bs.keys.filter cs.contains)

/-- The diagnosis over the findings of the matched pairs. -/
def diagnosisOf (experiment : Experiment) (pairs : ℕ) (findings : List PairFinding) :
    Py RegressionDiagnostics := do
  pure
    { experimentId := experiment.id
      baselineVersionId := experiment.baselineVersionId
      candidateVersionId := experiment.candidateVersionId
      matchedPairs := pairs
      regressingPairs := (findings.map PairFinding.key).toFinset.card
      regressingCases := (findings.map PairFinding.caseId).toFinset.card
      categories := categoryCounts findings
      evaluators := evaluatorCounts findings
      cases := ← regressingCases findings
      findings
      available := decide (0 < pairs) }

/-- The findings of all matched pairs. -/
def allFindings (outcome : RunOutcome) (threshold : ℚ) (bs cs : Dict PairKey EvaluationRun) :
    List PairFinding :=
  (matchedKeys bs cs).flatMap fun key =>
    match bs.get? key, cs.get? key with
    | some b, some c => findingsOf outcome threshold key b c
    | _, _ => []

section

variable {experiment : Experiment} {outcome : RunOutcome} {threshold : ℚ}
  {bs cs : Dict PairKey EvaluationRun}

theorem mem_matchedKeys {key : PairKey} :
    key ∈ matchedKeys bs cs ↔ ∃ b c, bs.get? key = some b ∧ cs.get? key = some c := by
  unfold matchedKeys
  rw [Sorting.mem_sorted, List.mem_filter, Dict.mem_keys_iff, Dict.contains_iff]
  constructor
  · rintro ⟨⟨b, hb⟩, c, hc⟩
    exact ⟨b, c, hb, hc⟩
  · rintro ⟨b, c, hb, hc⟩
    exact ⟨⟨b, hb⟩, c, hc⟩

theorem nodup_matchedKeys : (matchedKeys bs cs).Nodup :=
  (Sorting.sorted_perm _).nodup_iff.mpr (bs.nodup.filter _)

/-- The diagnosis, once the runs are keyed. -/
theorem diagnoseRegressions_eq
    (hb : runsByKey outcome.runs experiment.baselineVersionId = .ok bs)
    (hc : runsByKey outcome.runs experiment.candidateVersionId = .ok cs) :
    diagnoseRegressions experiment outcome threshold
      = diagnosisOf experiment (matchedKeys bs cs).length
          (allFindings outcome threshold bs cs) := by
  have hloop : ((matchedKeys bs cs).mapM fun key => do
      pairFindings key (← runAt bs key) (← runAt cs key) outcome.resultsByRun threshold)
      = .ok ((matchedKeys bs cs).map fun key =>
          match bs.get? key, cs.get? key with
          | some b, some c => findingsOf outcome threshold key b c
          | _, _ => []) := by
    apply ExceptRules.mapM_eq_ok_map
    intro key hkey
    -- A matched key is in both dictionaries, so both lookups find their run.
    obtain ⟨b, c, hbk, hck⟩ := mem_matchedKeys.mp hkey
    unfold runAt
    rw [hbk, hck]
    exact pairFindings_eq_ok
  unfold diagnoseRegressions
  dsimp only
  rw [hb, ExceptRules.ok_bind, hc, ExceptRules.ok_bind,
    show Sorting.sorted (bs.keys.filter cs.contains) = matchedKeys bs cs from rfl,
    show Dict.ofList (outcome.caseResults.map fun cr => (cr.runId, cr)) = outcome.resultsByRun
      from rfl, hloop, ExceptRules.ok_bind]
  rw [show allFindings outcome threshold bs cs = ((matchedKeys bs cs).map fun key =>
      match bs.get? key, cs.get? key with
      | some b, some c => findingsOf outcome threshold key b c
      | _, _ => []).flatten from List.flatMap_def ..]
  rfl

/-- What a returned diagnosis is made of. -/
theorem diagnoseRegressions_eq_ok {d : RegressionDiagnostics}
    (h : diagnoseRegressions experiment outcome threshold = .ok d) :
    ∃ bs cs, runsByKey outcome.runs experiment.baselineVersionId = .ok bs ∧
      runsByKey outcome.runs experiment.candidateVersionId = .ok cs ∧
      d.findings = allFindings outcome threshold bs cs := by
  obtain ⟨bs, hb, hrest⟩ := ExceptRules.bind_eq_ok.mp h
  obtain ⟨cs, hc, _⟩ := ExceptRules.bind_eq_ok.mp hrest
  refine ⟨bs, cs, hb, hc, ?_⟩
  rw [diagnoseRegressions_eq hb hc] at h
  obtain ⟨cases, _, hd⟩ := ExceptRules.bind_eq_ok.mp h
  cases hd
  rfl

/-- The diagnosis returns exactly when neither version has two runs for one case and repeat. -/
theorem diagnoseRegressions_isOk_iff :
    (∃ d, diagnoseRegressions experiment outcome threshold = .ok d) ↔
      KeysDistinct outcome.runs experiment.baselineVersionId ∧
        KeysDistinct outcome.runs experiment.candidateVersionId := by
  constructor
  · rintro ⟨d, h⟩
    obtain ⟨bs, cs, hb, hc, _⟩ := diagnoseRegressions_eq_ok h
    exact ⟨runsByKey_isOk_iff.mp ⟨bs, hb⟩, runsByKey_isOk_iff.mp ⟨cs, hc⟩⟩
  · rintro ⟨hbs, hcs⟩
    obtain ⟨bs, hb⟩ := runsByKey_isOk_iff.mpr hbs
    obtain ⟨cs, hc⟩ := runsByKey_isOk_iff.mpr hcs
    -- Once the runs are keyed, no later stage raises.
    obtain ⟨cases, hcases⟩ := regressingCases_isOk (allFindings outcome threshold bs cs)
    rw [diagnoseRegressions_eq hb hc, diagnosisOf, hcases]
    exact ⟨_, rfl⟩

/-- A matched pair of the outcome is a matched key of the dictionaries. -/
theorem matched_iff_get? (hb : runsByKey outcome.runs experiment.baselineVersionId = .ok bs)
    (hc : runsByKey outcome.runs experiment.candidateVersionId = .ok cs) {key : PairKey}
    {b c : EvaluationRun} :
    Matched experiment outcome key b c ↔ bs.get? key = some b ∧ cs.get? key = some c := by
  rw [get?_runsByKey hb, get?_runsByKey hc]
  constructor
  · rintro ⟨hbm, hbv, hbk, hcm, hcv, hck⟩
    exact ⟨⟨hbm, hbv, hbk⟩, hcm, hcv, hck⟩
  · rintro ⟨⟨hbm, hbv, hbk⟩, hcm, hcv, hck⟩
    exact ⟨hbm, hbv, hbk, hcm, hcv, hck⟩

/-- A finding is one of a matched pair. -/
theorem mem_findings_iff {d : RegressionDiagnostics}
    (h : diagnoseRegressions experiment outcome threshold = .ok d) {f : PairFinding} :
    f ∈ d.findings ↔ ∃ key b c, Matched experiment outcome key b c ∧
      f ∈ findingsOf outcome threshold key b c := by
  obtain ⟨bs, cs, hb, hc, hfindings⟩ := diagnoseRegressions_eq_ok h
  rw [hfindings]
  unfold allFindings
  rw [List.mem_flatMap]
  constructor
  · rintro ⟨key, hkey, hf⟩
    obtain ⟨b, c, hbk, hck⟩ := mem_matchedKeys.mp hkey
    rw [hbk, hck] at hf
    exact ⟨key, b, c, (matched_iff_get? hb hc).mpr ⟨hbk, hck⟩, hf⟩
  · rintro ⟨key, b, c, hmatched, hf⟩
    obtain ⟨hbk, hck⟩ := (matched_iff_get? hb hc).mp hmatched
    refine ⟨key, mem_matchedKeys.mpr ⟨b, c, hbk, hck⟩, ?_⟩
    rw [hbk, hck]
    exact hf

/-- The findings with the key of a matched pair are the findings of the pair. -/
theorem filter_findings_key {d : RegressionDiagnostics}
    (h : diagnoseRegressions experiment outcome threshold = .ok d) {key : PairKey}
    {b c : EvaluationRun} (hmatched : Matched experiment outcome key b c) :
    d.findings.filter (fun f => decide (f.key = key)) = findingsOf outcome threshold key b c := by
  obtain ⟨bs, cs, hb, hc, hfindings⟩ := diagnoseRegressions_eq_ok h
  obtain ⟨hbk, hck⟩ := (matched_iff_get? hb hc).mp hmatched
  rw [hfindings, allFindings, ListRules.filter_flatMap_eq_part nodup_matchedKeys (x := key),
    if_pos (mem_matchedKeys.mpr ⟨b, c, hbk, hck⟩), hbk, hck]
  -- The findings of another pair carry its own key.
  intro other hother f hf
  obtain ⟨b', c', hbk', hck'⟩ := mem_matchedKeys.mp hother
  rw [hbk', hck'] at hf
  rw [(mem_findingsOf hf).1]

end

/-! ### The documented rule -/

/-- The kinds of the findings on one pair from one evaluator, or from none. -/
def findingsOn (findings : List PairFinding) (key : PairKey) (evaluator : Option NonBlank) :
    List FindingKind :=
  ((findings.filter fun f => decide (f.key = key)).filter fun f =>
    decide (f.evaluator = evaluator)).map PairFinding.kind

/-- The verdict of an evaluator went from passed to failed. -/
def PassToFail (sb sc : EvaluatorScore) : Prop := sb.passed = some true ∧ sc.passed = some false

instance (sb sc : EvaluatorScore) : Decidable (PassToFail sb sc) :=
  inferInstanceAs (Decidable (_ ∧ _))

/-- What the documentation reports about two scores of an evaluator: a verdict that went from
passed to failed, or otherwise a score that fell by at least the threshold. -/
def documentedKinds (threshold : ℚ) (sb sc : EvaluatorScore) : List FindingKind :=
  if PassToFail sb sc then [.evaluatorPassToFail]
  else if threshold ≤ sb.score - sc.score then [.evaluatorScoreDrop] else []

/-- The findings are those of the documented rule, and no others. -/
structure FindingsExact (experiment : Experiment) (outcome : RunOutcome) (threshold : ℚ)
    (findings : List PairFinding) : Prop where
  provider : ∀ key b c, Matched experiment outcome key b c →
    findingsOn findings key none
      = if c.error.isSome ∧ b.error = none then [.providerFailure] else []
  evaluator : ∀ key b c name, Matched experiment outcome key b c →
    findingsOn findings key (some name)
      = match outcome.scoredBy b name, outcome.scoredBy c name with
        | some sb, some sc => documentedKinds threshold sb sc
        | _, _ => []
  matched : ∀ f ∈ findings, ∃ key b c, Matched experiment outcome key b c ∧ f.key = key ∧
    f.baselineRunId = b.id ∧ f.candidateRunId = c.id

/-- A score of a matched pair fell by exactly the threshold, and its verdict did not go from
passed to failed. -/
def DropsByThreshold (experiment : Experiment) (outcome : RunOutcome) (threshold : ℚ) : Prop :=
  ∃ key b c name sb sc, Matched experiment outcome key b c ∧
    outcome.scoredBy b name = some sb ∧ outcome.scoredBy c name = some sc ∧
    ¬PassToFail sb sc ∧ sb.score - sc.score = threshold

section

variable {experiment : Experiment} {outcome : RunOutcome} {threshold : ℚ}
  {d : RegressionDiagnostics} (h : diagnoseRegressions experiment outcome threshold = .ok d)
  {key : PairKey} {b c : EvaluationRun}

include h

theorem findingsOn_provider (hmatched : Matched experiment outcome key b c) :
    findingsOn d.findings key none
      = if c.error.isSome ∧ b.error = none then [.providerFailure] else [] := by
  unfold findingsOn
  rw [filter_findings_key h hmatched, filter_findingsOf_none]
  unfold providerFindings
  cases c.error <;> cases b.error <;> simp

theorem findingsOn_evaluator (hmatched : Matched experiment outcome key b c) (name : NonBlank) :
    findingsOn d.findings key (some name)
      = match outcome.scoredBy b name, outcome.scoredBy c name with
        | some sb, some sc =>
            if PassToFail sb sc then [.evaluatorPassToFail]
            else if threshold < sb.score - sc.score then [.evaluatorScoreDrop] else []
        | _, _ => [] := by
  unfold findingsOn
  rw [filter_findings_key h hmatched, filter_findingsOf_some]
  unfold evaluatorFindingsOf
  split
  · rename_i sb sc _ _
    unfold evaluatorFindings
    dsimp only
    -- The code compares the candidate with the baseline less the threshold.
    have hdrop : sc.score < sb.score - threshold ↔ threshold < sb.score - sc.score := by
      constructor <;> intro hlt <;> linarith
    by_cases hpass : PassToFail sb sc
    · rw [if_pos hpass, if_pos (show sb.passed = some true ∧ sc.passed = some false from hpass)]
      rfl
    · rw [if_neg hpass, if_neg (show ¬(sb.passed = some true ∧ sc.passed = some false) from hpass)]
      by_cases hlt : threshold < sb.score - sc.score
      · rw [if_pos hlt, if_pos (hdrop.mpr hlt)]
        rfl
      · rw [if_neg hlt, if_neg fun hle => hlt (hdrop.mp hle)]
        rfl
  · rfl

end

/-- A score that fell by exactly the threshold is reported by the documented rule alone. -/
theorem not_exact_of_dropsByThreshold {experiment : Experiment} {outcome : RunOutcome}
    {threshold : ℚ} {d : RegressionDiagnostics}
    (h : diagnoseRegressions experiment outcome threshold = .ok d)
    (hdrops : DropsByThreshold experiment outcome threshold) :
    ¬FindingsExact experiment outcome threshold d.findings := by
  obtain ⟨key, b, c, name, sb, sc, hmatched, hsb, hsc, hpass, hdrop⟩ := hdrops
  intro hexact
  -- The rule lists a score drop, and the code lists nothing.
  have hdocumented := hexact.evaluator key b c name hmatched
  have hcode := findingsOn_evaluator h hmatched name
  rw [hsb, hsc] at hdocumented hcode
  rw [hdocumented] at hcode
  simp [documentedKinds, hpass, hdrop] at hcode

/-- The findings of a diagnosis are those of the documented rule exactly when no score of a
matched pair fell by exactly the threshold, apart from verdicts that went from passed to
failed. -/
theorem findings_exact_iff {experiment : Experiment} {outcome : RunOutcome} {threshold : ℚ}
    {d : RegressionDiagnostics} (h : diagnoseRegressions experiment outcome threshold = .ok d) :
    FindingsExact experiment outcome threshold d.findings ↔
      ¬DropsByThreshold experiment outcome threshold := by
  constructor
  · exact fun hexact hdrops => not_exact_of_dropsByThreshold h hdrops hexact
  · intro hno
    refine ⟨fun key b c hmatched => findingsOn_provider h hmatched, ?_, ?_⟩
    · intro key b c name hmatched
      rw [findingsOn_evaluator h hmatched name]
      split
      · rename_i sb sc hsb hsc
        unfold documentedKinds
        by_cases hpass : PassToFail sb sc
        · rw [if_pos hpass, if_pos hpass]
        · -- Away from the threshold the strict and the weak comparison agree.
          have hne : threshold ≠ sb.score - sc.score := fun heq =>
            hno ⟨key, b, c, name, sb, sc, hmatched, hsb, hsc, hpass, heq.symm⟩
          rw [if_neg hpass, if_neg hpass]
          simp only [lt_iff_le_and_ne, hne, ne_eq, not_false_eq_true, and_true]
      · rfl
    · intro f hf
      obtain ⟨key, b, c, hmatched, hmem⟩ := (mem_findings_iff h).mp hf
      obtain ⟨hkey, hb, hc⟩ := mem_findingsOf hmem
      exact ⟨key, b, c, hmatched, hkey, hb, hc⟩

/-! ### A drop of the threshold itself -/

/-- The run of the `k`-th version on the first case. -/
def judgedRun (k : ℕ) : EvaluationRun where
  experimentId := offlineId 0
  systemVersionId := offlineId k
  caseId := offlineId 0
  repeatIndex := 0
  output := ""
  usage := UsageMetrics.zero
  error := none
  retrieval := []
  toolCalls := []
  id := offlineId k
  createdAt := 0

theorem nonneg_of_mem_unit {score : ℚ} (h : 0 ≤ score ∧ score ≤ 1) : 0 ≤ score := h.1

theorem le_one_of_mem_unit {score : ℚ} (h : 0 ≤ score ∧ score ≤ 1) : score ≤ 1 := h.2

/-- A passing score. -/
def judgedScore (score : ℚ) (h : 0 ≤ score ∧ score ≤ 1) : EvaluatorScore where
  evaluator := offlineId 0
  family := .llmJudge
  score
  passed := some true
  score_nonneg := nonneg_of_mem_unit h
  score_le_one := le_one_of_mem_unit h

/-- The case result of the `k`-th run. -/
def judgedResult (k : ℕ) (score : ℚ) (h : 0 ≤ score ∧ score ≤ 1) : CaseResult where
  runId := offlineId k
  scores := [judgedScore score h]
  id := offlineId k
  createdAt := 0
  scores_nodup := List.nodup_singleton _

/-- A baseline with the score `1` and a candidate with the score `0.95`. -/
def judgedOutcome : RunOutcome where
  runs := [judgedRun 0, judgedRun 1]
  caseResults :=
    [judgedResult 0 1 ⟨zero_le_one, le_refl 1⟩, judgedResult 1 (19 / 20) (by norm_num)]

theorem judgedOutcome_isOk (threshold : ℚ) :
    ∃ d, diagnoseRegressions (offlineExperiment 1 (le_refl 1)) judgedOutcome threshold = .ok d := by
  rw [diagnoseRegressions_isOk_iff]
  have hne : offlineId 1 ≠ offlineId 0 := fun h => absurd (offlineId_injective h) (by decide)
  constructor
  · simp [KeysDistinct, judgedOutcome, judgedRun, offlineExperiment, hne]
  · simp [KeysDistinct, judgedOutcome, judgedRun, offlineExperiment, hne.symm]

/-- The rule on that outcome, for a threshold of `0`. -/
theorem findings_exact_iff_judged :
    ∃ d, diagnoseRegressions (offlineExperiment 1 (le_refl 1)) judgedOutcome 0 = .ok d ∧
      (FindingsExact (offlineExperiment 1 (le_refl 1)) judgedOutcome 0 d.findings ↔
        ¬DropsByThreshold (offlineExperiment 1 (le_refl 1)) judgedOutcome 0) := by
  obtain ⟨d, h⟩ := judgedOutcome_isOk 0
  exact ⟨d, h, findings_exact_iff h⟩

/-- A score that falls by the minimum drop itself, from `1` to `0.95`, is not reported. -/
theorem minimum_drop_unreported :
    ∃ d, diagnoseRegressions (offlineExperiment 1 (le_refl 1)) judgedOutcome minScoreDrop = .ok d ∧
      ¬FindingsExact (offlineExperiment 1 (le_refl 1)) judgedOutcome minScoreDrop d.findings := by
  obtain ⟨d, h⟩ := judgedOutcome_isOk minScoreDrop
  refine ⟨d, h, not_exact_of_dropsByThreshold h ?_⟩
  have hbaseline : judgedOutcome.scoredBy (judgedRun 0) (offlineId 0)
      = some (judgedScore 1 ⟨zero_le_one, le_refl 1⟩) := by
    with_unfolding_all rfl
  have hcandidate : judgedOutcome.scoredBy (judgedRun 1) (offlineId 0)
      = some (judgedScore (19 / 20) (by norm_num)) := by
    with_unfolding_all rfl
  refine ⟨toLex (offlineId 0, 0), judgedRun 0, judgedRun 1, offlineId 0, _, _,
    ⟨List.mem_cons_self, rfl, rfl, by simp [judgedOutcome], rfl, rfl⟩, hbaseline, hcandidate,
    ?_, ?_⟩
  · exact fun hpass => nomatch hpass.2
  · norm_num [judgedScore, minScoreDrop]

end EvalOps
