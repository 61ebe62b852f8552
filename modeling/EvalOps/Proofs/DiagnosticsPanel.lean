import EvalOps.Dashboard.DiagnosticsPanel
import EvalOps.Proofs.DiagnosticsTotals
import Mathlib.Data.List.ReduceOption

/-!
# `EvalOps.Proofs.DiagnosticsPanel`: the regressing cases on the page

The page gets the findings and the runs from two routes, and compares the scores of a pair on its
own. `panel_shows_the_findings` says that it finds the pair, that every finding of an evaluator on
it is a marked row, and that a marked row without a finding is a drop that the diagnosis
tolerates.

Both routes read the case result of a run by its identifier: `scoredBy_eq` is the score in the
diagnosis, and `get?_scoresByEvaluator` the one on the page.
-/

set_option autoImplicit false

namespace EvalOps.Dashboard

/-! ### The case results -/

section Records

variable {records : EvaluationRecords} {experimentId : EntityId} {outcome : RunOutcome}

theorem getCaseResultForRun_eq_ok {runId : EntityId} {caseResult : Option CaseResult}
    (h : records.getCaseResultForRun runId = .ok caseResult) :
    records.caseResults.filter (fun cr => decide (cr.runId = runId)) = caseResult.toList := by
  unfold EvaluationRecords.getCaseResultForRun at h
  split at h
  · rename_i hnil
    cases h
    exact hnil
  · rename_i hone
    cases h
    exact hone
  · cases h

/-- The case results of an outcome are those of its runs. -/
theorem outcome_eq_ok (h : records.outcome experimentId = .ok outcome) :
    outcome.runs = records.listForExperiment experimentId ∧
      ∃ found, List.Forall₂ (fun run caseResult =>
          records.getCaseResultForRun run.id = .ok caseResult) outcome.runs found ∧
        outcome.caseResults = found.reduceOption := by
  obtain ⟨found, hfound, h⟩ := ExceptRules.bind_eq_ok.mp h
  cases h
  exact ⟨rfl, found, ExceptRules.mapM_eq_ok_iff.mp hfound, rfl⟩

/-- The runs of an experiment have distinct identifiers, as all runs do. -/
theorem nodup_listForExperiment (hids : (records.runs.map EvaluationRun.id).Nodup)
    (experimentId : EntityId) :
    ((records.listForExperiment experimentId).map EvaluationRun.id).Nodup := by
  have hperm := (Sorting.sortedOn_perm (fun run : EvaluationRun => toLex (run.createdAt, run.id))
    (records.runs.filter fun run => decide (run.experimentId = experimentId))).map EvaluationRun.id
  exact hperm.nodup_iff.mpr (hids.sublist (List.filter_sublist.map _))

/-- What is found for a run belongs to it. -/
theorem runId_of_getCaseResultForRun {runId : EntityId} {caseResult : CaseResult}
    (h : records.getCaseResultForRun runId = .ok (some caseResult)) :
    caseResult ∈ records.caseResults ∧ caseResult.runId = runId := by
  have hmem : caseResult ∈ records.caseResults.filter fun cr => decide (cr.runId = runId) := by
    rw [getCaseResultForRun_eq_ok h]
    exact List.mem_singleton_self caseResult
  exact ⟨(List.mem_filter.mp hmem).1, of_decide_eq_true (List.mem_filter.mp hmem).2⟩

/-- The case results found, in the order of the runs. -/
theorem map_runId_sublist {runs : List EvaluationRun} {found : List (Option CaseResult)}
    (h : List.Forall₂ (fun run caseResult =>
      records.getCaseResultForRun run.id = .ok caseResult) runs found) :
    (found.reduceOption.map CaseResult.runId).Sublist (runs.map EvaluationRun.id) := by
  induction h with
  | nil => exact List.Sublist.slnil
  | @cons run caseResult runs found hrun _ ih =>
      cases caseResult with
      | none =>
          rw [List.reduceOption_cons_of_none, List.map_cons]
          exact ih.cons _
      | some caseResult =>
          rw [List.reduceOption_cons_of_some, List.map_cons, List.map_cons,
            (runId_of_getCaseResultForRun hrun).2]
          exact ih.cons_cons _

/-- The case result of a run, keyed by it. -/
theorem get?_resultsByRun (h : records.outcome experimentId = .ok outcome)
    (hids : (outcome.runs.map EvaluationRun.id).Nodup) {run : EvaluationRun}
    (hrun : run ∈ outcome.runs) {caseResult : Option CaseResult}
    (hget : records.getCaseResultForRun run.id = .ok caseResult) :
    outcome.resultsByRun.get? run.id = caseResult := by
  obtain ⟨_, found, hfound, hcaseResults⟩ := outcome_eq_ok h
  have hnodup : (outcome.caseResults.map CaseResult.runId).Nodup := by
    rw [hcaseResults]
    exact hids.sublist (map_runId_sublist hfound)
  unfold RunOutcome.resultsByRun
  cases caseResult with
  | some caseResult =>
      have hmem : caseResult ∈ outcome.caseResults := by
        obtain ⟨other, hother, hsame⟩ := ListRules.exists_of_forall₂_of_mem hfound hrun
        rw [hcaseResults, List.reduceOption_mem_iff]
        rwa [Except.ok.inj (hget.symm.trans hsame)]
      rw [← (runId_of_getCaseResultForRun hget).2]
      exact Dict.get?_ofList_map hnodup hmem
  | none =>
      rw [Dict.get?_ofList_map_eq_find? hnodup, List.find?_eq_none]
      intro caseResult hmem hid
      rw [hcaseResults, List.reduceOption_mem_iff] at hmem
      obtain ⟨run', hrun', hfind⟩ := ListRules.exists_of_forall₂_of_mem hfound.flip hmem
      -- It would have been found for this run as well.
      have hin : caseResult ∈ records.caseResults.filter fun cr => decide (cr.runId = run.id) :=
        List.mem_filter.mpr ⟨(runId_of_getCaseResultForRun hfind).1, hid⟩
      rw [getCaseResultForRun_eq_ok hget] at hin
      exact absurd hin List.not_mem_nil

end Records

/-! ### The page -/

/-- The runs of the page have the case results of the diagnosis. -/
theorem listExperimentRuns_eq_ok {records : EvaluationRecords} {experimentId : EntityId}
    {runs : List EvaluationRunRead} (h : listExperimentRuns records experimentId = .ok runs) :
    List.Forall₂ (fun run read => ∃ caseResult,
      records.getCaseResultForRun run.id = .ok caseResult ∧ read = .of run caseResult)
        (records.listForExperiment experimentId) runs := by
  refine (ExceptRules.mapM_eq_ok_iff.mp h).imp fun run read hread => ?_
  obtain ⟨caseResult, hget, hread⟩ := ExceptRules.bind_eq_ok.mp hread
  cases hread
  exact ⟨caseResult, hget, rfl⟩

/-- A run is found on the page. -/
theorem runById_of_mem {records : EvaluationRecords} {experimentId : EntityId}
    {runs : List EvaluationRunRead} (h : listExperimentRuns records experimentId = .ok runs)
    (hids : ((records.listForExperiment experimentId).map EvaluationRun.id).Nodup)
    {run : EvaluationRun} (hrun : run ∈ records.listForExperiment experimentId) :
    ∃ caseResult, records.getCaseResultForRun run.id = .ok caseResult ∧
      runById runs run.id.text = some (.of run caseResult) := by
  have hall := listExperimentRuns_eq_ok h
  obtain ⟨read, hread, caseResult, hget, rfl⟩ := ListRules.exists_of_forall₂_of_mem hall hrun
  have hnodup : (runs.map EvaluationRunRead.id).Nodup := by
    have hmap : (records.listForExperiment experimentId).map (fun run => run.id.text)
        = runs.map EvaluationRunRead.id := by
      refine ListRules.map_eq_map_of_forall₂ (hall.imp fun run read hread => ?_)
      obtain ⟨_, _, rfl⟩ := hread
      rfl
    rw [← hmap]
    have htexts := hids.map NonBlank.text_injective
    rwa [List.map_map] at htexts
  exact ⟨caseResult, hget, Dict.get?_ofList_map hnodup hread⟩

/-- The scores of a run on the page, by evaluator. -/
theorem get?_scoresByEvaluator (run : EvaluationRun) (caseResult : Option CaseResult)
    (evaluator : String) :
    (scoresByEvaluator (some (.of run caseResult))).get? evaluator =
      (((caseResult.map CaseResult.scores).getD []).find? fun s =>
        decide (s.evaluator.text = evaluator)).map EvaluatorScoreRead.of := by
  have hscores : (EvaluationRunRead.of run caseResult).scores
      = ((caseResult.map CaseResult.scores).getD []).map EvaluatorScoreRead.of := by
    cases caseResult <;> rfl
  have hnodup : ((((caseResult.map CaseResult.scores).getD []).map EvaluatorScoreRead.of).map
      EvaluatorScoreRead.evaluator).Nodup := by
    cases caseResult with
    | none => exact List.nodup_nil
    | some caseResult =>
        have htexts := caseResult.scores_nodup.map NonBlank.text_injective
        rw [List.map_map] at htexts ⊢
        exact htexts
  unfold scoresByEvaluator
  rw [Option.map_some, Option.getD_some, hscores, Dict.get?_ofList_map_eq_find? hnodup,
    List.find?_map]
  rfl

/-- The score of a run in the diagnosis: none when the run failed. -/
theorem scoredBy_eq {records : EvaluationRecords} {experimentId : EntityId} {outcome : RunOutcome}
    (h : records.outcome experimentId = .ok outcome)
    (hids : (outcome.runs.map EvaluationRun.id).Nodup) {run : EvaluationRun}
    (hrun : run ∈ outcome.runs) {caseResult : Option CaseResult}
    (hget : records.getCaseResultForRun run.id = .ok caseResult) (name : NonBlank) :
    outcome.scoredBy run name =
      if run.error.isSome then none
      else ((caseResult.map CaseResult.scores).getD []).find? fun s =>
        decide (s.evaluator = name) := by
  unfold RunOutcome.scoredBy scoreMap
  rw [get?_resultsByRun h hids hrun hget]
  split
  · rfl
  · cases caseResult with
    | none => rfl
    | some caseResult =>
        exact Dict.get?_ofList_map_eq_find? caseResult.scores_nodup name

section Pair

variable {outcome : RunOutcome} {b c : EvaluationRun} {baseline candidate : Option CaseResult}

/-- The page has the score that the diagnosis has. -/
def SameScores (outcome : RunOutcome) (run : EvaluationRun) (caseResult : Option CaseResult) :
    Prop :=
  ∀ name : NonBlank, outcome.scoredBy run name =
    if run.error.isSome then none
    else ((caseResult.map CaseResult.scores).getD []).find? fun s => decide (s.evaluator = name)

/-- A score of the diagnosis is on the page. -/
theorem SameScores.get?_of_scoredBy (h : SameScores outcome b baseline) {name : NonBlank}
    {score : EvaluatorScore} (hscore : outcome.scoredBy b name = some score) :
    (scoresByEvaluator (some (.of b baseline))).get? name.text = some (.of score) := by
  rw [h name] at hscore
  split at hscore
  · cases hscore
  · have htexts : (fun s : EvaluatorScore => decide (s.evaluator.text = name.text))
        = fun s => decide (s.evaluator = name) := by
      funext s
      simp [NonBlank.text_injective.eq_iff]
    rw [get?_scoresByEvaluator, htexts, hscore]
    rfl

/-- A score on the page of a run that completed is in the diagnosis. -/
theorem SameScores.scoredBy_of_get? (h : SameScores outcome b baseline) (herror : b.error = none)
    {evaluator : String} {read : EvaluatorScoreRead}
    (hread : (scoresByEvaluator (some (.of b baseline))).get? evaluator = some read) :
    ∃ score : EvaluatorScore, score.evaluator.text = evaluator ∧ read = .of score ∧
      outcome.scoredBy b score.evaluator = some score := by
  rw [get?_scoresByEvaluator, Option.map_eq_some_iff] at hread
  obtain ⟨score, hscore, rfl⟩ := hread
  have hname : score.evaluator.text = evaluator := by simpa using List.find?_some hscore
  have htexts : (fun s : EvaluatorScore => decide (s.evaluator.text = evaluator))
      = fun s => decide (s.evaluator = score.evaluator) := by
    funext s
    rw [← hname]
    simp [NonBlank.text_injective.eq_iff]
  refine ⟨score, hname, rfl, ?_⟩
  rw [h score.evaluator, herror, ← htexts, hscore]
  rfl

/-- A row of the page has the scores of its evaluator. -/
theorem mem_scoreTransitions {b c : Option EvaluationRunRead} {row : ScoreTransition} :
    row ∈ scoreTransitions b c ↔
      ((∃ s, (scoresByEvaluator b).get? row.evaluator = some s) ∨
        ∃ s, (scoresByEvaluator c).get? row.evaluator = some s) ∧
      row.baseline = (scoresByEvaluator b).get? row.evaluator ∧
      row.candidate = (scoresByEvaluator c).get? row.evaluator ∧
      row.regressed = regressed row.baseline row.candidate := by
  unfold scoreTransitions
  dsimp only
  rw [List.mem_map]
  simp only [(Sorting.sortedOn_perm _ _).mem_iff, List.mem_dedup, List.mem_append,
    Dict.mem_keys_iff]
  constructor
  · rintro ⟨evaluator, hmem, rfl⟩
    exact ⟨hmem, rfl, rfl, rfl⟩
  · rintro ⟨hmem, hbaseline, hcandidate, hregressed⟩
    refine ⟨row.evaluator, hmem, ?_⟩
    rw [← hbaseline, ← hcandidate, ← hregressed]

/-- Every row has a score. -/
theorem caseRowView_rows (runs : List EvaluationRunRead) (entry : RegressingCase) :
    (caseRowView runs entry).rows
      = scoreTransitions (caseRowView runs entry).baseline (caseRowView runs entry).candidate := by
  apply List.filter_eq_self.mpr
  intro row hrow
  obtain ⟨hsome, hbaseline, hcandidate, _⟩ := mem_scoreTransitions.mp hrow
  rw [hbaseline, hcandidate]
  rcases hsome with ⟨s, hs⟩ | ⟨s, hs⟩
  · rw [hs]
    rfl
  · rw [hs]
    exact Bool.or_true _

/-- The rule of the page on two scores of the diagnosis. -/
theorem regressed_of {sb sc : EvaluatorScore} :
    regressed (some (.of sb)) (some (.of sc)) = true ↔
      PassToFail sb sc ∨ sc.score < sb.score := by
  unfold regressed PassToFail EvaluatorScoreRead.of
  simp

end Pair

/-- An evaluator has a finding on a pair when it scored both runs, and the verdict or the score
went down. -/
theorem exists_finding_iff {experiment : Experiment} {outcome : RunOutcome} {threshold : ℚ}
    {d : RegressionDiagnostics} (h : diagnoseRegressions experiment outcome threshold = .ok d)
    {key : PairKey} {b c : EvaluationRun} (hmatched : Matched experiment outcome key b c)
    (name : NonBlank) :
    (∃ f ∈ d.findings, f.key = key ∧ f.evaluator = some name) ↔
      ∃ sb sc, outcome.scoredBy b name = some sb ∧ outcome.scoredBy c name = some sc ∧
        (PassToFail sb sc ∨ threshold < sb.score - sc.score) := by
  have hkinds : (∃ f ∈ d.findings, f.key = key ∧ f.evaluator = some name) ↔
      findingsOn d.findings key (some name) ≠ [] := by
    unfold findingsOn
    rw [Ne, List.map_eq_nil_iff, List.filter_eq_nil_iff]
    simp
  rw [hkinds, findingsOn_evaluator h hmatched]
  cases hb : outcome.scoredBy b name with
  | none => simp
  | some sb =>
      cases hc : outcome.scoredBy c name with
      | none => simp
      | some sc =>
          by_cases hpass : PassToFail sb sc
          · simp [hpass]
          · by_cases hdrop : threshold < sb.score - sc.score <;> simp [hpass, hdrop]

/-! ### One case -/

/-- The run of a version on the representative pair of a case. -/
structure IsRunOf (versionId : EntityId) (case : RegressingCase) (run : EvaluationRunRead) :
    Prop where
  version : run.systemVersionId = versionId.text
  case_id : run.caseId = case.caseId.text
  repeat_index : run.repeatIndex = case.representative.repeatIndex

/-- The diagnosis has a finding of the evaluator on the representative pair of a case. -/
def FoundOn (d : RegressionDiagnostics) (case : RegressingCase) (evaluator : String) : Prop :=
  ∃ f ∈ d.findings, f.caseId = case.caseId ∧ f.repeatIndex = case.representative.repeatIndex ∧
    f.evaluator.map NonBlank.text = some evaluator

/-- A drop that the diagnosis tolerates. -/
def SmallDrop (row : ScoreTransition) : Prop :=
  ∃ sb sc, row.baseline = some sb ∧ row.candidate = some sc ∧ sc.score < sb.score ∧
    sb.score - sc.score ≤ minScoreDrop

/-- The row of a regressing case on the page. -/
structure CaseShown (experiment : Experiment) (d : RegressionDiagnostics) (case : RegressingCase)
    (b c : EvaluationRunRead) (rows : List ScoreTransition) : Prop where
  baseline : IsRunOf experiment.baselineVersionId case b
  candidate : IsRunOf experiment.candidateVersionId case c
  marks_findings : ∀ evaluator, FoundOn d case evaluator →
    ∃ row ∈ rows, row.evaluator = evaluator ∧ row.regressed = true
  explains_marks : b.error = none → c.error = none → ∀ row ∈ rows,
    (row.regressed = true ↔ FoundOn d case row.evaluator ∨ SmallDrop row)

/-- The page finds the two runs of every regressing case. Each finding of an evaluator on them is a
marked row, and where both runs completed, a marked row is a finding or a drop that the diagnosis
tolerates. -/
theorem panel_shows_the_findings {records : EvaluationRecords} {experiment : Experiment}
    {d : RegressionDiagnostics} {runs : List EvaluationRunRead}
    (hids : (records.runs.map EvaluationRun.id).Nodup)
    (hd : getExperimentDiagnostics records experiment = .ok d)
    (hruns : listExperimentRuns records experiment.id = .ok runs)
    {case : RegressingCase} (hcase : case ∈ d.cases) :
    ∃ b c, (caseRowView runs case).baseline = some b ∧
      (caseRowView runs case).candidate = some c ∧
      CaseShown experiment d case b c (caseRowView runs case).rows := by
  obtain ⟨outcome, houtcome, hd⟩ := ExceptRules.bind_eq_ok.mp hd
  have hlist := (outcome_eq_ok houtcome).1
  have hnodup := nodup_listForExperiment hids experiment.id
  have hrunids : (outcome.runs.map EvaluationRun.id).Nodup := hlist ▸ hnodup
  obtain ⟨_, _, _, _, hrows⟩ := diagnosis_fields hd
  -- The runs of the representative pair are on the page, with their case results.
  obtain ⟨b, c, hmatched, hbid, hcid⟩ := representative_matched hd (caseRow_of_mem hrows hcase)
  obtain ⟨rb, hgetb, hfindb⟩ := runById_of_mem hruns hnodup (hlist ▸ hmatched.baseline_mem)
  obtain ⟨rc, hgetc, hfindc⟩ := runById_of_mem hruns hnodup (hlist ▸ hmatched.candidate_mem)
  have hsb : SameScores outcome b rb := scoredBy_eq houtcome hrunids hmatched.baseline_mem hgetb
  have hsc : SameScores outcome c rc := scoredBy_eq houtcome hrunids hmatched.candidate_mem hgetc
  have hbaseline : (caseRowView runs case).baseline = some (.of b rb) := by
    show runById runs case.representative.baselineRunId.text = _
    rw [hbid, hfindb]
  have hcandidate : (caseRowView runs case).candidate = some (.of c rc) := by
    show runById runs case.representative.candidateRunId.text = _
    rw [hcid, hfindc]
  have hfound : ∀ name : NonBlank, FoundOn d case name.text ↔
      ∃ sb sc, outcome.scoredBy b name = some sb ∧ outcome.scoredBy c name = some sc ∧
        (PassToFail sb sc ∨ minScoreDrop < sb.score - sc.score) := by
    intro name
    rw [← exists_finding_iff hd hmatched name]
    have hkey : ∀ f : PairFinding,
        f.key = toLex (case.caseId, case.representative.repeatIndex) ↔
          f.caseId = case.caseId ∧ f.repeatIndex = case.representative.repeatIndex := fun f => by
      simp [PairFinding.key, Prod.ext_iff]
    have hname : ∀ f : PairFinding, f.evaluator.map NonBlank.text = some name.text ↔
        f.evaluator = some name := fun f => by
      cases f.evaluator <;> simp [NonBlank.text_injective.eq_iff]
    simp only [FoundOn, hkey, hname, and_assoc]
  have hdrop : (0 : ℚ) < minScoreDrop := by norm_num [minScoreDrop]
  refine ⟨_, _, hbaseline, hcandidate, ?_⟩
  rw [caseRowView_rows, hbaseline, hcandidate]
  refine
    { baseline := ⟨congrArg NonBlank.text hmatched.baseline_version, ?_, ?_⟩
      candidate := ⟨congrArg NonBlank.text hmatched.candidate_version, ?_, ?_⟩
      marks_findings := ?_
      explains_marks := ?_ }
  · exact congrArg (fun key : PairKey => (ofLex key).1.text) hmatched.baseline_key
  · exact congrArg (fun key : PairKey => (ofLex key).2) hmatched.baseline_key
  · exact congrArg (fun key : PairKey => (ofLex key).1.text) hmatched.candidate_key
  · exact congrArg (fun key : PairKey => (ofLex key).2) hmatched.candidate_key
  · -- A finding has its scores on both sides, and they are on the page.
    intro evaluator hevaluator
    obtain ⟨f, _, _, _, hf⟩ := id hevaluator
    obtain ⟨name, _, rfl⟩ := Option.map_eq_some_iff.mp hf
    obtain ⟨sb, sc, hb, hc, hrule⟩ := (hfound name).mp hevaluator
    have hpage := hsb.get?_of_scoredBy hb
    have hpage' := hsc.get?_of_scoredBy hc
    refine ⟨⟨name.text, some (.of sb), some (.of sc), true⟩, ?_, rfl, rfl⟩
    refine mem_scoreTransitions.mpr ⟨Or.inl ⟨_, hpage⟩, hpage.symm, hpage'.symm, ?_⟩
    exact (regressed_of.mpr (hrule.imp id fun hlt => by linarith)).symm
  · intro hberror hcerror row hrow
    obtain ⟨_, hrowb, hrowc, hregressed⟩ := mem_scoreTransitions.mp hrow
    have hberror := Option.map_eq_none_iff.mp hberror
    have hcerror := Option.map_eq_none_iff.mp hcerror
    have hscores : FoundOn d case row.evaluator →
        (∃ s, row.baseline = some s) ∧ ∃ s, row.candidate = some s := by
      intro hevaluator
      obtain ⟨f, _, _, _, hf⟩ := id hevaluator
      obtain ⟨name, _, hname⟩ := Option.map_eq_some_iff.mp hf
      rw [← hname] at hevaluator hrowb hrowc
      obtain ⟨sb, sc, hb, hc, _⟩ := (hfound name).mp hevaluator
      exact ⟨⟨_, hrowb.trans (hsb.get?_of_scoredBy hb)⟩, ⟨_, hrowc.trans (hsc.get?_of_scoredBy hc)⟩⟩
    cases hbase : row.baseline with
    | none =>
        -- Without a score of the baseline there is nothing to compare.
        rw [hregressed, hbase]
        refine iff_of_false Bool.false_ne_true (not_or.mpr ⟨fun hevaluator => ?_, ?_⟩)
        · obtain ⟨⟨s, hs⟩, _⟩ := hscores hevaluator
          cases hbase.symm.trans hs
        · rintro ⟨sb, _, hs, _⟩
          cases hbase.symm.trans hs
    | some sb =>
        cases hcand : row.candidate with
        | none =>
            rw [hregressed, hbase, hcand]
            refine iff_of_false Bool.false_ne_true (not_or.mpr ⟨fun hevaluator => ?_, ?_⟩)
            · obtain ⟨_, ⟨s, hs⟩⟩ := hscores hevaluator
              cases hcand.symm.trans hs
            · rintro ⟨_, sc, _, hs, _⟩
              cases hcand.symm.trans hs
        | some sc =>
            obtain ⟨score, hname, rfl, hb⟩ :=
              hsb.scoredBy_of_get? hberror (hrowb.symm.trans hbase)
            obtain ⟨score', hname', rfl, hc⟩ :=
              hsc.scoredBy_of_get? hcerror (hrowc.symm.trans hcand)
            rw [NonBlank.text_injective (hname'.trans hname.symm)] at hc
            have hrule : FoundOn d case row.evaluator ↔
                PassToFail score score' ∨ minScoreDrop < score.score - score'.score := by
              rw [← hname, hfound]
              simp [hb, hc]
            have hsmall : SmallDrop row ↔
                score'.score < score.score ∧ score.score - score'.score ≤ minScoreDrop := by
              simp [SmallDrop, hbase, hcand, EvaluatorScoreRead.of]
            rw [hregressed, hbase, hcand, regressed_of, hrule, hsmall]
            -- A drop is more than the tolerated one, or at most it.
            constructor
            · rintro (hpass | hlt)
              · exact Or.inl (Or.inl hpass)
              · rcases lt_or_ge minScoreDrop (score.score - score'.score) with hmore | hless
                · exact Or.inl (Or.inr hmore)
                · exact Or.inr ⟨hlt, hless⟩
            · rintro ((hpass | hmore) | ⟨hlt, _⟩)
              · exact Or.inl hpass
              · exact Or.inr (by linarith)
              · exact Or.inr hlt

theorem zero_mem_unit : (0 : ℚ) ≤ 0 ∧ (0 : ℚ) ≤ 1 := by norm_num

theorem one_mem_unit : (0 : ℚ) ≤ 1 ∧ (1 : ℚ) ≤ 1 := by norm_num

/-- A baseline with the score `1` and a candidate with the score `0`, as they are stored. -/
def judgedRecords : EvaluationRecords where
  runs := [judgedRun 0, judgedRun 1]
  caseResults := [judgedResult 0 1 one_mem_unit, judgedResult 1 0 zero_mem_unit]

/-- The page on these records. -/
theorem panel_shows_the_judged_finding :
    ∃ d runs case b c,
      getExperimentDiagnostics judgedRecords (offlineExperiment 1 (le_refl 1)) = .ok d ∧
      listExperimentRuns judgedRecords (offlineExperiment 1 (le_refl 1)).id = .ok runs ∧
      case ∈ d.cases ∧ (caseRowView runs case).baseline = some b ∧
      (caseRowView runs case).candidate = some c ∧
      CaseShown (offlineExperiment 1 (le_refl 1)) d case b c (caseRowView runs case).rows := by
  have hdiagnosis : (getExperimentDiagnostics judgedRecords
      (offlineExperiment 1 (le_refl 1))).toOption.any (fun d => !d.cases.isEmpty) = true := by
    decide +kernel
  have hread : (listExperimentRuns judgedRecords
      (offlineExperiment 1 (le_refl 1)).id).toOption.isSome = true := by
    decide +kernel
  obtain ⟨d, hd, hcases⟩ := (Option.any_eq_true _ _).mp hdiagnosis
  obtain ⟨runs, hruns⟩ := Option.isSome_iff_exists.mp hread
  have hd := ExceptRules.toOption_eq_some.mp hd
  have hruns := ExceptRules.toOption_eq_some.mp hruns
  have hids : (judgedRecords.runs.map EvaluationRun.id).Nodup := by
    have hne : offlineId 0 ≠ offlineId 1 := fun h => absurd (offlineId_injective h) (by decide)
    simp [judgedRecords, judgedRun, hne]
  obtain ⟨case, hcase⟩ : ∃ case, case ∈ d.cases := by
    cases hempty : d.cases with
    | nil => simp [hempty] at hcases
    | cons case cases => exact ⟨case, List.mem_cons_self⟩
  obtain ⟨b, c, hshown⟩ := panel_shows_the_findings hids hd hruns hcase
  exact ⟨d, runs, case, b, c, hd, hruns, hcase, hshown⟩

end EvalOps.Dashboard
