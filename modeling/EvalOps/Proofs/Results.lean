import EvalOps.Api.Results
import EvalOps.Proofs.Assess
import EvalOps.Proofs.Mapping
import EvalOps.Proofs.Returns

/-!
# `EvalOps.Proofs.Results`: the results view repeats the response

Once an experiment has run, `GET /experiments/{id}/results` shows one result, with the decision,
the reasons, the advisories, the metric lines and the evidence of the response, whatever is written
later and in whatever order the child rows are kept.

The view reads the experiment, its policy and its result from the tables. `DbTables.Keeps` says
that they are there and alone: it holds after the execution (`Executed.keeps`), and every later
write keeps it (`DbTables.Keeps.wrote`), since an experiment with runs is not run again. The
conversions are faithful, so the gate gets what it got before.
-/

set_option autoImplicit false

namespace EvalOps

open Effect

/-! ### Reading -/

/-- A row that is found is still found when rows are added. -/
theorem getById_append {ρ α : Type} {rows : List ρ} {rowId : ρ → String} {fromOrm : ρ → Py α}
    {id : String} {x : α} (h : getById rows rowId fromOrm id = .ok (some x)) (more : List ρ) :
    getById (rows ++ more) rowId fromOrm id = .ok (some x) := by
  unfold getById at h ⊢
  cases hfind : rows.find? fun row => decide (rowId row = id) with
  | none =>
      rw [hfind] at h
      exact nomatch h
  | some row =>
      rw [hfind] at h
      rw [List.find?_append, hfind]
      exact h

/-- What a lookup returns comes from a row with the key. -/
theorem getById_eq_ok {ρ α : Type} {rows : List ρ} {rowId : ρ → String} {fromOrm : ρ → Py α}
    {id : String} {x : α} (h : getById rows rowId fromOrm id = .ok (some x)) :
    ∃ row, rowId row = id ∧ fromOrm row = .ok x := by
  unfold getById at h
  cases hfind : rows.find? fun row => decide (rowId row = id) with
  | none =>
      rw [hfind] at h
      exact nomatch h
  | some row =>
      rw [hfind] at h
      refine ⟨row, by simpa using List.find?_some hfind, ?_⟩
      cases hrow : fromOrm row with
      | error exc =>
          simp only [hrow] at h
          exact nomatch h
      | ok y =>
          simp only [hrow] at h
          cases h
          rfl

/-- The tables have the policy that the experiment names. -/
def DbTables.ReadsPolicy (tables : DbTables) (experiment : Experiment)
    (policy : Option ReleasePolicy) : Prop :=
  match experiment.releasePolicyId with
  | none => policy = none
  | some policyId =>
      ∃ p, tables.getReleasePolicy policyId.text = .ok (some p) ∧ policy = some p

/-- An experiment without stored runs has no run row. -/
theorem not_mem_of_listRuns {conv : Conversions} {tables : DbTables} {id : String}
    (h : tables.listRuns conv id = .ok []) :
    ∀ row ∈ tables.evaluationRuns, row.experimentId ≠ id := by
  intro row hrow hid
  unfold DbTables.listRuns listByExperiment at h
  -- The listing maps every row of the experiment, so an empty listing has no row.
  have hnil := List.forall₂_nil_right_iff.mp (ExceptRules.mapM_eq_ok_iff.mp h)
  have hmem : row ∈ tables.evaluationRuns.filter fun row => decide (row.experimentId = id) :=
    List.mem_filter.mpr ⟨hrow, by simpa using hid⟩
  have hsorted := (Sorting.sortedOn_perm (fun row : EvaluationRunRow =>
    toLex (row.createdAt.attachUtc, row.id)) _).mem_iff.mpr hmem
  rw [hnil] at hsorted
  exact nomatch hsorted

/-! ### What an execution does -/

/-- What `require` returns was there. -/
theorem require_eq_ok {α : Type} {value : Option α} {kind : String} {ref : EntityId} {x : α}
    (h : require value kind ref = .ok x) : value = some x := by
  unfold require at h
  cases value with
  | none => exact nomatch h
  | some y =>
      cases h
      rfl

/-- A plan is loaded for an experiment that is there, has no runs, and whose policy is there. -/
theorem loadPersisted_eq_ok {repos : Repositories} {experimentId : EntityId}
    {buildEvaluators : Py (List Evaluator)}
    {buildProviders : SystemVersion → SystemVersion → Py (Dict ProviderName ProviderClient)}
    {plan : RunPlan}
    (h : loadPersisted repos experimentId buildEvaluators buildProviders = .ok plan) :
    repos.experiment experimentId = .ok (some plan.experiment) ∧
      repos.listRuns plan.experiment.id = .ok [] ∧
      (match plan.experiment.releasePolicyId with
        | none => plan.policy = none
        | some policyId =>
            ∃ p, repos.releasePolicy policyId = .ok (some p) ∧ plan.policy = some p) := by
  unfold loadPersisted at h
  obtain ⟨persisted, hread, h⟩ := ExceptRules.bind_eq_ok.mp h
  obtain ⟨_, _, h⟩ := ExceptRules.bind_eq_ok.mp h
  obtain ⟨_, _, h⟩ := ExceptRules.bind_eq_ok.mp h
  cases h
  unfold readPersisted at hread
  obtain ⟨found, hfound, hread⟩ := ExceptRules.bind_eq_ok.mp hread
  cases found with
  | none => exact nomatch hread
  | some experiment =>
      obtain ⟨runs, hruns, hread⟩ := ExceptRules.bind_eq_ok.mp hread
      cases runs with
      -- An experiment with runs is a conflict.
      | cons run runs => exact nomatch hread
      | nil =>
          -- The four entities, each looked up and required.
          simp only [List.isEmpty_nil, not_true_eq_false, if_false, ExceptRules.bind_eq_ok]
            at hread
          obtain ⟨_, -, project, -, _, -, dataset, -, _, -, baseline, -, _, -, candidate, -,
            hread⟩ := hread
          cases hid : experiment.releasePolicyId with
          | none =>
              simp only [hid, ExceptRules.bind_eq_ok] at hread
              obtain ⟨policy, hpolicy, hread⟩ := hread
              cases hpolicy
              cases hread
              refine ⟨hfound, hruns, ?_⟩
              simp [Persisted.plan, hid]
          | some policyId =>
              simp only [hid, ExceptRules.bind_eq_ok] at hread
              obtain ⟨value, hvalue, p, hp, policy, hpolicy, hread⟩ := hread
              cases hpolicy
              cases hread
              refine ⟨hfound, hruns, ?_⟩
              simp only [Persisted.plan, hid]
              exact ⟨p, by rw [hvalue, require_eq_ok hp], rfl⟩

/-- The gate of an assessment is that of its result. -/
theorem assess_gate {rt : Runtime} {experiment : Experiment} {names : List String}
    {policy : Option ReleasePolicy} {stamp : Stamp} {outcome : RunOutcome} {a : EvaluationOutcome}
    (h : assess rt experiment names policy stamp outcome = .ok a) :
    a.outcome = outcome ∧ evaluateGate a.result policy = .ok a.gate := by
  unfold assess at h
  obtain ⟨_, _, h⟩ := ExceptRules.bind_eq_ok.mp h
  obtain ⟨_, _, h⟩ := ExceptRules.bind_eq_ok.mp h
  obtain ⟨_, _, h⟩ := ExceptRules.bind_eq_ok.mp h
  obtain ⟨gate, hgate, h⟩ := ExceptRules.bind_eq_ok.mp h
  cases h
  exact ⟨rfl, hgate⟩

/-- The runs of a grid are there, and belong to the experiment. -/
theorem Grid.runs_of_experiment {experiment : Experiment} {caseIds : List EntityId}
    {names : List String} (g : Grid experiment caseIds names) :
    g.outcome.runs ≠ [] ∧ ∀ run ∈ g.outcome.runs, run.experimentId = experiment.id := by
  constructor
  · intro hnil
    have hkeys := g.keys_ne_nil
    simp only [Grid.outcome, Grid.trials, List.map_eq_nil_iff, List.append_eq_nil_iff] at hnil
    exact hkeys hnil.1
  · intro run hrun
    obtain ⟨trial, htrial, rfl⟩ := List.mem_map.mp hrun
    -- A trial of either version records the experiment.
    rcases List.mem_append.mp htrial with h | h
    · obtain ⟨key, hkey, rfl⟩ := List.mem_map.mp h
      exact (g.baseline_records key hkey).experimentId
    · obtain ⟨key, hkey, rfl⟩ := List.mem_map.mp h
      exact (g.candidate_records key hkey).experimentId

/-- What an execution that returned found, computed and answered. -/
structure Executed (conv : Conversions) (tables : DbTables) (experiment : Experiment)
    (policy : Option ReleasePolicy) (evaluation : EvaluationOutcome) (response : RunResponse) :
    Prop where
  found : tables.getExperiment experiment.id.text = .ok (some experiment)
  readsPolicy : tables.ReadsPolicy experiment policy
  fresh : tables.listRuns conv experiment.id.text = .ok []
  runs_ne_nil : evaluation.outcome.runs ≠ []
  runs : ∀ run ∈ evaluation.outcome.runs, run.experimentId = experiment.id
  result : evaluation.result.experimentId = experiment.id
  gate : evaluateGate evaluation.result policy = .ok evaluation.gate
  responded : ∃ dataset baseline candidate,
    RunResponse.of experiment dataset baseline candidate evaluation.outcome.runs evaluation.result
      evaluation.gate evaluation.result.id = .ok response

theorem executed_of_route {conv : Conversions} {tables : DbTables} {env : Environment}
    {rt : Runtime} {flushes : Flushes} {experimentId : EntityId}
    {buildEvaluators : Py (List Evaluator)}
    {buildProviders : SystemVersion → SystemVersion → Py (Dict ProviderName ProviderClient)}
    {s t : ℕ} {evaluation : EvaluationOutcome} {response : RunResponse}
    (h : exec (runExperimentRoute env rt (tables.repositories conv flushes) experimentId
      buildEvaluators buildProviders) s = (.ok (evaluation, response), t)) :
    ∃ experiment policy, Executed conv tables experiment policy evaluation response := by
  obtain ⟨plan, hload, h⟩ := exec_lift_bind_eq_ok.mp h
  obtain ⟨evaluation', s', hevaluate, h⟩ := exec_bind_eq_ok.mp h
  obtain ⟨stored, hpersist, h⟩ := exec_lift_bind_eq_ok.mp h
  obtain ⟨response', hresponse, h⟩ := exec_lift_bind_eq_ok.mp h
  cases h
  obtain ⟨hfound, hfresh, hpolicy⟩ := loadPersisted_eq_ok hload
  obtain ⟨row, hrow, hmap⟩ := getById_eq_ok hfound
  have hid : plan.experiment.id.text = experimentId.text :=
    (Experiment.init_eq_ok hmap).2.2.2.2.trans hrow
  -- The evaluation assesses the outcome of a grid.
  obtain ⟨outcome, hproduced, hassess⟩ := runEvaluation_eq_ok hevaluate
  obtain ⟨g, rfl⟩ := hproduced.grid
  obtain ⟨houtcome, hgate⟩ := assess_gate hassess
  obtain ⟨hruns_ne_nil, hruns⟩ := g.runs_of_experiment
  -- The stored result is the result itself.
  have hstored : stored.2 = evaluation.result.id := by
    obtain ⟨_, _, hpersist⟩ := ExceptRules.bind_eq_ok.mp hpersist
    obtain ⟨_, _, hpersist⟩ := ExceptRules.bind_eq_ok.mp hpersist
    obtain ⟨result, hadd, hpersist⟩ := ExceptRules.bind_eq_ok.mp hpersist
    cases hpersist
    cases hflush : flushes.result evaluation.result with
    | error exc =>
        simp only [DbTables.repositories, hflush] at hadd
        exact nomatch hadd
    | ok _ =>
        simp only [DbTables.repositories, hflush] at hadd
        cases hadd
        rfl
  refine ⟨plan.experiment, plan.policy, ?_, hpolicy, hfresh, ?_, ?_,
    (g.of_assess hassess).1.experimentId, hgate, plan.dataset, plan.baseline, plan.candidate, ?_⟩
  · rw [hid]
    exact hfound
  · rw [houtcome]
    exact hruns_ne_nil
  · rw [houtcome]
    exact hruns
  · rw [← hstored]
    exact hresponse

/-! ### What later writes keep -/

/-- Every stored result has a stored run of its experiment. -/
def DbTables.RunsBehind (tables : DbTables) : Prop :=
  ∀ row ∈ tables.evaluationResults,
    ∃ run ∈ tables.evaluationRuns, run.experimentId = row.experimentId

/-- A reordered row keeps its columns. -/
theorem EvaluationResultRow.Reordered.experimentId {row row' : EvaluationResultRow}
    (h : row.Reordered row') : row'.experimentId = row.experimentId := by
  obtain ⟨_, _, _, _, rfl⟩ := h
  rfl

theorem EvaluationResultRow.Reordered.trans {a b c : EvaluationResultRow} (hab : a.Reordered b)
    (hbc : b.Reordered c) : a.Reordered c := by
  obtain ⟨metrics, evidence, hmetrics, hevidence, rfl⟩ := hab
  obtain ⟨metrics', evidence', hmetrics', hevidence', rfl⟩ := hbc
  exact ⟨metrics', evidence', hmetrics'.trans hmetrics, hevidence'.trans hevidence, rfl⟩

theorem runsBehind_empty : DbTables.empty.RunsBehind := fun _ h => nomatch h

/-- An execution adds its runs with its result. -/
theorem Executed.runsBehind {conv : Conversions} {tables : DbTables} {experiment : Experiment}
    {policy : Option ReleasePolicy} {evaluation : EvaluationOutcome} {response : RunResponse}
    (h : Executed conv tables experiment policy evaluation response) (hbehind : tables.RunsBehind) :
    (tables.persisted evaluation).RunsBehind := by
  intro row hrow
  rcases List.mem_append.mp hrow with hold | hnew
  · obtain ⟨run, hrun, hid⟩ := hbehind row hold
    exact ⟨run, List.mem_append_left _ hrun, hid⟩
  · -- The new result has the runs of its own execution behind it.
    rw [List.mem_singleton.mp hnew]
    obtain ⟨run, hrun⟩ := List.exists_mem_of_ne_nil _ h.runs_ne_nil
    refine ⟨evaluationRunToOrm run,
      List.mem_append_right _ (List.mem_map_of_mem (f := evaluationRunToOrm) hrun), ?_⟩
    show run.experimentId.text = evaluation.result.experimentId.text
    rw [h.runs run hrun, h.result]

theorem DbTables.RunsBehind.wrote {conv : Conversions} (tables : DbTables) (write : TableWrite)
    (tables' : DbTables) (hbehind : tables.RunsBehind) (h : Wrote conv tables write tables') :
    tables'.RunsBehind := by
  cases h with
  | created => exact hbehind
  | reordered hreordered =>
      -- A reordering changes neither the runs nor the experiment of a result.
      intro row' hrow'
      obtain ⟨row, hrow, hsame⟩ :=
        ListRules.exists_of_forall₂_of_mem hreordered.evaluationResults.flip hrow'
      have hid : row'.experimentId = row.experimentId :=
        EvaluationResultRow.Reordered.experimentId hsame
      rw [hreordered.evaluationRuns, hid]
      exact hbehind row hrow
  | executed hexec =>
      obtain ⟨_, _, hexecuted⟩ := executed_of_route hexec
      exact hexecuted.runsBehind hbehind

/-- The tables have the experiment, its policy, and one result of it, with runs behind it. -/
structure DbTables.Keeps (tables : DbTables) (experiment : Experiment)
    (policy : Option ReleasePolicy) (result : EvaluationResult) : Prop where
  found : tables.getExperiment experiment.id.text = .ok (some experiment)
  readsPolicy : tables.ReadsPolicy experiment policy
  ran : ∃ run ∈ tables.evaluationRuns, run.experimentId = experiment.id.text
  alone : ∃ row, (evaluationResultToOrm result).Reordered row ∧
    tables.evaluationResults.filter
      (fun row => decide (row.experimentId = experiment.id.text)) = [row]

/-- An execution leaves one result of its experiment. -/
theorem Executed.keeps {conv : Conversions} {tables : DbTables} {experiment : Experiment}
    {policy : Option ReleasePolicy} {evaluation : EvaluationOutcome} {response : RunResponse}
    (h : Executed conv tables experiment policy evaluation response) (hbehind : tables.RunsBehind) :
    (tables.persisted evaluation).Keeps experiment policy evaluation.result where
  found := h.found
  readsPolicy := h.readsPolicy
  ran := by
    obtain ⟨run, hrun⟩ := List.exists_mem_of_ne_nil _ h.runs_ne_nil
    refine ⟨evaluationRunToOrm run,
      List.mem_append_right _ (List.mem_map_of_mem (f := evaluationRunToOrm) hrun), ?_⟩
    exact congrArg NonBlank.text (h.runs run hrun)
  alone := by
    refine ⟨evaluationResultToOrm evaluation.result,
      ⟨_, _, List.Perm.refl _, List.Perm.refl _, rfl⟩, ?_⟩
    -- There was no result before: it would have had a run behind it.
    have hnone : tables.evaluationResults.filter
        (fun row => decide (row.experimentId = experiment.id.text)) = [] := by
      rw [List.filter_eq_nil_iff]
      intro row hrow hid
      obtain ⟨run, hrun, hsame⟩ := hbehind row hrow
      exact not_mem_of_listRuns h.fresh run hrun (hsame.trans (by simpa using hid))
    have hnew : (evaluationResultToOrm evaluation.result).experimentId = experiment.id.text :=
      congrArg NonBlank.text h.result
    rw [DbTables.persisted, List.filter_append, hnone,
      List.filter_cons_of_pos (by simpa using hnew)]
    rfl

/-- Filtering by a column that related rows share. -/
theorem filter_reordered {rows rows' : List EvaluationResultRow} (id : String)
    (h : List.Forall₂ EvaluationResultRow.Reordered rows rows') :
    List.Forall₂ EvaluationResultRow.Reordered
      (rows.filter fun row => decide (row.experimentId = id))
      (rows'.filter fun row => decide (row.experimentId = id)) := by
  induction h with
  | nil => exact List.Forall₂.nil
  | @cons row row' rows rows' hrow _ ih =>
      -- Both rows pass the filter, or neither does.
      rw [List.filter_cons, List.filter_cons, hrow.experimentId]
      split
      · exact List.Forall₂.cons hrow ih
      · exact ih

/-- Every later write keeps the result. -/
theorem DbTables.Keeps.wrote {conv : Conversions} {experiment : Experiment}
    {policy : Option ReleasePolicy} {result : EvaluationResult} (tables : DbTables)
    (write : TableWrite) (tables' : DbTables) (hkeeps : tables.Keeps experiment policy result)
    (h : Wrote conv tables write tables') : tables'.Keeps experiment policy result := by
  cases h with
  | created projects datasets systemVersions releasePolicies experiments =>
      -- Added rows come behind those that are there.
      refine ⟨getById_append hkeeps.found experiments, ?_, hkeeps.ran, hkeeps.alone⟩
      have hreads := hkeeps.readsPolicy
      unfold DbTables.ReadsPolicy at hreads ⊢
      cases hid : experiment.releasePolicyId with
      | none =>
          simp only [hid] at hreads ⊢
          exact hreads
      | some policyId =>
          simp only [hid] at hreads ⊢
          obtain ⟨p, hp, hpolicy⟩ := hreads
          exact ⟨p, getById_append hp releasePolicies, hpolicy⟩
  | reordered hreordered =>
      -- The one result is still the only one, in some order of its child rows.
      obtain ⟨row, hrow, hfilter⟩ := hkeeps.alone
      have hforall := filter_reordered experiment.id.text hreordered.evaluationResults
      rw [hfilter] at hforall
      obtain ⟨row', rest, hrow', hrest, hfilter'⟩ := List.forall₂_cons_left_iff.mp hforall
      rw [List.forall₂_nil_left_iff.mp hrest] at hfilter'
      refine ⟨?_, ?_, ?_, row', hrow.trans hrow', hfilter'⟩
      · rw [DbTables.getExperiment, hreordered.experiments]
        exact hkeeps.found
      · have hreads := hkeeps.readsPolicy
        unfold DbTables.ReadsPolicy DbTables.getReleasePolicy at hreads ⊢
        rw [hreordered.releasePolicies]
        exact hreads
      · rw [hreordered.evaluationRuns]
        exact hkeeps.ran
  | @executed env rt flushes experimentId _ _ s t evaluation response hexec =>
      obtain ⟨experiment', policy', hexecuted⟩ := executed_of_route hexec
      -- Another experiment was run: this one has runs.
      have hother : experiment'.id.text ≠ experiment.id.text := by
        intro hsame
        obtain ⟨run, hrun, hid⟩ := hkeeps.ran
        exact not_mem_of_listRuns hexecuted.fresh run hrun (hid.trans hsame.symm)
      obtain ⟨run, hrun, hid⟩ := hkeeps.ran
      obtain ⟨row, hrow, hfilter⟩ := hkeeps.alone
      refine ⟨hkeeps.found, hkeeps.readsPolicy, ⟨run, List.mem_append_left _ hrun, hid⟩, row,
        hrow, ?_⟩
      have hnew : (evaluationResultToOrm evaluation.result).experimentId = experiment'.id.text :=
        congrArg NonBlank.text hexecuted.result
      rw [DbTables.persisted, List.filter_append, hfilter, List.filter_cons_of_neg]
      · rfl
      · simpa [hnew] using hother

/-! ### The view -/

/-- The view of tables that keep a result is that result and its gate. -/
theorem DbTables.Keeps.listExperimentResults {tables : DbTables} {experiment : Experiment}
    {policy : Option ReleasePolicy} {result : EvaluationResult} {gate : GateReport}
    {read : EvaluationResultRead} (h : tables.Keeps experiment policy result)
    (hgate : evaluateGate result policy = .ok gate)
    (hread : EvaluationResultRead.of result gate = .ok read) :
    EvalOps.listExperimentResults tables experiment.id.text = .ok [read] := by
  obtain ⟨row, ⟨metrics, evidence, hmetrics, hevidence, rfl⟩, hfilter⟩ := h.alone
  -- The row maps back to the result, so the gate gets what it got in the run.
  have hresults : tables.listResults experiment.id.text = .ok [result] := by
    unfold DbTables.listResults listByExperiment
    rw [hfilter, show Sorting.sortedOn _ [_] = [_] from rfl, List.mapM_cons,
      evaluationResultFromOrm_evaluationResultToOrm result hmetrics hevidence]
    rfl
  have hview : List.mapM (fun result => do
      let gate ← evaluateGate result policy
      EvaluationResultRead.of result gate) [result] = .ok [read] := by
    rw [List.mapM_cons, hgate, ExceptRules.ok_bind, hread]
    rfl
  have hreads := h.readsPolicy
  unfold DbTables.ReadsPolicy at hreads
  unfold EvalOps.listExperimentResults
  rw [h.found, ExceptRules.ok_bind, EvalOps.found, ExceptRules.pure_eq_ok, ExceptRules.ok_bind]
  cases hid : experiment.releasePolicyId with
  | none =>
      simp only [hid] at hreads ⊢
      rw [ExceptRules.pure_eq_ok, ExceptRules.ok_bind, hresults, ExceptRules.ok_bind, ← hreads]
      exact hview
  | some policyId =>
      simp only [hid] at hreads ⊢
      obtain ⟨p, hp, rfl⟩ := hreads
      rw [hp, ExceptRules.ok_bind, EvalOps.found, ExceptRules.pure_eq_ok, ExceptRules.ok_bind,
        ExceptRules.pure_eq_ok, ExceptRules.ok_bind, hresults, ExceptRules.ok_bind]
      exact hview

/-- The result of a view says what the response of the run said. -/
structure EvaluationResultRead.Repeats (read : EvaluationResultRead) (response : RunResponse) :
    Prop where
  id : read.id = response.evaluationResultId
  experimentId : read.experimentId = response.experimentId
  decision : read.decision = response.decision
  gated : read.gated = response.gated
  reasons : read.reasons = response.reasons
  advisories : read.advisories = response.advisories
  metrics : read.metrics = response.metrics
  evidence : read.evidence = response.evidence

/-- The two schemas read the same values. -/
theorem Executed.repeats {conv : Conversions} {tables : DbTables} {experiment : Experiment}
    {policy : Option ReleasePolicy} {evaluation : EvaluationOutcome} {response : RunResponse}
    (h : Executed conv tables experiment policy evaluation response) :
    response.experimentId = experiment.id.text ∧
      ∃ read, EvaluationResultRead.of evaluation.result evaluation.gate = .ok read ∧
        read.Repeats response := by
  obtain ⟨dataset, baseline, candidate, hresponse⟩ := h.responded
  unfold RunResponse.of at hresponse
  obtain ⟨metrics, hmetrics, hresponse⟩ := ExceptRules.bind_eq_ok.mp hresponse
  cases hresponse
  refine ⟨rfl, ?_⟩
  cases hread : EvaluationResultRead.of evaluation.result evaluation.gate with
  | error exc =>
      rw [EvaluationResultRead.of, hmetrics] at hread
      exact nomatch hread
  | ok read =>
      rw [EvaluationResultRead.of, hmetrics] at hread
      cases hread
      exact ⟨_, rfl, rfl, congrArg NonBlank.text h.result, rfl, rfl, rfl, rfl, rfl, rfl⟩

/-- Every object survives its row, with the child rows in any order, and so the view of a run, after
any later writes, says what its response said. -/
theorem persistence_is_faithful (conv : Conversions) :
    (∀ p : Project, projectFromOrm (projectToOrm p) = .ok p) ∧
    (∀ (d : Dataset) (cases : List DatasetCaseRow), cases.Perm (datasetToOrm d).cases →
      datasetFromOrm conv { datasetToOrm d with cases } = .ok d) ∧
    (∀ v : SystemVersion, systemVersionFromOrm (systemVersionToOrm v) = .ok v) ∧
    (∀ p : ReleasePolicy, releasePolicyFromOrm (releasePolicyToOrm p) = .ok p) ∧
    (∀ e : Experiment, experimentFromOrm (experimentToOrm e) = .ok e) ∧
    (∀ r : EvaluationRun, evaluationRunFromOrm conv (evaluationRunToOrm r) = .ok r) ∧
    (∀ (cr : CaseResult) (scores : List EvaluatorScoreRow),
      scores.Perm (caseResultToOrm cr).scores →
      caseResultFromOrm { caseResultToOrm cr with scores } = .ok cr) ∧
    (∀ (r : EvaluationResult) (row : EvaluationResultRow),
      (evaluationResultToOrm r).Reordered row → evaluationResultFromOrm row = .ok r) ∧
    (∀ job : AsyncJob, asyncJobFromOrm (asyncJobToOrm job) = .ok job) ∧
    (∀ (c : JudgeCalibration) (cases : List JudgeCalibrationCaseRow),
      cases.Perm (judgeCalibrationToOrm c).cases →
      judgeCalibrationFromOrm { judgeCalibrationToOrm c with cases } = .ok c) ∧
    (∀ t : ProductionTrace, productionTraceFromOrm (productionTraceToOrm t) = .ok t) ∧
    ∀ (before after later : DbTables) (writes laterWrites : List TableWrite)
      (evaluation : EvaluationOutcome) (response : RunResponse),
      Run (Wrote conv) DbTables.empty writes before →
      Wrote conv before (.executed evaluation response) after →
      Run (Wrote conv) after laterWrites later →
      ∃ read, listExperimentResults later response.experimentId = .ok [read] ∧
        read.Repeats response := by
  refine ⟨projectFromOrm_projectToOrm, fun d _ h => datasetFromOrm_datasetToOrm conv d h,
    systemVersionFromOrm_systemVersionToOrm, releasePolicyFromOrm_releasePolicyToOrm,
    experimentFromOrm_experimentToOrm, evaluationRunFromOrm_evaluationRunToOrm conv,
    fun cr _ h => caseResultFromOrm_caseResultToOrm cr h, ?_, asyncJobFromOrm_asyncJobToOrm,
    fun c _ h => judgeCalibrationFromOrm_judgeCalibrationToOrm c h,
    productionTraceFromOrm_productionTraceToOrm, ?_⟩
  · rintro r row ⟨metrics, evidence, hmetrics, hevidence, rfl⟩
    exact evaluationResultFromOrm_evaluationResultToOrm r hmetrics hevidence
  · intro before after later writes laterWrites evaluation response hbefore hwrote hlater
    have hbehind := Run.invariant DbTables.RunsBehind.wrote hbefore runsBehind_empty
    cases hwrote with
    | executed hexec =>
        obtain ⟨experiment, policy, hexecuted⟩ := executed_of_route hexec
        have hkeeps := Run.invariant DbTables.Keeps.wrote hlater (hexecuted.keeps hbehind)
        obtain ⟨hid, read, hread, hrepeats⟩ := hexecuted.repeats
        rw [hid]
        exact ⟨read, hkeeps.listExperimentResults hexecuted.gate hread, hrepeats⟩

/-! ### An offline run with a policy -/

/-- Conversions that reject every value of another kind. -/
def strictConversions : Conversions where
  str _ := ""
  int _ := .error ⟨.other "TypeError", ""⟩
  float _ := .error ⟨.other "TypeError", ""⟩
  dict _ := .error ⟨.other "TypeError", ""⟩

/-- A database that accepts every row. -/
def acceptingFlushes : Flushes where
  run _ := .ok ()
  caseResult _ := .ok ()
  result _ := .ok ()
  run_foreign := accepts_raisesNoConfigError
  caseResult_foreign := accepts_raisesNoConfigError
  result_foreign := accepts_raisesNoConfigError

/-- The policy on the success rate. -/
def successPolicy : ReleasePolicy := offlinePolicy "success_rate" successRate_nonblank 0 nonneg_zero

/-- The tables with the offline plan and its policy. -/
def offlineTables : DbTables where
  projects := [projectToOrm ⟨offlineId 0, offlineId 0, 0⟩]
  datasets := [datasetToOrm (offlineDataset 0)]
  systemVersions :=
    [systemVersionToOrm (offlineVersion 0 inputTemplate),
      systemVersionToOrm (offlineVersion 1 inputTemplate)]
  releasePolicies := [releasePolicyToOrm successPolicy]
  experiments :=
    [experimentToOrm
      { offlineExperiment 1 one_le_once with releasePolicyId := some successPolicy.id }]
  evaluationRuns := []
  caseResults := []
  evaluationResults := []

/-- The route on these tables. -/
def offlineRoute : Py (EvaluationOutcome × RunResponse) × ℕ :=
  exec (runExperimentRoute offlineEnv (offlineRuntime 0)
    (offlineTables.repositories strictConversions acceptingFlushes) (offlineId 0)
    (.ok [ToolSuccess.default.toEvaluator]) fun _ _ =>
      .ok (offlineProviders fun _ _ => .ok (offlineResponse 0 nonneg_zero))) 0

theorem offlineRoute_isOk : offlineRoute.1.isOk = true := by with_unfolding_all rfl

/-- The offline run is shown as it was answered. -/
theorem persistence_is_faithful_offline :
    ∃ (evaluation : EvaluationOutcome) (response : RunResponse) (read : EvaluationResultRead),
      offlineRoute.1 = .ok (evaluation, response) ∧
      listExperimentResults (offlineTables.persisted evaluation) response.experimentId
        = .ok [read] ∧
      read.Repeats response := by
  have hok := offlineRoute_isOk
  cases hroute : offlineRoute with
  | mk answer t =>
      rw [hroute] at hok
      cases answer with
      | error exc => exact nomatch hok
      | ok answer =>
          obtain ⟨evaluation, response⟩ := answer
          obtain ⟨-, -, -, -, -, -, -, -, -, -, -, hview⟩ :=
            persistence_is_faithful strictConversions
          have hcreated : Run (Wrote strictConversions) DbTables.empty [.created] offlineTables :=
            .cons (Wrote.created DbTables.empty _ _ _ _ _) (.nil _)
          obtain ⟨read, hread, hrepeats⟩ := hview offlineTables (offlineTables.persisted evaluation)
            (offlineTables.persisted evaluation) [.created] [] evaluation response hcreated
            (Wrote.executed hroute) (.nil _)
          exact ⟨evaluation, response, read, rfl, hread, hrepeats⟩

end EvalOps
