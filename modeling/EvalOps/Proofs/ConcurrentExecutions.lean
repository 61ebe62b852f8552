import EvalOps.ConcurrentExecutions
import EvalOps.Lib.Runs
import EvalOps.Proofs.Assess
import EvalOps.Proofs.Returns

/-!
# `EvalOps.Proofs.ConcurrentExecutions`: at most one complete result for an experiment

`interpret_executeSteps` ties the interruptible program to `executeExperiment`. What an execution
writes is a matter of the program alone: by `writes_executeSteps` its rows are, at every point,
the first rows of an evaluation, and all of them when it returns. All evaluations of an experiment
begin with a row of one key (`Begun.conflicts`), so that row is the lock of `Tables.Exclusive`.
`Executions.next_cases` says once what a step does, and `Executions.Inv.next` keeps both facts.
-/

set_option autoImplicit false

namespace EvalOps

open Effect

/-! ### One execution alone -/

/-- The operations, answered by the repositories of one session. -/
def Repositories.handle (env : Environment) (rt : Runtime) (repos : Repositories) :
    (op : SessionOp) → RunM op.Answer
  | .experiment id => Effect.lift (repos.experiment id)
  | .listRuns experimentId => Effect.lift (repos.listRuns experimentId)
  | .project id => Effect.lift (repos.project id)
  | .dataset id => Effect.lift (repos.dataset id)
  | .systemVersion id => Effect.lift (repos.systemVersion id)
  | .releasePolicy id => Effect.lift (repos.releasePolicy id)
  | .evaluate plan => plan.evaluate env rt
  | .addRun run => Effect.lift (repos.addRun run)
  | .addCaseResult caseResult => Effect.lift (repos.addCaseResult caseResult)
  | .addResult result => Effect.lift (repos.addResult result)

variable {experimentId : EntityId} {buildEvaluators : Py (List Evaluator)}
  {buildProviders : SystemVersion → SystemVersion → Py (Dict ProviderName ProviderClient)}

section

variable (env : Environment) (rt : Runtime) (repos : Repositories)

theorem interpret_ask (op : SessionOp) :
    (ask op).interpret (repos.handle env rt) = repos.handle env rt op :=
  Program.interpret_op op

theorem interpret_requireFound {α : Type} (value : Option α) (kind : String) (ref : EntityId) :
    (requireFound value kind ref).interpret (repos.handle env rt) =
      Effect.lift (require value kind ref) :=
  Program.interpret_ofExcept _

/-- The queries are `loadPersisted`. -/
theorem interpret_loadSteps :
    (loadSteps experimentId buildEvaluators buildProviders).interpret (repos.handle env rt) =
      Effect.lift (loadPersisted repos experimentId buildEvaluators buildProviders) := by
  unfold loadSteps loadPersisted readPersisted
  rw [bind_assoc, Program.interpret_bind, Effect.lift_bind, interpret_ask]
  congr 1
  funext found
  cases found with
  | none => rfl
  | some experiment =>
      dsimp only
      rw [bind_assoc, Program.interpret_bind, Effect.lift_bind, interpret_ask]
      congr 1
      funext runs
      by_cases hruns : ¬runs.isEmpty
      · rw [if_pos hruns, if_pos hruns]
        rfl
      · rw [if_neg hruns, if_neg hruns]
        -- From here on every query is one step, in the same order on both sides.
        have hproject := fun id => interpret_ask env rt repos (.project id)
        have hdataset := fun id => interpret_ask env rt repos (.dataset id)
        have hversion := fun id => interpret_ask env rt repos (.systemVersion id)
        have hpolicy := fun id => interpret_ask env rt repos (.releasePolicy id)
        cases experiment.releasePolicyId <;>
          simp only [Program.interpret_bind, hproject, hdataset, hversion, hpolicy,
            interpret_requireFound, Program.interpret_ofExcept, Program.interpret_pure, bind_assoc,
            pure_bind, Effect.lift_bind] <;>
          rfl

/-- The inserts are `persist`. -/
theorem interpret_persistSteps (evaluation : EvaluationOutcome) :
    (persistSteps evaluation).interpret (repos.handle env rt) =
      Effect.lift (persist repos evaluation) := by
  have hrun := fun run => interpret_ask env rt repos (.addRun run)
  have hcaseResult := fun caseResult => interpret_ask env rt repos (.addCaseResult caseResult)
  have hresult := fun result => interpret_ask env rt repos (.addResult result)
  unfold persistSteps persist
  simp only [Program.interpret_bind, Program.interpret_forM, Effect.lift_bind, Effect.lift_forM,
    hrun, hcaseResult, hresult]
  rfl

/-- Uninterrupted, the steps are `executeExperiment`. -/
theorem interpret_executeSteps :
    (executeSteps experimentId buildEvaluators buildProviders).interpret (repos.handle env rt) =
      executeExperiment env rt repos experimentId buildEvaluators buildProviders := by
  have hevaluate := fun plan => interpret_ask env rt repos (.evaluate plan)
  unfold executeSteps executeExperiment runPlanned
  simp only [Program.interpret_bind, interpret_loadSteps, interpret_persistSteps, hevaluate]
  rfl

end

/-! ### The rows of one execution -/

/-- The rows of an evaluation, in the order of their inserts. -/
def EvaluationOutcome.rows (evaluation : EvaluationOutcome) : List Row :=
  evaluation.outcome.runs.map Row.run ++
    (evaluation.outcome.caseResults.map Row.caseResult ++ [Row.result evaluation.result])

/-- The plan has the experiment and the dataset of the catalog. -/
def RunPlan.From (plan : RunPlan) (catalog : Catalog) (experimentId : EntityId) : Prop :=
  catalog.experiment experimentId = some plan.experiment ∧
    catalog.dataset plan.experiment.datasetId = some plan.dataset

/-- All rows of one evaluation of the experiment. -/
def Whole (catalog : Catalog) (experimentId : EntityId) (rows : List Row) : Prop :=
  ∃ (plan : RunPlan) (env : Environment) (rt : Runtime) (calls : ℕ)
    (evaluation : EvaluationOutcome), plan.From catalog experimentId ∧
      (exec (plan.evaluate env rt) calls).1 = .ok evaluation ∧ rows = evaluation.rows

/-- The first rows of one evaluation of the experiment. -/
def Begun (catalog : Catalog) (experimentId : EntityId) (rows : List Row) : Prop :=
  rows = [] ∨ ∃ whole, Whole catalog experimentId whole ∧ rows <+: whole

variable {catalog : Catalog} {rows : List Row}

/-- An evaluation stores the trials of a grid. -/
theorem RunPlan.evaluate_grid {env : Environment} {rt : Runtime} {plan : RunPlan} {calls : ℕ}
    {evaluation : EvaluationOutcome}
    (h : (exec (plan.evaluate env rt) calls).1 = .ok evaluation) :
    ∃ g : Grid plan.experiment plan.dataset.caseIds (plan.evaluators.map Evaluator.name),
      evaluation.outcome = g.outcome ∧ evaluation.result.experimentId = plan.experiment.id := by
  obtain ⟨outcome, hproduced, hassess⟩ := runEvaluation_eq_ok (Prod.ext h rfl)
  obtain ⟨g, rfl⟩ := hproduced.grid
  obtain ⟨a, ha, houtcome, hresult, _⟩ := g.assess_eq_ok rt env.resultStamp
    (Grid.policyCovered_of_assess hassess)
  cases hassess.symm.trans ha
  exact ⟨g, houtcome, hresult.experimentId⟩

/-- The run of the baseline on the first case. -/
def FirstRun (experiment : Experiment) (dataset : Dataset) (run : EvaluationRun) : Prop :=
  run.experimentId = experiment.id ∧ run.systemVersionId = experiment.baselineVersionId ∧
    (trialKeys dataset.caseIds experiment.repeats).head?
      = some (toLex (run.caseId, run.repeatIndex))

/-- The rows of an evaluation begin with that run. -/
theorem Whole.first (h : Whole catalog experimentId rows) :
    ∃ (plan : RunPlan) (run : EvaluationRun) (rest : List Row),
      plan.From catalog experimentId ∧ FirstRun plan.experiment plan.dataset run ∧
        rows = .run run :: rest := by
  obtain ⟨plan, env, rt, calls, evaluation, hfrom, hevaluate, rfl⟩ := h
  obtain ⟨g, houtcome, _⟩ := RunPlan.evaluate_grid hevaluate
  cases hkeys : g.keys with
  -- a dataset has a case, and an experiment a repeat
  | nil => exact absurd hkeys g.keys_ne_nil
  | cons key keys =>
      have hmem : key ∈ g.keys := by rw [hkeys]; exact List.mem_cons_self
      have hrecords := g.baseline_records key hmem
      have hrows : ∃ rest, evaluation.rows = .run (g.baseline key).1 :: rest := by
        unfold EvaluationOutcome.rows
        rw [houtcome, Grid.outcome, Grid.trials, hkeys]
        exact ⟨_, rfl⟩
      obtain ⟨rest, hrows⟩ := hrows
      refine ⟨plan, (g.baseline key).1, rest, hfrom,
        ⟨hrecords.experimentId, hrecords.versionId, ?_⟩, hrows⟩
      rw [show trialKeys plan.dataset.caseIds plan.experiment.repeats = key :: keys from hkeys,
        hrecords.caseId, hrecords.repeatIndex]
      rfl

theorem Whole.begun_ne_nil (h : Whole catalog experimentId rows) :
    Begun catalog experimentId rows ∧ rows ≠ [] := by
  obtain ⟨plan, run, rest, _, _, hrows⟩ := h.first
  exact ⟨Or.inr ⟨rows, h, List.prefix_refl rows⟩, hrows ▸ List.cons_ne_nil _ _⟩

theorem Begun.first {a : Row} {as : List Row} (h : Begun catalog experimentId (a :: as)) :
    ∃ (plan : RunPlan) (run : EvaluationRun), plan.From catalog experimentId ∧
      FirstRun plan.experiment plan.dataset run ∧ a = .run run := by
  rcases h with hnil | ⟨whole, hwhole, hprefix⟩
  · exact nomatch hnil
  · obtain ⟨plan, run, rest, hfrom, hfirst, rfl⟩ := hwhole.first
    exact ⟨plan, run, hfrom, hfirst, (List.cons_prefix_cons.mp hprefix).1⟩

/-- All evaluations of an experiment begin with rows of one key. -/
theorem Begun.conflicts {a b : Row} {as bs : List Row}
    (ha : Begun catalog experimentId (a :: as)) (hb : Begun catalog experimentId (b :: bs)) :
    a.conflicts b := by
  obtain ⟨plan, run, ⟨hexperiment, hdataset⟩, ⟨hid, hversion, hkey⟩, rfl⟩ := ha.first
  obtain ⟨plan', run', ⟨hexperiment', hdataset'⟩, ⟨hid', hversion', hkey'⟩, rfl⟩ := hb.first
  -- Both plans were loaded from one catalog, so they have one experiment and one dataset.
  have hsame : plan.experiment = plan'.experiment :=
    Option.some.inj (hexperiment.symm.trans hexperiment')
  rw [← hsame] at hdataset' hid' hversion' hkey'
  have hdata : plan.dataset = plan'.dataset := Option.some.inj (hdataset.symm.trans hdataset')
  rw [← hdata] at hkey'
  have hpair : (run.caseId, run.repeatIndex) = (run'.caseId, run'.repeatIndex) :=
    toLex.injective (Option.some.inj (hkey.symm.trans hkey'))
  obtain ⟨hcase, hrepeat⟩ := Prod.mk.inj hpair
  exact decide_eq_true (Or.inr ⟨hid.trans hid'.symm, hversion.trans hversion'.symm, hcase, hrepeat⟩)

/-! ### What is left of an execution -/

/-- What an operation may answer, and what the execution has written then. -/
inductive Catalog.Answers (catalog : Catalog) :
    (op : SessionOp) → List Row → op.Answer → List Row → Prop
  | query {op : SessionOp} {visible : List (ℕ × Row)} {answer : op.Answer} {written : List Row} :
      catalog.query visible op = some answer → Answers catalog op written answer written
  | evaluate {plan : RunPlan} {env : Environment} {rt : Runtime} {calls : ℕ}
      {evaluation : EvaluationOutcome} {written : List Row} :
      (exec (plan.evaluate env rt) calls).1 = .ok evaluation →
        Answers catalog (.evaluate plan) written evaluation written
  | insert {op : SessionOp} {row : Row} {answer : op.Answer} {written : List Row} :
      op.insertion = some (row, answer) → Answers catalog op written answer (written ++ [row])

/-- A program that writes the rows of an evaluation in their order, and returns once all are
written. -/
abbrev Writes (catalog : Catalog) (experimentId : EntityId) {α : Type}
    (program : SessionProgram α) (Q : α → List Row → Prop) (written : List Row) : Prop :=
  Program.Safe catalog.Answers (Begun catalog experimentId) program Q written

theorem begun_nil : Begun catalog experimentId [] := Or.inl rfl

/-- The operation is a query. -/
def SessionOp.isQuery : SessionOp → Bool
  | .evaluate _ | .addRun _ | .addCaseResult _ | .addResult _ => false
  | _ => true

theorem SessionOp.insertion_eq_none {op : SessionOp} (h : op.isQuery = true) :
    op.insertion = none := by
  cases op <;> simp [isQuery, insertion] at h ⊢

/-- A query writes nothing. -/
theorem writes_query (op : SessionOp) (hop : op.isQuery = true)
    {Q : op.Answer → List Row → Prop} {written : List Row}
    (hbegun : Begun catalog experimentId written)
    (h : ∀ visible answer, catalog.query visible op = some answer → Q answer written) :
    Writes catalog experimentId (ask op) Q written := by
  refine Program.Safe.op hbegun fun answer t hanswer => ?_
  -- A query is answered by the catalog, not by an evaluation or an insert.
  cases hanswer with
  | query hquery => exact ⟨hbegun, h _ _ hquery⟩
  | evaluate _ => exact nomatch hop
  | insert hrow => exact nomatch (SessionOp.insertion_eq_none hop).symm.trans hrow

/-- A missing row raises. -/
theorem writes_requireFound {α : Type} {value : Option α} {kind : String} {ref : EntityId}
    {Q : α → List Row → Prop} {written : List Row} (hbegun : Begun catalog experimentId written)
    (h : ∀ a, value = some a → Q a written) :
    Writes catalog experimentId (requireFound value kind ref) Q written := by
  refine Program.Safe.ofExcept hbegun fun a ha => h a ?_
  cases value with
  | none => exact nomatch ha
  | some found => exact congrArg some (Except.ok.inj ha)

/-- What is loaded comes from the catalog. -/
theorem writes_loadSteps :
    Writes catalog experimentId (loadSteps experimentId buildEvaluators buildProviders)
      (fun plan written => plan.From catalog experimentId ∧ written = []) [] := by
  unfold loadSteps
  refine Program.Safe.bind ?_
  refine writes_query (.experiment experimentId) rfl begun_nil fun _ found hfound => ?_
  cases found with
  | none => exact begun_nil
  | some experiment =>
      have hexperiment : catalog.experiment experimentId = some experiment := Option.some.inj hfound
      refine Program.Safe.bind ?_
      refine writes_query (.listRuns experiment.id) rfl begun_nil fun _ runs _ => ?_
      split
      · exact begun_nil
      · refine Program.Safe.bind ?_
        refine writes_query (.project _) rfl begun_nil fun _ project _ => ?_
        refine Program.Safe.bind (writes_requireFound begun_nil fun project _ => ?_)
        refine Program.Safe.bind ?_
        refine writes_query (.dataset _) rfl begun_nil fun _ found hfound => ?_
        refine Program.Safe.bind (writes_requireFound begun_nil fun dataset hdataset => ?_)
        have hdataset : catalog.dataset experiment.datasetId = some dataset :=
          (Option.some.inj hfound).trans hdataset
        refine Program.Safe.bind ?_
        refine writes_query (.systemVersion _) rfl begun_nil fun _ baseline _ => ?_
        refine Program.Safe.bind (writes_requireFound begun_nil fun baseline _ => ?_)
        refine Program.Safe.bind ?_
        refine writes_query (.systemVersion _) rfl begun_nil fun _ candidate _ => ?_
        refine Program.Safe.bind (writes_requireFound begun_nil fun candidate _ => ?_)
        -- With or without a policy, the evaluators and the clients come last.
        have hrest : ∀ policy, Writes catalog experimentId (do
            let evaluators ← Program.ofExcept buildEvaluators
            let providers ← Program.ofExcept (buildProviders baseline candidate)
            pure (f := Program SessionOp SessionOp.Answer PyError)
              (⟨project, dataset, experiment, baseline, candidate, evaluators, policy, providers⟩ :
                RunPlan))
            (fun plan written => plan.From catalog experimentId ∧ written = []) [] := by
          intro policy
          refine Program.Safe.bind (Program.Safe.ofExcept begun_nil fun evaluators _ => ?_)
          refine Program.Safe.bind (Program.Safe.ofExcept begun_nil fun providers _ => ?_)
          exact ⟨begun_nil, ⟨hexperiment, hdataset⟩, rfl⟩
        dsimp only
        split
        · exact hrest none
        · refine Program.Safe.bind ?_
          refine writes_query (.releasePolicy _) rfl begun_nil fun _ policy _ => ?_
          refine Program.Safe.bind (writes_requireFound begun_nil fun policy _ => ?_)
          exact hrest (some policy)

theorem Catalog.query_eq_none {op : SessionOp} {inserted : Row × op.Answer}
    (h : op.insertion = some inserted) (visible : List (ℕ × Row)) :
    catalog.query visible op = none := by
  cases op <;> first | rfl | exact absurd h (by simp [SessionOp.insertion])

/-- An insert writes its row. -/
theorem writes_insert (op : SessionOp) {row : Row} {stored : op.Answer}
    (hop : op.insertion = some (row, stored)) {Q : op.Answer → List Row → Prop}
    {written : List Row} (hbegun : Begun catalog experimentId written)
    (hnext : Begun catalog experimentId (written ++ [row])) (h : Q stored (written ++ [row])) :
    Writes catalog experimentId (ask op) Q written := by
  refine Program.Safe.op hbegun fun answer t hanswer => ?_
  cases hanswer with
  | query hquery => exact nomatch (Catalog.query_eq_none hop _).symm.trans hquery
  | evaluate _ => exact nomatch hop
  | insert hrow =>
      cases hop.symm.trans hrow
      exact ⟨hnext, h⟩

/-- A loop of inserts, between the rows before it and the rows after it. -/
theorem writes_forM {β : Type} {add : β → SessionProgram PUnit} {row : β → Row}
    (hadd : ∀ {Q : PUnit → List Row → Prop} {written : List Row} (x : β),
      Begun catalog experimentId written → Begun catalog experimentId (written ++ [row x]) →
        Q ⟨⟩ (written ++ [row x]) → Writes catalog experimentId (add x) Q written)
    {before after : List Row} {xs : List β}
    (hwhole : Whole catalog experimentId (before ++ (xs.map row ++ after))) :
    Writes catalog experimentId (xs.forM add) (fun _ written => written = before ++ xs.map row)
      before := by
  have hbegun : ∀ {written rest : List Row}, written ++ rest = before ++ xs.map row →
      Begun catalog experimentId written := by
    intro written rest h
    refine Or.inr ⟨_, hwhole, rest ++ after, ?_⟩
    rw [← List.append_assoc, h, List.append_assoc]
  -- The rows that are written and those of the elements that are left are the same list.
  have hturn : ∀ (x : β) (ys : List β) (written : List Row),
      written ++ (x :: ys).map row = before ++ xs.map row →
        Writes catalog experimentId (add x)
          (fun _ written => written ++ ys.map row = before ++ xs.map row) written := by
    intro x ys written h
    have h' : (written ++ [row x]) ++ ys.map row = before ++ xs.map row := by
      rw [← h, List.map_cons, List.append_assoc, List.singleton_append]
    exact hadd x (hbegun h) (hbegun h') h'
  have hloop : Writes catalog experimentId (xs.forM add)
      (fun _ written => written ++ [] = before ++ xs.map row) before :=
    Program.Safe.forM (J := fun ys written => written ++ ys.map row = before ++ xs.map row)
      (fun _ h => hbegun h) hturn rfl
  exact hloop.mono fun _ written h => by rwa [List.append_nil] at h

theorem writes_persistSteps {evaluation : EvaluationOutcome}
    (h : Whole catalog experimentId evaluation.rows) :
    Writes catalog experimentId (persistSteps evaluation)
      (fun _ written => Whole catalog experimentId written) [] := by
  unfold persistSteps
  unfold EvaluationOutcome.rows at h
  refine Program.Safe.bind ((writes_forM
    (fun run => writes_insert (.addRun run) rfl) h).mono fun _ written hwritten => ?_)
  subst hwritten
  rw [List.nil_append]
  refine Program.Safe.bind ((writes_forM
    (fun caseResult => writes_insert (.addCaseResult caseResult) rfl) h).mono
      fun _ written hwritten => ?_)
  subst hwritten
  rw [← List.append_assoc] at h
  refine Program.Safe.bind ?_
  refine writes_insert (.addResult evaluation.result) rfl ?_ ?_ ?_
  · exact Or.inr ⟨_, h, List.prefix_append _ _⟩
  · exact Or.inr ⟨_, h, List.prefix_refl _⟩
  · exact ⟨Or.inr ⟨_, h, List.prefix_refl _⟩, h⟩

/-- `execute_experiment` returns once it has written all rows of an evaluation, and nothing
else. -/
theorem writes_executeSteps :
    Writes catalog experimentId (executeSteps experimentId buildEvaluators buildProviders)
      (fun _ written => Whole catalog experimentId written) [] := by
  unfold executeSteps
  refine Program.Safe.bind (writes_loadSteps.mono fun plan written hplan => ?_)
  obtain ⟨hfrom, rfl⟩ := hplan
  refine Program.Safe.bind (Program.Safe.op begun_nil fun evaluation written hanswer => ?_)
  cases hanswer with
  | query hquery => exact nomatch hquery
  | evaluate hevaluate =>
      -- Nothing is written before the evaluation has ended.
      exact ⟨begun_nil, writes_persistSteps ⟨plan, _, _, _, evaluation, hfrom, hevaluate, rfl⟩⟩
  | insert hrow => exact nomatch hrow

/-! ### Executions in any order -/

namespace Executions

variable {s s' : Executions} {i : ℕ} {step : ExecutionStep}

/-- A step answers an operation without a write, inserts a free row, commits, or rolls back. -/
theorem next_cases (h : s.next catalog i step = some s') :
    (∃ (op : SessionOp) (rest : op.Answer → _) (answer : op.Answer),
        s.program i = some (.call op rest) ∧
          catalog.Answers op (s.tables.written i) answer (s.tables.written i) ∧
            s' = s.resume i s.tables (rest answer)) ∨
      (∃ (op : SessionOp) (rest : op.Answer → _) (row : Row) (answer : op.Answer),
        s.program i = some (.call op rest) ∧ op.insertion = some (row, answer) ∧
          s.tables.Free (fun r r' => r.conflicts r' = true) row ∧
            s' = s.resume i (s.tables.insert i row) (rest answer)) ∨
      (∃ a, s.program i = some (.done a) ∧ s' = s.stop i (s.tables.commit i)) ∨
        s' = s.stop i (s.tables.rollback i) := by
  unfold next at h
  split at h
  · -- read
    rename_i op rest hprogram
    obtain ⟨answer, hquery, hs'⟩ := Option.bind_eq_some_iff.mp h
    exact Or.inl ⟨op, rest, answer, hprogram, .query hquery, (Option.some.inj hs').symm⟩
  · -- evaluate
    rename_i env rt calls plan rest hprogram
    split at h
    · rename_i evaluation hevaluate
      exact Or.inl ⟨.evaluate plan, rest, evaluation, hprogram, .evaluate hevaluate,
        (Option.some.inj h).symm⟩
    · exact Or.inr (Or.inr (Or.inr (Option.some.inj h).symm))
  · -- insert
    rename_i op rest hprogram
    obtain ⟨⟨row, answer⟩, hrow, hs'⟩ := Option.bind_eq_some_iff.mp h
    dsimp only at hs'
    split at hs'
    · exact Or.inr (Or.inr (Or.inr (Option.some.inj hs').symm))
    · rename_i hcommitted
      split at hs'
      · exact Or.inr (Or.inr (Or.inr (Option.some.inj hs').symm))
      · split at hs'
        · exact nomatch hs'
        · rename_i hpending
          refine Or.inr (Or.inl ⟨op, rest, row, answer, hprogram, hrow, ⟨?_, ?_⟩,
            (Option.some.inj hs').symm⟩)
          · exact fun w hw hconflict => hcommitted (List.any_eq_true.mpr ⟨w, hw, hconflict⟩)
          · exact fun w hw hconflict => hpending (List.any_eq_true.mpr ⟨w, hw, hconflict⟩)
  · -- commit
    rename_i a hprogram
    exact Or.inr (Or.inr (Or.inl ⟨a, hprogram, (Option.some.inj h).symm⟩))
  · -- fail
    exact Or.inr (Or.inr (Or.inr (Option.some.inj h).symm))
  · exact nomatch h

/-- What holds between two steps: the pending rows of a running execution are the first rows of
an evaluation that it goes on to write, and only one execution has any. -/
structure Inv (catalog : Catalog) (experimentId : EntityId) (s : Executions) : Prop where
  exclusive : s.tables.Exclusive (Whole catalog experimentId)
  running : ∀ i program, s.program i = some program →
    Writes catalog experimentId program (fun _ written => Whole catalog experimentId written)
      (s.tables.written i)
  ended : ∀ i, s.program i = none → s.tables.written i = []

theorem inv_initial (buildEvaluators : ℕ → Py (List Evaluator))
    (buildProviders : ℕ → SystemVersion → SystemVersion →
      Py (Dict ProviderName ProviderClient)) :
    (initial experimentId buildEvaluators buildProviders).Inv catalog experimentId where
  exclusive := Tables.exclusive_empty
  running := by
    intro i program h
    cases h
    exact writes_executeSteps
  ended := fun _ h => nomatch h

theorem Inv.begun (h : s.Inv catalog experimentId) (i : ℕ) :
    Begun catalog experimentId (s.tables.written i) := by
  cases hprogram : s.program i with
  | none => exact h.ended i hprogram ▸ begun_nil
  | some program => exact (h.running i program hprogram).invariant

/-- The execution that makes a step goes on. -/
theorem Inv.resume (h : s.Inv catalog experimentId) {tables : Tables ℕ Row}
    {program : SessionProgram (EvaluationOutcome × EntityId)}
    (hexclusive : tables.Exclusive (Whole catalog experimentId))
    (hothers : ∀ j, j ≠ i → tables.written j = s.tables.written j)
    (hwrites : Writes catalog experimentId program
      (fun _ written => Whole catalog experimentId written) (tables.written i)) :
    (s.resume i tables program).Inv catalog experimentId where
  exclusive := hexclusive
  running := by
    intro j p hp
    by_cases hj : j = i
    · subst hj
      cases (Function.update_self ..).symm.trans hp
      exact hwrites
    · have hsame : s.program j = some p := (Function.update_of_ne hj ..).symm.trans hp
      exact (hothers j hj).symm ▸ h.running j p hsame
  ended := by
    intro j hnone
    by_cases hj : j = i
    · subst hj
      exact nomatch (Function.update_self ..).symm.trans hnone
    · have hsame : s.program j = none := (Function.update_of_ne hj ..).symm.trans hnone
      exact (hothers j hj).trans (h.ended j hsame)

/-- The execution that makes a step has ended. -/
theorem Inv.stop (h : s.Inv catalog experimentId) {tables : Tables ℕ Row}
    (hexclusive : tables.Exclusive (Whole catalog experimentId))
    (hwritten : ∀ j, tables.written j = (s.tables.rollback i).written j) :
    (s.stop i tables).Inv catalog experimentId where
  exclusive := hexclusive
  running := by
    intro j p hp
    by_cases hj : j = i
    · subst hj
      exact nomatch (Function.update_self ..).symm.trans hp
    · have hsame : s.program j = some p := (Function.update_of_ne hj ..).symm.trans hp
      have hothers := (hwritten j).trans (Tables.written_rollback_of_ne hj)
      exact hothers.symm ▸ h.running j p hsame
  ended := by
    intro j hnone
    by_cases hj : j = i
    · subst hj
      exact (hwritten j).trans Tables.written_rollback_self
    · have hsame : s.program j = none := (Function.update_of_ne hj ..).symm.trans hnone
      exact ((hwritten j).trans (Tables.written_rollback_of_ne hj)).trans (h.ended j hsame)

theorem Inv.next (h : s.Inv catalog experimentId) (hnext : s.next catalog i step = some s') :
    s'.Inv catalog experimentId := by
  rcases next_cases hnext with ⟨op, rest, answer, hprogram, hanswer, rfl⟩ |
    ⟨op, rest, row, answer, hprogram, hrow, hfree, rfl⟩ | ⟨a, hprogram, rfl⟩ | rfl
  · -- a step without a write
    exact h.resume h.exclusive (fun _ _ => rfl) ((h.running i _ hprogram).answer hanswer)
  · -- an insert: the row is free, so no other execution has begun
    have hwrites := (h.running i _ hprogram).answer (.insert hrow)
    have hwritten : (s.tables.insert i row).written i = s.tables.written i ++ [row] :=
      Tables.written_insert_self
    refine h.resume ?_ (fun j hj => Tables.written_insert_of_ne hj) (hwritten.symm ▸ hwrites)
    exact h.exclusive.insert Begun.conflicts (fun _ => Whole.begun_ne_nil) h.begun
      hwrites.invariant hfree
  · -- a commit: the program has returned, so its rows are whole
    have hwhole := (h.running i _ hprogram).2
    refine h.stop (h.exclusive.commit hwhole.begun_ne_nil.2 hwhole) fun j => ?_
    exact Tables.written_commit
  · -- a rollback
    exact h.stop (h.exclusive.rollback i) fun _ => rfl

end Executions

/-! ### The committed rows -/

section

variable {evaluation : EvaluationOutcome} {writer : ℕ}

theorem runsOf_rows : runsOf (evaluation.rows.map (Prod.mk writer)) = evaluation.outcome.runs := by
  simp [runsOf, EvaluationOutcome.rows, List.filterMap_append, List.filterMap_map,
    Function.comp_def]

theorem caseResultsOf_rows :
    caseResultsOf (evaluation.rows.map (Prod.mk writer)) = evaluation.outcome.caseResults := by
  simp [caseResultsOf, EvaluationOutcome.rows, List.filterMap_append, List.filterMap_map,
    Function.comp_def]

theorem resultsOf_rows :
    resultsOf (evaluation.rows.map (Prod.mk writer)) = [evaluation.result] := by
  simp [resultsOf, EvaluationOutcome.rows, List.filterMap_append, List.filterMap_map,
    Function.comp_def]

end

namespace Grid

variable {experiment : Experiment} {caseIds : List EntityId} {names : List String}
  (g : Grid experiment caseIds names)

theorem length_runs : g.outcome.runs.length = 2 * caseIds.length * experiment.repeats := by
  simp [outcome, trials, keys, trialKeys]
  ring

/-- A trial of the grid is recorded for one of the two versions. -/
theorem mem_trials {t : Trial} (h : t ∈ g.trials) :
    t.1.experimentId = experiment.id ∧ t.2.runId = t.1.id := by
  rcases List.mem_append.mp h with h | h
  · obtain ⟨key, hkey, rfl⟩ := List.mem_map.mp h
    exact ⟨(g.baseline_records key hkey).experimentId, (g.baseline_records key hkey).runId⟩
  · obtain ⟨key, hkey, rfl⟩ := List.mem_map.mp h
    exact ⟨(g.candidate_records key hkey).experimentId, (g.candidate_records key hkey).runId⟩

/-- The case results are those of the runs, in their order. -/
theorem map_runId_caseResults :
    g.outcome.caseResults.map CaseResult.runId = g.outcome.runs.map EvaluationRun.id := by
  unfold outcome
  rw [List.map_map, List.map_map]
  exact List.map_congr_left fun t ht => (g.mem_trials ht).2

theorem nodup_runIds : (g.outcome.runs.map EvaluationRun.id).Nodup := by
  unfold outcome
  rw [List.map_map]
  exact g.ids_nodup

end Grid

/-- The complete rows of one execution of the experiment. -/
structure Complete (experiment : Experiment) (dataset : Dataset) (writer : ℕ)
    (rows : List (ℕ × Row)) : Prop where
  writer : ∀ row ∈ rows, row.1 = writer
  runs_length : (runsOf rows).length = 2 * dataset.cases.length * experiment.repeats
  runs_experimentId : ∀ run ∈ runsOf rows, run.experimentId = experiment.id
  oneCaseResult : ∀ run ∈ runsOf rows,
    ((caseResultsOf rows).filter fun caseResult => caseResult.runId = run.id).length = 1
  caseResult_run : ∀ caseResult ∈ caseResultsOf rows, ∃ run ∈ runsOf rows, caseResult.runId = run.id
  oneResult : ∃ result, resultsOf rows = [result] ∧ result.experimentId = experiment.id

/-- The rows of an evaluation are complete. -/
theorem Whole.complete {rows : List Row} (h : Whole catalog experimentId rows) (writer : ℕ) :
    ∃ experiment dataset, catalog.experiment experimentId = some experiment ∧
      catalog.dataset experiment.datasetId = some dataset ∧
        Complete experiment dataset writer (rows.map (Prod.mk writer)) := by
  obtain ⟨plan, env, rt, calls, evaluation, ⟨hexperiment, hdataset⟩, hevaluate, rfl⟩ := h
  obtain ⟨g, houtcome, hresult⟩ := RunPlan.evaluate_grid hevaluate
  refine ⟨plan.experiment, plan.dataset, hexperiment, hdataset, ?_, ?_, ?_, ?_, ?_, ?_⟩
  · intro row hrow
    obtain ⟨_, _, rfl⟩ := List.mem_map.mp hrow
    rfl
  · rw [runsOf_rows, houtcome, g.length_runs, Dataset.caseIds, List.length_map]
  · rw [runsOf_rows, houtcome]
    intro run hrun
    obtain ⟨t, ht, rfl⟩ := List.mem_map.mp hrun
    exact (g.mem_trials ht).1
  · rw [runsOf_rows, caseResultsOf_rows, houtcome]
    intro run hrun
    -- Each run has its identifier alone, so one case result refers to it.
    have hcount : (g.outcome.caseResults.map CaseResult.runId).count run.id = 1 := by
      rw [g.map_runId_caseResults]
      exact List.count_eq_one_of_mem g.nodup_runIds (List.mem_map_of_mem hrun)
    rw [← hcount, List.count_eq_length_filter, List.filter_map, List.length_map]
    rfl
  · rw [runsOf_rows, caseResultsOf_rows, houtcome]
    intro caseResult hcaseResult
    have hmem : caseResult.runId ∈ g.outcome.runs.map EvaluationRun.id := by
      rw [← g.map_runId_caseResults]
      exact List.mem_map_of_mem hcaseResult
    obtain ⟨run, hrun, hid⟩ := List.mem_map.mp hmem
    exact ⟨run, hrun, hid.symm⟩
  · exact ⟨evaluation.result, resultsOf_rows, hresult⟩

/-- In every state that concurrent executions of an experiment can reach, the experiment has no
committed row at all, or the complete rows of one execution. -/
theorem at_most_one_complete_result {buildEvaluators : ℕ → Py (List Evaluator)}
    {buildProviders : ℕ → SystemVersion → SystemVersion → Py (Dict ProviderName ProviderClient)}
    {steps : List (ℕ × ExecutionStep)} {s : Executions}
    (hrun : Run (Executions.Step catalog)
      (.initial experimentId buildEvaluators buildProviders) steps s) :
    s.tables.committed = [] ∨ ∃ writer experiment dataset,
      catalog.experiment experimentId = some experiment ∧
        catalog.dataset experiment.datasetId = some dataset ∧
          Complete experiment dataset writer s.tables.committed := by
  have hinv : s.Inv catalog experimentId :=
    hrun.invariant (fun _ _ _ hI hstep => hI.next hstep)
      (Executions.inv_initial buildEvaluators buildProviders)
  rcases hinv.exclusive with ⟨hempty, _⟩ | ⟨_, writer, rows, hwhole, hcommitted⟩
  · exact Or.inl hempty
  · rw [hcommitted]
    exact Or.inr ⟨writer, hwhole.complete writer⟩

/-- The rows that the offline experiment refers to. -/
def offlineCatalog : Catalog where
  experiment := fun _ => some (offlineExperiment 1 one_le_once)
  project := fun _ => some ⟨offlineId 0, offlineId 0, 0⟩
  dataset := fun _ => some (offlineDataset 0)
  systemVersion := fun id =>
    if id = offlineId 0 then some (offlineVersion 0 inputTemplate)
    else some (offlineVersion 1 inputTemplate)
  releasePolicy := fun _ => none

/-- Executions of the offline experiment. -/
def offlineExecutions : Executions :=
  .initial (offlineId 0) (fun _ => .ok []) fun _ _ _ =>
    .ok (offlineProviders fun _ _ => .ok (offlineResponse 1 nonneg_one))

/-- Two executions that both find no run. The first one commits, and the insert of the second one
fails. -/
def racingSteps : List (ℕ × ExecutionStep) :=
  List.replicate 6 (0, .read) ++ List.replicate 6 (1, .read) ++
    [(0, .evaluate offlineEnv (offlineRuntime 0) 0),
      (1, .evaluate offlineEnv (offlineRuntime 0) 0)] ++
    List.replicate 5 (0, .insert) ++ [(0, .commit), (1, .insert)]

/-- Two runs, two case results and one result are committed. -/
theorem at_most_one_complete_result_racing : ∃ s,
    Run (Executions.Step offlineCatalog) offlineExecutions racingSteps s ∧
      s.tables.committed.length = 5 ∧ (s.program 1).isNone ∧
        (s.tables.committed = [] ∨ ∃ writer experiment dataset,
          offlineCatalog.experiment (offlineId 0) = some experiment ∧
            offlineCatalog.dataset experiment.datasetId = some dataset ∧
              Complete experiment dataset writer s.tables.committed) := by
  have hsteps : (Run.runAll (fun s label => s.next offlineCatalog label.1 label.2)
      offlineExecutions racingSteps).map
        (fun s => (s.tables.committed.length, (s.program 1).isNone)) = some (5, true) := by
    decide +kernel
  obtain ⟨s, hs, hfacts⟩ := Option.map_eq_some_iff.mp hsteps
  obtain ⟨hlength, hended⟩ := Prod.mk.inj hfacts
  exact ⟨s, Run.of_runAll hs, hlength, hended, at_most_one_complete_result (Run.of_runAll hs)⟩

end EvalOps
