import EvalOps.ExecutionService
import EvalOps.Lib.Programs
import EvalOps.Lib.Transactions

/-!
# `EvalOps.ConcurrentExecutions`: executions of one experiment side by side

`execute_experiment` as a program that is interrupted at each database operation, and any number
of its executions in any order. The synchronous route and the worker run it in a transaction
each: `unit_of_work` commits when it returns, and rolls back when it raises.

Isolation is READ COMMITTED. The rows are those of the one experiment: the keys of other
experiments' rows never conflict with them. An insert whose key is pending in another transaction
waits for that transaction, and one whose key is committed is an integrity error. Everything else
that can go wrong, in the code or outside of it, is a failure that may come at any point.
-/

set_option autoImplicit false

namespace EvalOps

/-- A row that `execute_experiment` adds. -/
inductive Row
  | run (run : EvaluationRun)
  | caseResult (caseResult : CaseResult)
  | result (result : EvaluationResult)

/-- The primary keys, and the unique constraints of `evaluation_run` and `case_result`. -/
def Row.conflicts : Row → Row → Bool
  | .run r, .run r' =>
      r.id = r'.id ∨ (r.experimentId = r'.experimentId ∧ r.systemVersionId = r'.systemVersionId ∧
        r.caseId = r'.caseId ∧ r.repeatIndex = r'.repeatIndex)
  | .caseResult c, .caseResult c' => c.id = c'.id ∨ c.runId = c'.runId
  | .result r, .result r' => r.id = r'.id
  | _, _ => false

/-- What `execute_experiment` asks for: the queries and inserts of its session, and the
evaluation. -/
inductive SessionOp
  | experiment (id : EntityId)
  | listRuns (experimentId : EntityId)
  | project (id : EntityId)
  | dataset (id : EntityId)
  | systemVersion (id : EntityId)
  | releasePolicy (id : EntityId)
  | evaluate (plan : RunPlan)
  | addRun (run : EvaluationRun)
  | addCaseResult (caseResult : CaseResult)
  | addResult (result : EvaluationResult)

/-- What it gets. -/
abbrev SessionOp.Answer : SessionOp → Type
  | .experiment _ => Option Experiment
  | .listRuns _ => List EvaluationRun
  | .project _ => Option Project
  | .dataset _ => Option Dataset
  | .systemVersion _ => Option SystemVersion
  | .releasePolicy _ => Option ReleasePolicy
  | .evaluate _ => EvaluationOutcome
  | .addRun _ => PUnit
  | .addCaseResult _ => PUnit
  | .addResult _ => EvaluationResult

/-- A program over one session. -/
abbrev SessionProgram (α : Type) := Program SessionOp SessionOp.Answer PyError α

/-- One operation. -/
def ask (op : SessionOp) : SessionProgram op.Answer := Program.op op

/-- `_require` of what a query found. -/
def requireFound {α : Type} (value : Option α) (kind : String) (ref : EntityId) :
    SessionProgram α := Program.ofExcept (require value kind ref)

/-- `loadPersisted`, one query at a time. -/
def loadSteps (experimentId : EntityId) (buildEvaluators : Py (List Evaluator))
    (buildProviders : SystemVersion → SystemVersion → Py (Dict ProviderName ProviderClient)) :
    SessionProgram RunPlan := do
  let found ← ask (.experiment experimentId)
  match found with
  | none =>
      .raise ⟨.recordNotFound, "experiment " ++ PyText.repr experimentId.text ++ " not found"⟩
  | some experiment =>
      let runs ← ask (.listRuns experiment.id)
      if ¬runs.isEmpty then
        .raise ⟨.recordConflict, "experiment " ++ PyText.repr experiment.id.text ++
          " has already been run; its results are immutable"⟩
      else
        let project ← requireFound (← ask (.project experiment.projectId)) "project"
          experiment.projectId
        let dataset ← requireFound (← ask (.dataset experiment.datasetId)) "dataset"
          experiment.datasetId
        let baseline ← requireFound (← ask (.systemVersion experiment.baselineVersionId))
          "baseline system version" experiment.baselineVersionId
        let candidate ← requireFound (← ask (.systemVersion experiment.candidateVersionId))
          "candidate system version" experiment.candidateVersionId
        let policy ← match experiment.releasePolicyId with
          | none => pure none
          | some policyId => do
              let policy ← requireFound (← ask (.releasePolicy policyId)) "release policy"
                policyId
              pure (some policy)
        let evaluators ← Program.ofExcept buildEvaluators
        let providers ← Program.ofExcept (buildProviders baseline candidate)
        pure { project, dataset, experiment, baseline, candidate, evaluators, policy, providers }

/-- `persist`, one insert at a time. -/
def persistSteps (evaluation : EvaluationOutcome) :
    SessionProgram (EvaluationOutcome × EntityId) := do
  evaluation.outcome.runs.forM fun run => ask (.addRun run)
  evaluation.outcome.caseResults.forM fun caseResult => ask (.addCaseResult caseResult)
  let stored ← ask (.addResult evaluation.result)
  pure (evaluation, stored.id)

/-- `execute_experiment`, one database operation at a time. -/
def executeSteps (experimentId : EntityId) (buildEvaluators : Py (List Evaluator))
    (buildProviders : SystemVersion → SystemVersion → Py (Dict ProviderName ProviderClient)) :
    SessionProgram (EvaluationOutcome × EntityId) := do
  let plan ← loadSteps experimentId buildEvaluators buildProviders
  let evaluation ← ask (.evaluate plan)
  persistSteps evaluation

/-! ### The database -/

/-- The rows that an experiment refers to. No repository changes or deletes them. -/
structure Catalog where
  experiment : EntityId → Option Experiment
  project : EntityId → Option Project
  dataset : EntityId → Option Dataset
  systemVersion : EntityId → Option SystemVersion
  releasePolicy : EntityId → Option ReleasePolicy

/-- The runs among some rows. -/
def runsOf (rows : List (ℕ × Row)) : List EvaluationRun :=
  rows.filterMap fun row =>
    match row.2 with
    | .run run => some run
    | _ => none

/-- The case results among some rows. -/
def caseResultsOf (rows : List (ℕ × Row)) : List CaseResult :=
  rows.filterMap fun row =>
    match row.2 with
    | .caseResult caseResult => some caseResult
    | _ => none

/-- The evaluation results among some rows. -/
def resultsOf (rows : List (ℕ × Row)) : List EvaluationResult :=
  rows.filterMap fun row =>
    match row.2 with
    | .result result => some result
    | _ => none

/-- What a query answers, over the rows that it sees. -/
def Catalog.query (catalog : Catalog) (visible : List (ℕ × Row)) :
    (op : SessionOp) → Option op.Answer
  | .experiment id => some (catalog.experiment id)
  | .listRuns experimentId =>
      some ((runsOf visible).filter fun run => run.experimentId = experimentId)
  | .project id => some (catalog.project id)
  | .dataset id => some (catalog.dataset id)
  | .systemVersion id => some (catalog.systemVersion id)
  | .releasePolicy id => some (catalog.releasePolicy id)
  | _ => none

/-- The row that an insert adds, and what the repository returns. -/
def SessionOp.insertion : (op : SessionOp) → Option (Row × op.Answer)
  | .addRun run => some (.run run, ⟨⟩)
  | .addCaseResult caseResult => some (.caseResult caseResult, ⟨⟩)
  | .addResult result => some (.result result, result)
  | _ => none

/-! ### Executions in any order -/

/-- The tables, and what is left of each execution until it has ended. -/
structure Executions where
  tables : Tables ℕ Row
  program : ℕ → Option (SessionProgram (EvaluationOutcome × EntityId))

/-- One step of an execution. -/
inductive ExecutionStep
  | read
  | evaluate (env : Environment) (rt : Runtime) (calls : ℕ)
  | insert
  | commit
  | fail

namespace Executions

/-- Every execution at its start, with its own evaluators and providers. -/
def initial (experimentId : EntityId) (buildEvaluators : ℕ → Py (List Evaluator))
    (buildProviders : ℕ → SystemVersion → SystemVersion →
      Py (Dict ProviderName ProviderClient)) : Executions where
  tables := .empty
  program := fun i => some (executeSteps experimentId (buildEvaluators i) (buildProviders i))

/-- An execution goes on. -/
def resume (s : Executions) (i : ℕ) (tables : Tables ℕ Row)
    (program : SessionProgram (EvaluationOutcome × EntityId)) : Executions where
  tables := tables
  program := Function.update s.program i (some program)

/-- An execution has ended. -/
def stop (s : Executions) (i : ℕ) (tables : Tables ℕ Row) : Executions where
  tables := tables
  program := Function.update s.program i none

/-- One step of an execution, when it can make it. -/
def next (catalog : Catalog) (s : Executions) (i : ℕ) (step : ExecutionStep) :
    Option Executions :=
  match step, s.program i with
  | .read, some (.call op rest) => do
      let answer ← catalog.query (s.tables.visible i) op
      some (s.resume i s.tables (rest answer))
  | .evaluate env rt calls, some (.call (.evaluate plan) rest) =>
      match (Effect.exec (plan.evaluate env rt) calls).1 with
      | .ok evaluation => some (s.resume i s.tables (rest evaluation))
      | .error _ => some (s.stop i (s.tables.rollback i))
  | .insert, some (.call op rest) => do
      let (row, answer) ← op.insertion
      if s.tables.committed.any (fun w => w.2.conflicts row) then
        -- `_flush` raises `RecordConflict`, which nothing catches.
        some (s.stop i (s.tables.rollback i))
      else if (s.tables.written i).any (fun r => r.conflicts row) then
        some (s.stop i (s.tables.rollback i))
      else if s.tables.pending.any (fun w => w.2.conflicts row) then
        -- The insert waits for the other transaction.
        none
      else some (s.resume i (s.tables.insert i row) (rest answer))
  | .commit, some (.done _) => some (s.stop i (s.tables.commit i))
  | .fail, some _ => some (s.stop i (s.tables.rollback i))
  | _, _ => none

/-- The steps of all executions. -/
def Step (catalog : Catalog) (s : Executions) (label : ℕ × ExecutionStep) (s' : Executions) :
    Prop :=
  s.next catalog label.1 label.2 = some s'

end Executions

end EvalOps
