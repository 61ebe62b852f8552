import EvalOps.Config

/-!
# `EvalOps.ExecutionService`: the evaluation of a persisted experiment

`execution_service.py`. `executeExperiment` reads the entities of an experiment, evaluates them
and adds the runs, the case results and the evaluation result to the session. The repositories
are what the session answers. The log events are in `EvalOps.ExecutionLog`.
-/

set_option autoImplicit false

namespace EvalOps

/-- The repositories of one session: what each query and each insert answers. An insert raises
what the database raises, which is no `ConfigError`. -/
structure Repositories where
  experiment : EntityId → Py (Option Experiment)
  listRuns : EntityId → Py (List EvaluationRun)
  project : EntityId → Py (Option Project)
  dataset : EntityId → Py (Option Dataset)
  systemVersion : EntityId → Py (Option SystemVersion)
  releasePolicy : EntityId → Py (Option ReleasePolicy)
  addRun : EvaluationRun → Py Unit
  addCaseResult : CaseResult → Py Unit
  addResult : EvaluationResult → Py EvaluationResult
  addRun_foreign : ∀ run, RaisesNoConfigError (addRun run)
  addCaseResult_foreign : ∀ caseResult, RaisesNoConfigError (addCaseResult caseResult)
  addResult_foreign : ∀ result, RaisesNoConfigError (addResult result)

/-- `_require`. -/
def require {α : Type} (value : Option α) (kind : String) (ref : EntityId) : Py α :=
  match value with
  | some value => pure value
  | none => throw ⟨.persistenceError,
      kind ++ " " ++ PyText.repr ref.text ++ " referenced by the experiment is missing"⟩

/-- The entities that `execute_experiment` reads. -/
structure Persisted where
  project : Project
  dataset : Dataset
  experiment : Experiment
  baseline : SystemVersion
  candidate : SystemVersion
  policy : Option ReleasePolicy

/-- The reads of `execute_experiment`. -/
def readPersisted (repos : Repositories) (experimentId : EntityId) : Py Persisted := do
  let found ← repos.experiment experimentId
  match found with
  | none =>
      throw ⟨.recordNotFound, "experiment " ++ PyText.repr experimentId.text ++ " not found"⟩
  | some experiment =>
      let runs ← repos.listRuns experiment.id
      if ¬runs.isEmpty then
        throw ⟨.recordConflict, "experiment " ++ PyText.repr experiment.id.text ++
          " has already been run; its results are immutable"⟩
      else
        let project ← require (← repos.project experiment.projectId) "project"
          experiment.projectId
        let dataset ← require (← repos.dataset experiment.datasetId) "dataset"
          experiment.datasetId
        let baseline ← require (← repos.systemVersion experiment.baselineVersionId)
          "baseline system version" experiment.baselineVersionId
        let candidate ← require (← repos.systemVersion experiment.candidateVersionId)
          "candidate system version" experiment.candidateVersionId
        let policy ← match experiment.releasePolicyId with
          | none => pure none
          | some policyId => do
              let policy ← require (← repos.releasePolicy policyId) "release policy" policyId
              pure (some policy)
        pure { project, dataset, experiment, baseline, candidate, policy }

/-- The plan of what was read, with what was built. -/
def Persisted.plan (persisted : Persisted) (evaluators : List Evaluator)
    (providers : Dict ProviderName ProviderClient) : RunPlan where
  project := persisted.project
  dataset := persisted.dataset
  experiment := persisted.experiment
  baseline := persisted.baseline
  candidate := persisted.candidate
  evaluators := evaluators
  policy := persisted.policy
  providers := providers

/-- What `execute_experiment` does up to `run_evaluation`: the reads, `build_evaluators` and
`build_providers`. -/
def loadPersisted (repos : Repositories) (experimentId : EntityId)
    (buildEvaluators : Py (List Evaluator))
    (buildProviders : SystemVersion → SystemVersion → Py (Dict ProviderName ProviderClient)) :
    Py RunPlan := do
  let persisted ← readPersisted repos experimentId
  let evaluators ← buildEvaluators
  let providers ← buildProviders persisted.baseline persisted.candidate
  pure (persisted.plan evaluators providers)

/-- What `execute_experiment` does with the evaluation: one insert for each row. -/
def persist (repos : Repositories) (evaluation : EvaluationOutcome) :
    Py (EvaluationOutcome × EntityId) := do
  evaluation.outcome.runs.forM repos.addRun
  evaluation.outcome.caseResults.forM repos.addCaseResult
  let stored ← repos.addResult evaluation.result
  pure (evaluation, stored.id)

/-- `execute_experiment`: the evaluation, and the id of its stored result. -/
def executeExperiment (env : Environment) (rt : Runtime) (repos : Repositories)
    (experimentId : EntityId) (buildEvaluators : Py (List Evaluator))
    (buildProviders : SystemVersion → SystemVersion → Py (Dict ProviderName ProviderClient)) :
    RunM (EvaluationOutcome × EntityId) :=
  runPlanned env rt (loadPersisted repos experimentId buildEvaluators buildProviders)
    (persist repos)

end EvalOps
