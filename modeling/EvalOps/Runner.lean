import EvalOps.Contracts
import EvalOps.Prompt

/-!
# `EvalOps.Runner`: the synchronous evaluation runner

`runner.py`. `runExperiment` executes the baseline and then the candidate, over the cases in
dataset order and the repeats in ascending order, and returns the runs with their case results.
A `ProviderError` of one call becomes a failed run. Every other exception ends the experiment.

The fresh identifiers and the clock come from an `Environment`: the run of the `k`-th provider
call takes its `k`-th pair of stamps. `uuid4` identifiers are taken to be distinct. The log events
are in `EvalOps.ExecutionLog`.
-/

set_option autoImplicit false

namespace EvalOps

/-- What the construction of runs and results draws from `new_id` and `utcnow`. -/
structure Environment where
  runStamp : ℕ → Stamp
  caseResultStamp : ℕ → Stamp
  resultStamp : Stamp
  runStamp_injective : Function.Injective fun k => (runStamp k).id

/-- `RunOutcome`: the runs and their case results, in execution order. -/
structure RunOutcome where
  runs : List EvaluationRun
  caseResults : List CaseResult

/-- `str(exc).strip() or type(exc).__name__`: the error text of a failed run. -/
def failureText (e : PyError) : NonBlank :=
  if h : PyText.strip e.message ≠ "" then ⟨PyText.strip e.message, PyText.isBlank_strip_of_ne h⟩
  else ⟨"ProviderError", by decide⟩

/-- The failed run that `_execute` records for a `ProviderError`. -/
def failedRun (experiment : Experiment) (systemVersion : SystemVersion) (case : DatasetCase)
    (repeatIndex : ℕ) (exc : PyError) (stamp : Stamp) : EvaluationRun where
  experimentId := experiment.id
  systemVersionId := systemVersion.id
  caseId := case.id
  repeatIndex := repeatIndex
  output := ""
  usage := UsageMetrics.zero
  error := some (failureText exc)
  retrieval := []
  toolCalls := []
  id := stamp.id
  createdAt := stamp.createdAt

/-- The successful run that `_execute` records for a response. -/
def successfulRun (experiment : Experiment) (systemVersion : SystemVersion) (case : DatasetCase)
    (repeatIndex : ℕ) (response : ProviderResponse) (stamp : Stamp) : EvaluationRun where
  experimentId := experiment.id
  systemVersionId := systemVersion.id
  caseId := case.id
  repeatIndex := repeatIndex
  output := response.text
  usage := response.usage
  error := none
  retrieval := response.retrieval
  toolCalls := response.toolCalls
  id := stamp.id
  createdAt := stamp.createdAt

/-- `_execute`: one provider call, and the run that records it. -/
def execute (env : Environment) (experiment : Experiment) (systemVersion : SystemVersion)
    (case : DatasetCase) (repeatIndex : ℕ) (prompt : String) (provider : ProviderClient) :
    RunM EvaluationRun := do
  let k ← get
  tryCatch
    (do
      let response ← provider.complete prompt systemVersion
      pure (successfulRun experiment systemVersion case repeatIndex response (env.runStamp k)))
    (fun exc =>
      if exc.kind = .providerError then
        pure (failedRun experiment systemVersion case repeatIndex exc (env.runStamp k))
      else throw exc)

/-- `_score`: the evaluators over a successful run, no scores for a failed one. -/
def score (run : EvaluationRun) (case : DatasetCase) (evaluators : List Evaluator)
    (stamp : Stamp) : Py CaseResult :=
  if run.error.isSome then CaseResult.make run.id [] stamp
  else do
    let scores ← evaluators.mapM fun evaluator => evaluator.evaluate run case
    CaseResult.make run.id scores stamp

/-- One iteration of `_preflight`'s loop over the ids that must match the experiment. -/
def requireId (label : String) (got expected : EntityId) : Py Unit :=
  if got ≠ expected then
    throw (.config (label ++ " id " ++ PyText.repr got.text ++
      " does not match the experiment's " ++ label ++ "_id " ++ PyText.repr expected.text))
  else pure ()

/-- `_preflight`: the checks before the first provider call. -/
def preflight (experiment : Experiment) (dataset : Dataset)
    (baselineVersion candidateVersion : SystemVersion)
    (providers : Dict ProviderName ProviderClient) (evaluators : List Evaluator) : Py Unit := do
  requireId "dataset" dataset.id experiment.datasetId
  requireId "baseline_version" baselineVersion.id experiment.baselineVersionId
  requireId "candidate_version" candidateVersion.id experiment.candidateVersionId
  let required := [baselineVersion.provider, candidateVersion.provider].dedup
  let missing := Sorting.sorted
    ((required.filter fun name => !providers.contains name).map ProviderName.value)
  if missing ≠ [] then
    throw (.config ("no ProviderClient supplied for provider(s): " ++ PyText.reprList missing))
  let names := evaluators.map Evaluator.name
  let duplicates := Sorting.sorted (names.filter fun name => 1 < names.count name).dedup
  if duplicates ≠ [] then
    throw (.config ("evaluator names must be unique; duplicated: " ++
      PyText.reprList duplicates))

/-- `providers[system_version.provider]`. -/
def lookupProvider (providers : Dict ProviderName ProviderClient) (name : ProviderName) :
    Py ProviderClient :=
  match providers.get? name with
  | some provider => pure provider
  | none => throw ⟨.keyError, PyText.repr name.value⟩

/-- One repeat of one case: the run and its case result. -/
def runRepeat (env : Environment) (experiment : Experiment) (systemVersion : SystemVersion)
    (provider : ProviderClient) (evaluators : List Evaluator) (case : DatasetCase)
    (prompt : String) (repeatIndex : ℕ) : RunM (EvaluationRun × CaseResult) := do
  let k ← get
  let run ← execute env experiment systemVersion case repeatIndex prompt provider
  let caseResult ← Effect.lift (score run case evaluators (env.caseResultStamp k))
  pure (run, caseResult)

/-- The repeats of one case, over one rendered prompt. -/
def runCase (env : Environment) (experiment : Experiment) (systemVersion : SystemVersion)
    (provider : ProviderClient) (evaluators : List Evaluator) (case : DatasetCase) :
    RunM (List (EvaluationRun × CaseResult)) := do
  let prompt ← Effect.lift (renderPrompt systemVersion.promptTemplate.text case.input.text)
  (List.range experiment.repeats).mapM
    (runRepeat env experiment systemVersion provider evaluators case prompt)

/-- The cases of one version. -/
def runVersion (env : Environment) (experiment : Experiment) (dataset : Dataset)
    (providers : Dict ProviderName ProviderClient) (evaluators : List Evaluator)
    (systemVersion : SystemVersion) : RunM (List (EvaluationRun × CaseResult)) := do
  let provider ← Effect.lift (lookupProvider providers systemVersion.provider)
  let perCase ← dataset.cases.mapM
    (runCase env experiment systemVersion provider evaluators)
  pure perCase.flatten

/-- `run_experiment`. The pairs are the two parallel lists of the outcome. -/
def runExperiment (env : Environment) (experiment : Experiment) (dataset : Dataset)
    (baselineVersion candidateVersion : SystemVersion)
    (providers : Dict ProviderName ProviderClient) (evaluators : List Evaluator) :
    RunM RunOutcome := do
  Effect.lift
    (preflight experiment dataset baselineVersion candidateVersion providers evaluators)
  let perVersion ← [baselineVersion, candidateVersion].mapM
    (runVersion env experiment dataset providers evaluators)
  let scored := perVersion.flatten
  pure { runs := scored.map Prod.fst, caseResults := scored.map Prod.snd }

end EvalOps
