import EvalOps.Api.Results
import EvalOps.Obs.LogScopes
import EvalOps.Providers

/-!
# `EvalOps.ExecutionLog`: the evaluation of a persisted experiment with its log

`runner.py` and `execution_service.py` once more, with the correlation scope and the log events
that `EvalOps.Runner` and `EvalOps.ExecutionService` leave out: one event for each provider call,
and those of the experiment around them. The functions keep the text of those they repeat. What the
clock says of a duration is a parameter.
-/

set_option autoImplicit false

namespace EvalOps

open Effect Obs Watched

/-- The durations that are logged: of the `k`-th provider call, and of the experiment. -/
structure Durations where
  call : ℕ → ℚ
  experiment : ℚ

/-! ### The events -/

/-- How a provider call ends, where the run goes on. -/
inductive CallEvent
  | failed (exc : PyError)
  | completed (response : ProviderResponse)

namespace CallEvent

/-- The event's name. -/
def name : CallEvent → String
  | failed _ => "provider_call_failed"
  | completed _ => "provider_call_completed"

/-- The level that it is logged at. -/
def level : CallEvent → LogLevel
  | failed _ => .warning
  | completed _ => .debug

/-- `outcome`, and the fields behind it. -/
def ownFields (unicodeAlnum : Char → Bool) : CallEvent → List (String × LogValue)
  | failed exc =>
      [("outcome", .str "error"), ("error_type", .str exc.kind.className),
        ("error", .str (safeError unicodeAlnum exc.kind.className exc.message defaultLimit))]
  | completed response =>
      [("outcome", .str "success"), ("prompt_tokens", .int response.usage.promptTokens),
        ("completion_tokens", .int response.usage.completionTokens),
        ("cost_usd", .float response.usage.costUsd),
        ("provider_latency_ms", .float response.usage.latencyMs)]

/-- The fields of the call. -/
def fields (unicodeAlnum : Char → Bool) (systemVersion : SystemVersion) (case : DatasetCase)
    (repeatIndex : ℕ) (duration : ℚ) (event : CallEvent) : List (String × LogValue) :=
  [("provider", .str systemVersion.provider.value), ("model", .str systemVersion.model.text),
    ("case_id", .str case.id.text), ("repeat_index", .int repeatIndex),
    ("duration_ms", .float duration)] ++ event.ownFields unicodeAlnum

end CallEvent

/-- The events of an experiment. -/
inductive ExperimentEvent
  | started (experiment : Experiment) (evaluatorCount : ℕ) (backend : ProviderBackend)
  | decided (gate : GateReport)
  | failed (exc : PyError)
  | completed (evaluation : EvaluationOutcome) (storedId : EntityId)

namespace ExperimentEvent

/-- The event's name. -/
def name : ExperimentEvent → String
  | started .. => "experiment_started"
  | decided _ => "release_decision_computed"
  | failed _ => "experiment_failed"
  | completed .. => "experiment_completed"

/-- The level that it is logged at. -/
def level : ExperimentEvent → LogLevel
  | failed _ => .error
  | _ => .info

/-- The fields of the event. -/
def fields (unicodeAlnum : Char → Bool) (duration : ℚ) :
    ExperimentEvent → List (String × LogValue)
  | started experiment evaluatorCount backend =>
      [("dataset_id", .str experiment.datasetId.text),
        ("baseline_version_id", .str experiment.baselineVersionId.text),
        ("candidate_version_id", .str experiment.candidateVersionId.text),
        ("repeats", .int experiment.repeats), ("evaluator_count", .int evaluatorCount),
        ("backend", .str backend.value)]
  | decided gate =>
      [("decision", .str gate.decision.value), ("gated", .bool gate.gated),
        ("blocking_metrics", .int gate.reasons.length),
        ("advisories", .int gate.advisories.length)]
  | failed exc =>
      [("duration_ms", .float duration), ("error_type", .str exc.kind.className),
        ("error", .str (safeError unicodeAlnum exc.kind.className exc.message defaultLimit))]
  | completed evaluation storedId =>
      [("evaluation_result_id", .str storedId.text),
        ("run_count", .int evaluation.outcome.runs.length),
        ("failure_count", .int (evaluation.outcome.runs.countP fun run => run.error.isSome)),
        ("decision", .str evaluation.gate.decision.value), ("gated", .bool evaluation.gate.gated),
        ("duration_ms", .float duration)]

end ExperimentEvent

section Logged

variable (unicodeAlnum : Char → Bool) (durations : Durations)

/-! ### The runner -/

/-- The number of `complete` calls made. -/
def callsMade : Logged ℕ ℕ := onState get

/-- `_execute`. -/
def loggedExecute (env : Environment) (experiment : Experiment) (systemVersion : SystemVersion)
    (case : DatasetCase) (repeatIndex : ℕ) (prompt : String) (provider : ProviderClient) :
    Logged ℕ EvaluationRun := do
  let k ← callsMade
  let log (event : CallEvent) : Logged ℕ Unit :=
    logTo unicodeAlnum "evalops.provider" event.name event.level
      (event.fields unicodeAlnum systemVersion case repeatIndex (durations.call k))
  tryCatch
    (do
      let response ← onState (provider.complete prompt systemVersion)
      log (.completed response)
      pure (successfulRun experiment systemVersion case repeatIndex response (env.runStamp k)))
    (fun exc =>
      if exc.kind = .providerError then do
        log (.failed exc)
        pure (failedRun experiment systemVersion case repeatIndex exc (env.runStamp k))
      else throw exc)

/-- One repeat of one case: the run and its case result. -/
def loggedRepeat (env : Environment) (experiment : Experiment) (systemVersion : SystemVersion)
    (provider : ProviderClient) (evaluators : List Evaluator) (case : DatasetCase)
    (prompt : String) (repeatIndex : ℕ) : Logged ℕ (EvaluationRun × CaseResult) := do
  let k ← callsMade
  let run ← loggedExecute unicodeAlnum durations env experiment systemVersion case repeatIndex
    prompt provider
  let caseResult ← Effect.lift (score run case evaluators (env.caseResultStamp k))
  pure (run, caseResult)

/-- The repeats of one case, over one rendered prompt. -/
def loggedCase (env : Environment) (experiment : Experiment) (systemVersion : SystemVersion)
    (provider : ProviderClient) (evaluators : List Evaluator) (case : DatasetCase) :
    Logged ℕ (List (EvaluationRun × CaseResult)) := do
  let prompt ← Effect.lift (renderPrompt systemVersion.promptTemplate.text case.input.text)
  (List.range experiment.repeats).mapM
    (loggedRepeat unicodeAlnum durations env experiment systemVersion provider evaluators case
      prompt)

/-- The cases of one version. -/
def loggedVersion (env : Environment) (experiment : Experiment) (dataset : Dataset)
    (providers : Dict ProviderName ProviderClient) (evaluators : List Evaluator)
    (systemVersion : SystemVersion) : Logged ℕ (List (EvaluationRun × CaseResult)) := do
  let provider ← Effect.lift (lookupProvider providers systemVersion.provider)
  let perCase ← dataset.cases.mapM
    (loggedCase unicodeAlnum durations env experiment systemVersion provider evaluators)
  pure perCase.flatten

/-- `run_experiment`. -/
def loggedRunExperiment (env : Environment) (experiment : Experiment) (dataset : Dataset)
    (baselineVersion candidateVersion : SystemVersion)
    (providers : Dict ProviderName ProviderClient) (evaluators : List Evaluator) :
    Logged ℕ RunOutcome := do
  Effect.lift
    (preflight experiment dataset baselineVersion candidateVersion providers evaluators)
  let perVersion ← [baselineVersion, candidateVersion].mapM
    (loggedVersion unicodeAlnum durations env experiment dataset providers evaluators)
  let scored := perVersion.flatten
  pure { runs := scored.map Prod.fst, caseResults := scored.map Prod.snd }

/-- `run_evaluation`. -/
def loggedRunEvaluation (env : Environment) (rt : Runtime) (plan : RunPlan) :
    Logged ℕ EvaluationOutcome := do
  let outcome ← loggedRunExperiment unicodeAlnum durations env plan.experiment plan.dataset
    plan.baseline plan.candidate plan.providers plan.evaluators
  Effect.lift
    (assess rt plan.experiment (plan.evaluators.map Evaluator.name) plan.policy env.resultStamp
      outcome)

/-! ### The experiment -/

/-- `build_evaluators` on the specs of a request, and `build_providers`. -/
structure Builders (Spec : Type) where
  evaluators : List Spec → Py (List Evaluator)
  providers : ExecutionSpec → SystemVersion → SystemVersion →
    Py (Dict ProviderName ProviderClient)

variable {Spec : Type}

/-- The part of `execute_experiment` in its scope: the evaluation, and the id of its stored result.
-/
def loggedExperiment (env : Environment) (rt : Runtime) (repos : Repositories)
    (builders : Builders Spec) (execution : ExecutionSpec) (evaluatorSpecs : List Spec)
    (persisted : Persisted) : Logged ℕ (EvaluationOutcome × EntityId) :=
  correlationScope [("experiment_id", some persisted.experiment.id.text),
      ("project_id", some persisted.experiment.projectId.text)] do
    let log (event : ExperimentEvent) : Logged ℕ Unit :=
      logTo unicodeAlnum "evalops.execution" event.name event.level
        (event.fields unicodeAlnum durations.experiment)
    log (.started persisted.experiment evaluatorSpecs.length execution.backend)
    let stored ← tryCatch
      (do
        let evaluators ← Effect.lift (builders.evaluators evaluatorSpecs)
        let providers ← Effect.lift
          (builders.providers execution persisted.baseline persisted.candidate)
        let evaluation ← loggedRunEvaluation unicodeAlnum durations env rt
          (persisted.plan evaluators providers)
        log (.decided evaluation.gate)
        Effect.lift (persist repos evaluation))
      (fun exc =>
        if exc.isException then do
          log (.failed exc)
          throw exc
        else throw exc)
    log (.completed stored.1 stored.2)
    pure stored

/-- `execute_experiment`: the evaluation and its response. -/
def loggedExecution (env : Environment) (rt : Runtime) (repos : Repositories)
    (builders : Builders Spec) (execution : ExecutionSpec) (evaluatorSpecs : List Spec)
    (experimentId : EntityId) : Logged ℕ (EvaluationOutcome × RunResponse) := do
  let persisted ← Effect.lift (readPersisted repos experimentId)
  let stored ← loggedExperiment unicodeAlnum durations env rt repos builders execution
    evaluatorSpecs persisted
  let response ← Effect.lift
    (RunResponse.of persisted.experiment persisted.dataset persisted.baseline persisted.candidate
      stored.1.outcome.runs stored.1.result stored.1.gate stored.2)
  pure (stored.1, response)

/-- `execute_experiment_in_uow`. -/
def loggedExecutionInUow (env : Environment) (rt : Runtime) (repos : Repositories)
    (commit : Py Unit) (builders : Builders Spec) (execution : ExecutionSpec)
    (evaluatorSpecs : List Spec) (experimentId : String) : Logged ℕ RunResponse :=
  if h : PyText.isBlank experimentId = false then do
    let ran ← loggedExecution unicodeAlnum durations env rt repos builders execution evaluatorSpecs
      ⟨experimentId, h⟩
    Effect.lift commit
    pure ran.2
  else
    throw ⟨.recordNotFound, "experiment " ++ PyText.repr experimentId ++ " not found"⟩

end Logged

end EvalOps
