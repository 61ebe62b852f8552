import EvalOps.ExecutionLog
import EvalOps.Proofs.LogScopes

/-!
# `EvalOps.Proofs.ExecutionLog`: the log of an evaluation

Without its log and its scope, the logged evaluation is `runExperimentRoute`
(`erases_loggedExecution`). In a request, each of its events carries the request's id
(`carries_loggedExecution`). Both follow the text of the program, function by function.
-/

set_option autoImplicit false

namespace EvalOps

open Effect Obs Watched

variable {unicodeAlnum : Char → Bool} {durations : Durations} {env : Environment} {rt : Runtime}
  {repos : Repositories} {experiment : Experiment} {dataset : Dataset}
  {providers : Dict ProviderName ProviderClient} {evaluators : List Evaluator}
  {systemVersion : SystemVersion} {case : DatasetCase} {prompt : String}
  {provider : ProviderClient}

/-! ### Logging changes nothing -/

theorem erases_loggedExecute {repeatIndex : ℕ} (w : Watched ℕ Correlation LogEvent) :
    Erases w
      (loggedExecute unicodeAlnum durations env experiment systemVersion case repeatIndex prompt
        provider)
      (execute env experiment systemVersion case repeatIndex prompt provider) := by
  refine Erases.bind (erases_onState _) fun k _ _ _ => Erases.tryCatch ?_ fun exc _ _ _ => ?_
  · exact Erases.bind (erases_onState _) fun _ _ _ _ =>
      erases_logTo_bind fun _ _ => erases_pure _
  · -- A failed call is a failed run, with an event of its own.
    exact Erases.orThrow (erases_logTo_bind fun _ _ => erases_pure _)

theorem erases_loggedRepeat (repeatIndex : ℕ) (w : Watched ℕ Correlation LogEvent) :
    Erases w
      (loggedRepeat unicodeAlnum durations env experiment systemVersion provider evaluators case
        prompt repeatIndex)
      (runRepeat env experiment systemVersion provider evaluators case prompt repeatIndex) :=
  Erases.bind (erases_onState _) fun _ _ _ _ =>
    Erases.bind (erases_loggedExecute _) fun _ _ _ _ =>
      Erases.bind (erases_lift _) fun _ _ _ _ => erases_pure _

theorem erases_loggedCase (case : DatasetCase) (w : Watched ℕ Correlation LogEvent) :
    Erases w
      (loggedCase unicodeAlnum durations env experiment systemVersion provider evaluators case)
      (runCase env experiment systemVersion provider evaluators case) :=
  Erases.bind (erases_lift _) fun _ _ _ _ => Erases.mapM erases_loggedRepeat _

theorem erases_loggedVersion (systemVersion : SystemVersion)
    (w : Watched ℕ Correlation LogEvent) :
    Erases w
      (loggedVersion unicodeAlnum durations env experiment dataset providers evaluators
        systemVersion)
      (runVersion env experiment dataset providers evaluators systemVersion) :=
  Erases.bind (erases_lift _) fun _ _ _ _ =>
    Erases.bind (Erases.mapM erases_loggedCase _) fun _ _ _ _ => erases_pure _

theorem erases_loggedRunEvaluation {plan : RunPlan} (w : Watched ℕ Correlation LogEvent) :
    Erases w (loggedRunEvaluation unicodeAlnum durations env rt plan) (plan.evaluate env rt) := by
  refine Erases.bind (Erases.bind (erases_lift _) fun _ _ _ _ => ?_) fun _ _ _ _ => erases_lift _
  exact Erases.bind (Erases.mapM erases_loggedVersion _) fun _ _ _ _ => erases_pure _

/-- The part of `executeExperiment` between the reads and the response. -/
def plainExperiment {Spec : Type} (env : Environment) (rt : Runtime) (repos : Repositories)
    (builders : Builders Spec) (execution : ExecutionSpec) (evaluatorSpecs : List Spec)
    (persisted : Persisted) : RunM (EvaluationOutcome × EntityId) := do
  let evaluators ← Effect.lift (builders.evaluators evaluatorSpecs)
  let providers ← Effect.lift
    (builders.providers execution persisted.baseline persisted.candidate)
  let evaluation ← (persisted.plan evaluators providers).evaluate env rt
  Effect.lift (persist repos evaluation)

section Experiment

variable {Spec : Type} {builders : Builders Spec} {execution : ExecutionSpec}
  {evaluatorSpecs : List Spec}

theorem erases_loggedExperiment (persisted : Persisted) (w : Watched ℕ Correlation LogEvent) :
    Erases w
      (loggedExperiment unicodeAlnum durations env rt repos builders execution evaluatorSpecs
        persisted)
      (plainExperiment env rt repos builders execution evaluatorSpecs persisted) := by
  rw [← bind_pure (plainExperiment env rt repos builders execution evaluatorSpecs persisted)]
  refine erases_within (erases_logTo_bind fun w₁ _ => Erases.bind (Erases.rethrow ?_ ?_) ?_)
  · refine Erases.bind (erases_lift _) fun evaluators _ _ _ => ?_
    refine Erases.bind (erases_lift _) fun providers _ _ _ => ?_
    exact Erases.bind (erases_loggedRunEvaluation _) fun evaluation _ _ _ =>
      erases_logTo_bind fun _ _ => erases_lift _
  · intro exc _ _
    -- With the event or without it, the exception goes on.
    split
    · exact erases_logTo_bind fun _ _ => erases_throw _
    · exact erases_throw _
  · exact fun _ _ _ _ => erases_logTo_bind fun _ _ => erases_pure _

/-- The route in two parts. -/
theorem runExperimentRoute_eq (experimentId : EntityId) :
    runExperimentRoute env rt repos experimentId (builders.evaluators evaluatorSpecs)
        (builders.providers execution)
      = (do
          let persisted ← Effect.lift (readPersisted repos experimentId)
          let stored ← plainExperiment env rt repos builders execution evaluatorSpecs persisted
          let response ← Effect.lift
            (RunResponse.of persisted.experiment persisted.dataset persisted.baseline
              persisted.candidate stored.1.outcome.runs stored.1.result stored.1.gate stored.2)
          pure (stored.1, response)) := by
  have hpure : ∀ {α : Type} (a : α), (Effect.lift (pure a : Py α) : RunM α) = pure a := fun _ => rfl
  unfold runExperimentRoute loadPersisted plainExperiment persist
  simp only [Effect.lift_bind, bind_assoc, hpure, pure_bind]
  rfl

/-- Without its log and its scope, the logged execution is the route. -/
theorem erases_loggedExecution (experimentId : EntityId) (w : Watched ℕ Correlation LogEvent) :
    Erases w
      (loggedExecution unicodeAlnum durations env rt repos builders execution evaluatorSpecs
        experimentId)
      (runExperimentRoute env rt repos experimentId (builders.evaluators evaluatorSpecs)
        (builders.providers execution)) := by
  rw [runExperimentRoute_eq]
  exact Erases.bind (erases_lift _) fun persisted _ _ _ =>
    Erases.bind (erases_loggedExperiment persisted _) fun _ _ _ _ =>
      Erases.bind (erases_lift _) fun _ _ _ _ => erases_pure _

theorem erases_loggedExecutionInUow {commit : Py Unit} (experimentId : String)
    (w : Watched ℕ Correlation LogEvent) :
    Erases w
      (loggedExecutionInUow unicodeAlnum durations env rt repos commit builders execution
        evaluatorSpecs experimentId)
      (executeExperimentInUow env rt repos commit experimentId (builders.evaluators evaluatorSpecs)
        (builders.providers execution)) := by
  unfold loggedExecutionInUow executeExperimentInUow
  split
  · exact Erases.bind (erases_loggedExecution _ _) fun _ _ _ _ =>
      Erases.bind (erases_lift _) fun _ _ _ _ => erases_pure _
  · exact erases_throw _

end Experiment

/-! ### Every event carries the request -/

section Request

variable {requestId : String}

theorem requestId_notMem_call (event : CallEvent) (repeatIndex : ℕ) (duration : ℚ) :
    "request_id" ∉
      (event.fields unicodeAlnum systemVersion case repeatIndex duration).map Prod.fst := by
  cases event <;> simp [CallEvent.fields, CallEvent.ownFields]

theorem requestId_notMem_experiment (event : ExperimentEvent) (duration : ℚ) :
    "request_id" ∉ (event.fields unicodeAlnum duration).map Prod.fst := by
  cases event <;> simp [ExperimentEvent.fields]

theorem carries_loggedExecute {repeatIndex : ℕ} :
    CarriesRequest requestId
      (loggedExecute unicodeAlnum durations env experiment systemVersion case repeatIndex prompt
        provider) := by
  refine (carries_onState _).bind fun k => CarriesRequest.tryCatch ?_ fun exc => ?_
  · exact (carries_onState _).bind fun response =>
      (carries_logTo (requestId_notMem_call _ _ _)).bind fun _ => carries_pure _
  · exact CarriesRequest.orThrow
      ((carries_logTo (requestId_notMem_call _ _ _)).bind fun _ => carries_pure _)

theorem carries_loggedVersion (systemVersion : SystemVersion) :
    CarriesRequest requestId
      (loggedVersion unicodeAlnum durations env experiment dataset providers evaluators
        systemVersion) := by
  -- A version runs its cases, a case its repeats, and a repeat makes one call.
  have hrepeat : ∀ provider case prompt repeatIndex, CarriesRequest requestId
      (loggedRepeat unicodeAlnum durations env experiment systemVersion provider evaluators case
        prompt repeatIndex) := fun _ _ _ _ =>
    (carries_onState _).bind fun _ => carries_loggedExecute.bind fun _ =>
      (carries_lift _).bind fun _ => carries_pure _
  have hcase : ∀ provider case, CarriesRequest requestId
      (loggedCase unicodeAlnum durations env experiment systemVersion provider evaluators
        case) := fun provider case =>
    (carries_lift _).bind fun prompt => CarriesRequest.mapM (hrepeat provider case prompt) _
  exact (carries_lift _).bind fun provider =>
    (CarriesRequest.mapM (hcase provider) _).bind fun _ => carries_pure _

theorem carries_loggedRunEvaluation {plan : RunPlan} :
    CarriesRequest requestId (loggedRunEvaluation unicodeAlnum durations env rt plan) := by
  refine CarriesRequest.bind ?_ fun _ => carries_lift _
  exact (carries_lift _).bind fun _ =>
    (CarriesRequest.mapM carries_loggedVersion _).bind fun _ => carries_pure _

variable {Spec : Type} {builders : Builders Spec} {execution : ExecutionSpec}
  {evaluatorSpecs : List Spec}

theorem carries_loggedExperiment (persisted : Persisted) :
    CarriesRequest requestId
      (loggedExperiment unicodeAlnum durations env rt repos builders execution evaluatorSpecs
        persisted) := by
  have hlog : ∀ event : ExperimentEvent, CarriesRequest requestId
      (logTo unicodeAlnum "evalops.execution" event.name event.level
        (event.fields unicodeAlnum durations.experiment) : Logged ℕ Unit) := fun event =>
    carries_logTo (requestId_notMem_experiment event _)
  refine CarriesRequest.correlationScope ?_ (by simp)
  refine (hlog _).bind fun _ => CarriesRequest.bind (CarriesRequest.tryCatch ?_ ?_) ?_
  · refine (carries_lift _).bind fun _ => (carries_lift _).bind fun _ => ?_
    exact carries_loggedRunEvaluation.bind fun _ => (hlog _).bind fun _ => carries_lift _
  · intro exc
    exact CarriesRequest.orThrow ((hlog _).bind fun _ => carries_throw _)
  · exact fun _ => (hlog _).bind fun _ => carries_pure _

/-- In a request, each event of an execution carries the request's id. -/
theorem carries_loggedExecutionInUow {commit : Py Unit} (experimentId : String) :
    CarriesRequest requestId
      (loggedExecutionInUow unicodeAlnum durations env rt repos commit builders execution
        evaluatorSpecs experimentId) := by
  unfold loggedExecutionInUow
  split
  · refine CarriesRequest.bind ?_ fun _ => (carries_lift _).bind fun _ => carries_pure _
    exact (carries_lift _).bind fun persisted => (carries_loggedExperiment persisted).bind
      fun _ => (carries_lift _).bind fun _ => carries_pure _
  · exact carries_throw _

end Request

end EvalOps
