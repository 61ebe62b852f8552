import EvalOps.ExecutionLog
import EvalOps.Worker.Tasks

/-!
# `EvalOps.Worker.Logged`: background execution with its log

`worker/tasks.py` once more, with the correlation scopes and the log events that
`EvalOps.Worker.Tasks` leaves out. The evaluation answers with its result, or an exception, and the
events that it logs under the fields in scope. The duration in an event is what the clock says.
-/

set_option autoImplicit false

namespace EvalOps

open Effect Obs Watched

/-- A program over the job table that logs. -/
abbrev LoggedTx (α : Type) := Logged JobTable α

section Logged

variable (unicodeAlnum : Char → Bool)

/-- `enqueue_experiment_run`. `delay` is what the broker answers to the job's id and the
correlation fields. -/
def loggedEnqueue (backend : Backend) (now : Timestamp) (experimentId : String) (stamp : Stamp)
    (delay : String → Correlation → Py Unit) : LoggedTx AsyncJob := do
  let job ← onState (Effect.lift (newJob experimentId stamp))
  let _ ← onState (unitOfWork backend.commit (AsyncJobRepository.add backend job))
  correlationScope [("job_id", some job.id), ("experiment_id", some experimentId)] do
    logTo unicodeAlnum "evalops.worker" "async_job_queued" .info
      [("job_id", .str job.id), ("experiment_id", .str experimentId)]
    let context ← scope
    tryCatch (Effect.lift (delay job.id context.snapshotForDispatch)) fun exc =>
      if exc.isException then do
        let _ ← onState (unitOfWork backend.commit
          (AsyncJobRepository.markFailed backend now job.id (dispatchFailureText exc) none))
        logTo unicodeAlnum "evalops.worker" "async_job_dispatch_failed" .error
          [("job_id", .str job.id), ("experiment_id", .str experimentId),
            ("error_type", .str exc.kind.className),
            ("error", .str (safeError unicodeAlnum exc.kind.className exc.message defaultLimit))]
        throw ⟨.dispatchError, "async job " ++ PyText.repr job.id ++
          " was recorded but could not be dispatched: " ++ exc.message⟩
      else throw exc
  pure job

/-- The events of a task. -/
inductive JobEvent
  | started
  | failed (exc : PyError)
  | completed (evaluationResultId : String)

namespace JobEvent

/-- The event's name. -/
def name : JobEvent → String
  | started => "async_job_started"
  | failed _ => "async_job_failed"
  | completed _ => "async_job_completed"

/-- The level that it is logged at. -/
def level : JobEvent → LogLevel
  | started | completed _ => .info
  | failed _ => .error

/-- The fields behind those that all three share. -/
def ownFields (duration : ℚ) : JobEvent → List (String × LogValue)
  | started => []
  | failed exc =>
      [("duration_ms", .float duration), ("error_type", .str exc.kind.className),
        ("error", .str (safeError unicodeAlnum exc.kind.className exc.message defaultLimit))]
  | completed evaluationResultId =>
      [("evaluation_result_id", .str evaluationResultId), ("duration_ms", .float duration)]

/-- The event, as it is logged under the fields in scope. -/
def log (duration : ℚ) (jobId experimentId : String) (celeryTaskId : Option String)
    (event : JobEvent) (context : Correlation) : LogEvent :=
  logEvent unicodeAlnum "evalops.worker" event.name event.level
    ([("job_id", .str jobId), ("experiment_id", .str experimentId),
      ("celery_task_id", .ofText? celeryTaskId)] ++ event.ownFields unicodeAlnum duration)
    context

end JobEvent

/-- What the evaluation answers under the fields in scope, and what it logs. -/
structure Evaluated where
  answer : Py String
  events : List LogEvent

/-- What the evaluation of a task draws from outside: the session of `execute_experiment_in_uow`,
the clock, the options and the evaluator specs that came with the task, and what they build. -/
structure TaskEvaluation (Spec : Type) where
  env : Environment
  rt : Runtime
  repos : Repositories
  commit : Py Unit
  durations : Durations
  builders : Builders Spec
  /-- `ExecutionOptions.model_validate(execution).to_spec()`. -/
  options : Py ExecutionSpec
  evaluatorSpecs : List Spec

namespace TaskEvaluation

variable {Spec : Type} (evaluation : TaskEvaluation Spec)

/-- The evaluation of a task: the id of the stored result. -/
def run (experimentId : String) : RunM String := do
  let execution ← Effect.lift evaluation.options
  let response ← executeExperimentInUow evaluation.env evaluation.rt evaluation.repos
    evaluation.commit experimentId (evaluation.builders.evaluators evaluation.evaluatorSpecs)
    (evaluation.builders.providers execution)
  pure response.evaluationResultId

/-- The evaluation of a task, with its log. -/
def loggedRun (experimentId : String) : Logged ℕ String := do
  let execution ← Effect.lift evaluation.options
  let response ← loggedExecutionInUow unicodeAlnum evaluation.durations evaluation.env
    evaluation.rt evaluation.repos evaluation.commit evaluation.builders execution
    evaluation.evaluatorSpecs experimentId
  pure response.evaluationResultId

/-- What the evaluation answers under the fields in scope, and what it logs. -/
def evaluate (experimentId : String) (context : Correlation) : Evaluated :=
  let ran := exec (evaluation.loggedRun unicodeAlnum experimentId) ⟨0, context, []⟩
  { answer := ran.1, events := ran.2.emitted }

end TaskEvaluation

/-- The keyword arguments `job_id` and `celery_task_id` next to `**correlation`. -/
def checkKeywords (correlation : Correlation) : Py Unit :=
  match ["job_id", "celery_task_id"].find? correlation.contains with
  | none => pure ()
  | some k => throw ⟨.other "TypeError",
      "evalops.obs.context.correlation_scope() got multiple values for keyword argument " ++
        PyText.repr k⟩

/-- The part of `execute_experiment_task` behind the start of the job. -/
def loggedRun (backend : Backend) (endNow : Timestamp) (duration : ℚ) (jobId : String)
    (celeryTaskId : Option String) (experimentId : String)
    (evaluate : String → Correlation → Evaluated) : LoggedTx String := do
  let log (event : JobEvent) : LoggedTx Unit :=
    emit fun context =>
      [event.log unicodeAlnum duration jobId experimentId celeryTaskId context]
  log .started
  let context ← scope
  let evaluated := evaluate experimentId context
  emit fun _ => evaluated.events
  let evaluationResultId ← tryCatch (Effect.lift evaluated.answer) fun exc =>
    if exc.isException then do
      let _ ← onState (unitOfWork backend.commit
        (AsyncJobRepository.markFailed backend endNow jobId exc.describe none))
      log (.failed exc)
      throw exc
    else throw exc
  let _ ← onState (unitOfWork backend.commit
    (AsyncJobRepository.markCompleted backend endNow jobId (some evaluationResultId) none))
  log (.completed evaluationResultId)
  pure evaluationResultId

/-- `execute_experiment_task`. `correlation` is what came with the task. -/
def loggedTask (backend : Backend) (startNow endNow : Timestamp) (duration : ℚ) (jobId : String)
    (celeryTaskId : Option String) (correlation : Correlation)
    (evaluate : String → Correlation → Evaluated) : LoggedTx String := do
  Effect.lift (checkKeywords correlation)
  correlationScope
      (correlation.entries.map (fun entry => (entry.1, some entry.2)) ++
        [("job_id", some jobId), ("celery_task_id", celeryTaskId)]) do
    let experimentId ← onState
      (unitOfWork backend.commit (startJob backend startNow jobId celeryTaskId))
    correlationScope [("experiment_id", some experimentId)]
      (loggedRun unicodeAlnum backend endNow duration jobId celeryTaskId experimentId evaluate)

end Logged

end EvalOps
