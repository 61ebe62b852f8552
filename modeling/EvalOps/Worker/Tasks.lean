import EvalOps.Db.AsyncJobs

/-!
# `EvalOps.Worker.Tasks`: background execution of an experiment

`worker/tasks.py`. The two functions around an `async_job` row: `enqueueExperimentRun` inserts
the queued row and dispatches the task, and `executeExperimentTask` runs it. Each transition of
the row is a unit of work of its own. The evaluation is a transaction of its own too, which
touches other tables: it is what `evaluate` answers. Logging and the correlation scopes have no
counterpart here.
-/

set_option autoImplicit false

namespace EvalOps

/-- `f"{type(exc).__name__}: {exc}"`. -/
def PyError.describe (exc : PyError) : String := exc.kind.className ++ ": " ++ exc.message

/-- The job that `enqueue_experiment_run` builds. -/
def newJob (experimentId : String) (stamp : Stamp) : Py AsyncJob :=
  AsyncJob.make
    { experimentId
      status := .queued
      celeryTaskId := none
      evaluationResultId := none
      error := none
      id := stamp.id.text
      createdAt := stamp.createdAt
      startedAt := none
      completedAt := none }

/-- The error text of a job that could not be dispatched. -/
def dispatchFailureText (exc : PyError) : String :=
  "dispatch to the task broker failed: " ++ exc.describe

/-- `enqueue_experiment_run`. `delay` is what the broker answers, and `now` the clock's reading
when the job is marked failed. -/
def enqueueExperimentRun (backend : Backend) (now : Timestamp) (experimentId : String)
    (stamp : Stamp) (delay : String → Py Unit) : Tx JobTable AsyncJob := do
  let job ← Effect.lift (newJob experimentId stamp)
  let _ ← unitOfWork backend.commit (AsyncJobRepository.add backend job)
  tryCatch (Effect.lift (delay job.id)) fun exc =>
    if exc.isException then do
      let _ ← unitOfWork backend.commit
        (AsyncJobRepository.markFailed backend now job.id (dispatchFailureText exc) none)
      throw ⟨.dispatchError, "async job " ++ PyText.repr job.id ++
        " was recorded but could not be dispatched: " ++ exc.message⟩
    else throw exc
  pure job

/-- The transaction that takes a job from `queued` to `running`: the job's experiment. -/
def startJob (backend : Backend) (now : Timestamp) (jobId : String)
    (celeryTaskId : Option String) : Tx JobTable String := do
  let job ← AsyncJobRepository.get jobId
  match job with
  | none => throw ⟨.recordNotFound, "async job " ++ PyText.repr jobId ++ " not found"⟩
  | some job => do
      let _ ← AsyncJobRepository.markRunning backend now jobId celeryTaskId none
      pure job.experimentId

/-- `execute_experiment_task`. The clock reads `startNow` when the job is marked running and
`endNow` when it is marked completed or failed. `evaluate` is what `execute_experiment_in_uow`
answers for the experiment: the id of its result, or an exception. -/
def executeExperimentTask (backend : Backend) (startNow endNow : Timestamp) (jobId : String)
    (celeryTaskId : Option String) (evaluate : String → Py String) : Tx JobTable String := do
  let experimentId ← unitOfWork backend.commit (startJob backend startNow jobId celeryTaskId)
  let evaluationResultId ← tryCatch (Effect.lift (evaluate experimentId)) fun exc =>
    if exc.isException then do
      let _ ← unitOfWork backend.commit
        (AsyncJobRepository.markFailed backend endNow jobId exc.describe none)
      throw exc
    else throw exc
  let _ ← unitOfWork backend.commit
    (AsyncJobRepository.markCompleted backend endNow jobId (some evaluationResultId) none)
  pure evaluationResultId

end EvalOps
