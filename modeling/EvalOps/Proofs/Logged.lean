import EvalOps.Lib.Grouping
import EvalOps.Proofs.AsyncJobs
import EvalOps.Proofs.ConfigErrors
import EvalOps.Proofs.ExecutionLog
import EvalOps.Proofs.Results
import EvalOps.Proofs.StuckJobs
import EvalOps.Worker.Logged

/-!
# `EvalOps.Proofs.Logged`: the log of a background job is true

* `log_tells_the_job`: logging and scoping change nothing about a task, and the events that a task
  logs tell what became of the job's row.
* `request_id_crosses_the_broker`: the events of a request that queues a job, and those of the task
  that runs it, carry one request id.
-/

set_option autoImplicit false

namespace EvalOps

open Effect Obs Watched

variable {unicodeAlnum : Char → Bool} {backend : Backend} {startNow endNow : Timestamp}
  {duration : ℚ} {jobId : String} {celeryTaskId : Option String} {correlation : Correlation}
  {evaluate : String → Correlation → Evaluated}

/-! ### Logging changes nothing -/

theorem erases_scope_bind {σ χ ω ε α : Type} {w : Watched σ χ ω}
    {f : χ → Effect (Watched σ χ ω) ε α} {y : Effect σ ε α} (h : Erases w (f w.context) y) :
    Erases w (scope >>= f) y :=
  ⟨h.result, h.state, h.context⟩

theorem erases_ok_bind {σ χ ω ε α β : Type} {w : Watched σ χ ω} {a : α}
    {f : α → Effect (Watched σ χ ω) ε β} {y : Effect σ ε β} (h : Erases w (f a) y) :
    Erases w (Effect.lift (.ok a) >>= f) y :=
  ⟨h.result, h.state, h.context⟩

/-- The fields in scope of a task, before it knows its experiment. -/
def taskContext (context correlation : Correlation) (jobId : String)
    (celeryTaskId : Option String) : Correlation :=
  context.bind (correlation.entries.map (fun entry => (entry.1, some entry.2)) ++
    [("job_id", some jobId), ("celery_task_id", celeryTaskId)])

/-- The fields in scope of the evaluation. -/
def evaluationContext (context correlation : Correlation) (jobId : String)
    (celeryTaskId : Option String) (experimentId : String) : Correlation :=
  (taskContext context correlation jobId celeryTaskId).bind [("experiment_id", some experimentId)]

/-- The part of `executeExperimentTask` behind the start of the job. -/
def plainRun (backend : Backend) (endNow : Timestamp) (jobId : String) (answer : Py String) :
    Tx JobTable String := do
  let evaluationResultId ← tryCatch (Effect.lift answer) fun exc =>
    if exc.isException then do
      let _ ← unitOfWork backend.commit
        (AsyncJobRepository.markFailed backend endNow jobId exc.describe none)
      throw exc
    else throw exc
  let _ ← unitOfWork backend.commit
    (AsyncJobRepository.markCompleted backend endNow jobId (some evaluationResultId) none)
  pure evaluationResultId

theorem erases_loggedRun {experimentId : String} (w : Watched JobTable Correlation LogEvent) :
    Erases w
      (loggedRun unicodeAlnum backend endNow duration jobId celeryTaskId experimentId evaluate)
      (plainRun backend endNow jobId (evaluate experimentId w.context).answer) := by
  refine erases_emit_bind fun w₁ hcontext₁ _ => erases_scope_bind ?_
  refine erases_emit_bind fun w₂ _ _ => Erases.bind (Erases.tryCatch ?_ ?_) ?_
  · rw [hcontext₁]
    exact erases_lift _
  · intro exc w₃ _ _
    exact Erases.orThrow (Erases.bind (erases_onState _) fun _ _ _ _ =>
      erases_emit_bind fun _ _ _ => erases_throw _)
  · intro _ _ _ _
    exact Erases.bind (erases_onState _) fun _ _ _ _ =>
      erases_emit_bind fun _ _ _ => erases_pure _

/-- Without its log and its scopes, a task is `executeExperimentTask`. -/
theorem erases_loggedTask (hkeys : checkKeywords correlation = .ok ())
    (w : Watched JobTable Correlation LogEvent) :
    Erases w
      (loggedTask unicodeAlnum backend startNow endNow duration jobId celeryTaskId correlation
        evaluate)
      (executeExperimentTask backend startNow endNow jobId celeryTaskId fun experimentId =>
        (evaluate experimentId
          (evaluationContext w.context correlation jobId celeryTaskId experimentId)).answer) := by
  unfold loggedTask
  rw [hkeys]
  refine erases_ok_bind (erases_within (Erases.bind (erases_onState _) ?_))
  intro experimentId w₁ _ hcontext
  have hrun : Erases { w₁ with context := w₁.context.bind [("experiment_id", some experimentId)] }
      (loggedRun unicodeAlnum backend endNow duration jobId celeryTaskId experimentId evaluate)
      (plainRun backend endNow jobId (evaluate experimentId
        (w₁.context.bind [("experiment_id", some experimentId)])).answer) := erases_loggedRun _
  rw [hcontext] at hrun
  refine erases_within ?_
  rw [hcontext]
  exact hrun

/-! ### The log tells what became of the job -/

/-- How the events of a task account for the row that it leaves and for its answer: nothing behind
the start while the row is running, and the last event says how the job has ended. -/
inductive Accounts (log : JobEvent → LogEvent) (inner : List LogEvent) (row : AsyncJobRow)
    (result : Py String) : List LogEvent → Prop
  | running (e : PyError) : row.status = .running → result = .error e →
      Accounts log inner row result (log .started :: inner)
  | failed (exc : PyError) : row.status = .failed →
      row.error = some (boundError exc.describe) → result = .error exc →
      Accounts log inner row result (log .started :: inner ++ [log (.failed exc)])
  | completed (evaluationResultId : String) : row.status = .completed →
      row.evaluationResultId = some evaluationResultId → result = .ok evaluationResultId →
      Accounts log inner row result
        (log .started :: inner ++ [log (.completed evaluationResultId)])

/-- A transition that committed. -/
theorem mark_committed {change : AsyncJobRow → Py AsyncJobRow} {commit : Py Unit}
    {table table' : JobTable} {job : AsyncJob} {row : AsyncJobRow} (hrow : table jobId = some row)
    (h : exec (unitOfWork commit (AsyncJobRepository.mark backend jobId change)) table
      = (.ok job, table')) :
    ∃ changed, change row = .ok changed ∧
      table' = Function.update table changed.id (some changed) := by
  obtain ⟨hmark, _⟩ := exec_unitOfWork_eq_ok.mp h
  obtain ⟨row', changed, hrow', hchange, _, _, htable⟩ := mark_cases hmark
  obtain rfl : row = row' := Option.some.inj (hrow.symm.trans hrow')
  exact ⟨changed, hchange, htable⟩

theorem update_row {table : JobTable} {changed : AsyncJobRow} (hid : changed.id = jobId) :
    Function.update table changed.id (some changed) jobId = some changed := by
  rw [hid, Function.update_self]

/-- A job that was started. -/
theorem started_row {table table' : JobTable} {experimentId : String}
    (hids : ∀ row, table jobId = some row → row.id = jobId)
    (h : exec (unitOfWork backend.commit (startJob backend startNow jobId celeryTaskId)) table
      = (.ok experimentId, table')) :
    ∃ row, table' jobId = some row ∧ row.id = jobId ∧ row.experimentId = experimentId ∧
      row.status = .running := by
  obtain ⟨hbody, _⟩ := exec_unitOfWork_eq_ok.mp h
  unfold startJob at hbody
  obtain ⟨found, s, hget, hrest⟩ := exec_bind_eq_ok.mp hbody
  unfold AsyncJobRepository.get at hget
  rw [exec_bind, exec_get] at hget
  dsimp only at hget
  cases hrow : table jobId with
  | none =>
      rw [hrow] at hget
      cases hget
      cases hrest
  | some row =>
      rw [hrow] at hget
      obtain ⟨job, hjob, hpure⟩ := exec_lift_bind_eq_ok.mp hget
      cases hpure
      obtain ⟨_, t, hmark, hdone⟩ := exec_bind_eq_ok.mp hrest
      cases hdone
      obtain ⟨row', changed, hrow', hchange, _, _, rfl⟩ := mark_cases hmark
      obtain rfl : row = row' := Option.some.inj (hrow.symm.trans hrow')
      obtain ⟨_, hchanged⟩ := runningRow_eq_ok.mp hchange
      have hexperiment : job.experimentId = row.experimentId :=
        congrArg AsyncJobData.experimentId (AsyncJob.make_eq_ok hjob)
      have hid : changed.id = jobId := by
        rw [← hchanged]
        exact hids row hrow
      refine ⟨changed, update_row hid, hid, ?_, ?_⟩
      · rw [← hchanged]
        exact hexperiment.symm
      · rw [← hchanged]

theorem loggedRun_accounts (unicodeAlnum : Char → Bool) (backend : Backend) (endNow : Timestamp)
    (duration : ℚ) (celeryTaskId : Option String) (evaluate : String → Correlation → Evaluated)
    (experimentId : String) (w : Watched JobTable Correlation LogEvent) {row : AsyncJobRow}
    (hrow : w.state jobId = some row) (hid : row.id = jobId) (hrunning : row.status = .running) :
    ∃ row' events,
      (exec (loggedRun unicodeAlnum backend endNow duration jobId celeryTaskId experimentId
        evaluate) w).2.state jobId = some row' ∧
      row'.experimentId = row.experimentId ∧
      (exec (loggedRun unicodeAlnum backend endNow duration jobId celeryTaskId experimentId
        evaluate) w).2.emitted = w.emitted ++ events ∧
      Accounts
        (fun event => event.log unicodeAlnum duration jobId experimentId celeryTaskId w.context)
        (evaluate experimentId w.context).events row'
        (exec (loggedRun unicodeAlnum backend endNow duration jobId celeryTaskId experimentId
          evaluate) w).1 events := by
  simp only [loggedRun, exec_bind, exec_emit, exec_scope, exec_tryCatch, exec_lift]
  cases hanswer : (evaluate experimentId w.context).answer with
  | ok evaluationResultId =>
      simp only [exec_onState]
      rcases hmark : exec (unitOfWork backend.commit (AsyncJobRepository.markCompleted backend
        endNow jobId (some evaluationResultId) none)) w.state with ⟨result, table⟩
      cases result with
      | error e =>
          -- The transaction was rolled back: the job is still running.
          obtain rfl := eq_of_exec_unitOfWork_eq_error hmark
          exact ⟨row, _, hrow, rfl, by simp, .running e hrunning rfl⟩
      | ok job =>
          obtain ⟨changed, hchange, rfl⟩ := mark_committed hrow hmark
          obtain ⟨_, hchanged⟩ := completedRow_eq_ok.mp hchange
          have hid' : changed.id = jobId := by
            rw [← hchanged]
            exact hid
          have hfields : changed.experimentId = row.experimentId ∧ changed.status = .completed ∧
              changed.evaluationResultId = some evaluationResultId := by
            rw [← hchanged]
            exact ⟨rfl, rfl, rfl⟩
          exact ⟨changed, _, update_row hid', hfields.1, by simp,
            .completed evaluationResultId hfields.2.1 hfields.2.2 rfl⟩
  | error exc =>
      by_cases hexc : exc.isException = true
      · simp only [hexc, if_true, exec_bind, exec_onState]
        rcases hmark : exec (unitOfWork backend.commit (AsyncJobRepository.markFailed backend
          endNow jobId exc.describe none)) w.state with ⟨result, table⟩
        cases result with
        | error e =>
            obtain rfl := eq_of_exec_unitOfWork_eq_error hmark
            exact ⟨row, _, hrow, rfl, by simp, .running e hrunning rfl⟩
        | ok job =>
            obtain ⟨changed, hchange, rfl⟩ := mark_committed hrow hmark
            obtain ⟨_, hchanged⟩ := failedRow_eq_ok.mp hchange
            have hid' : changed.id = jobId := by
              rw [← hchanged]
              exact hid
            have hfields : changed.experimentId = row.experimentId ∧ changed.status = .failed ∧
                changed.error = some (boundError exc.describe) := by
              rw [← hchanged]
              exact ⟨rfl, rfl, rfl⟩
            exact ⟨changed, _, update_row hid', hfields.1, by simp,
              .failed exc hfields.2.1 hfields.2.2 rfl⟩
      · -- An interrupt passes the handler, and the row stays as it is.
        simp only [hexc]
        exact ⟨row, _, hrow, rfl, by simp, .running exc hrunning rfl⟩

/-- A task does to the jobs what `executeExperimentTask` does and leaves the fields in scope as they
were. Its events tell how far it came: none when the job was not started, and otherwise the start,
what the evaluation logged, and at the end the state in which the job is left. -/
theorem log_tells_the_job {w : Watched JobTable Correlation LogEvent}
    (hids : ∀ row, w.state jobId = some row → row.id = jobId)
    (hkeys : checkKeywords correlation = .ok ()) {result : Py String}
    {w' : Watched JobTable Correlation LogEvent}
    (h : exec (loggedTask unicodeAlnum backend startNow endNow duration jobId celeryTaskId
      correlation evaluate) w = (result, w')) :
    exec (executeExperimentTask backend startNow endNow jobId celeryTaskId fun experimentId =>
        (evaluate experimentId (evaluationContext w.context correlation jobId celeryTaskId
          experimentId)).answer) w.state = (result, w'.state) ∧
    w'.context = w.context ∧
    ((w' = w ∧ ∃ e, result = .error e) ∨
      ∃ row events, w'.state jobId = some row ∧ w'.emitted = w.emitted ++ events ∧
        Accounts
          (fun event => event.log unicodeAlnum duration jobId row.experimentId celeryTaskId
            (evaluationContext w.context correlation jobId celeryTaskId row.experimentId))
          (evaluate row.experimentId (evaluationContext w.context correlation jobId celeryTaskId
            row.experimentId)).events row result events) := by
  have herases : Erases w (loggedTask unicodeAlnum backend startNow endNow duration jobId
      celeryTaskId correlation evaluate) _ := erases_loggedTask hkeys w
  have hresult := herases.result
  have hstate := herases.state
  have hcontext := herases.context
  rw [h] at hresult hstate hcontext
  refine ⟨Prod.ext hresult.symm hstate.symm, hcontext, ?_⟩
  unfold loggedTask at h
  rw [hkeys, exec_bind, exec_lift] at h
  simp only [correlationScope, exec_within, exec_bind, exec_onState] at h
  rcases hstart : exec (unitOfWork backend.commit
    (startJob backend startNow jobId celeryTaskId)) w.state with ⟨started, table⟩
  rw [hstart] at h
  cases started with
  | error e =>
      obtain rfl := eq_of_exec_unitOfWork_eq_error hstart
      -- The job was not started: its transaction was rolled back and nothing was logged.
      cases h
      exact .inl ⟨rfl, e, rfl⟩
  | ok experimentId =>
      obtain ⟨row, hrow, hid, rfl, hrunning⟩ := started_row hids hstart
      have hran := loggedRun_accounts unicodeAlnum backend endNow duration celeryTaskId evaluate
        row.experimentId ⟨table, evaluationContext w.context correlation jobId celeryTaskId
          row.experimentId, w.emitted⟩ hrow hid hrunning
      rcases hrun : exec (loggedRun unicodeAlnum backend endNow duration jobId celeryTaskId
        row.experimentId evaluate) ⟨table, evaluationContext w.context correlation jobId
          celeryTaskId row.experimentId, w.emitted⟩ with ⟨answer, v⟩
      rw [hrun] at hran
      unfold evaluationContext taskContext at hrun
      dsimp only at h
      rw [hrun] at h
      obtain ⟨row', events, hrow', hexperiment, hemitted, haccounts⟩ := hran
      rw [← hexperiment] at haccounts
      cases h
      exact .inr ⟨row', events, hrow', hemitted, haccounts⟩

/-- An evaluation that logs one event under the fields in scope. -/
def oneEvent (experimentId : String) (context : Correlation) : Evaluated where
  answer := .ok "r"
  events := [logEvent (fun _ => false) "evalops.execution" "evaluation_started" .info
    [("experiment_id", .str experimentId)] context]

/-- A worker in front of the queued job. -/
def queuedWatch : Watched JobTable Correlation LogEvent := ⟨queuedTable, Dict.empty, []⟩

/-- What the task does there. -/
def queuedRun : Py String × Watched JobTable Correlation LogEvent :=
  exec (loggedTask (fun _ => false) .accepting 1 2 0 "j" (some "t") Dict.empty oneEvent) queuedWatch

theorem id_of_queuedWatch (row : AsyncJobRow) (hrow : queuedWatch.state "j" = some row) :
    row.id = "j" := by
  have hqueued : queuedWatch.state "j" = some (asyncJobToOrm queuedJob) := rfl
  obtain rfl := Option.some.inj (hqueued.symm.trans hrow)
  rfl

/-- The task of the queued job, with the events from its start to its end. -/
theorem log_tells_the_queued_job :
    exec (executeExperimentTask .accepting 1 2 "j" (some "t") fun _ => .ok "r") queuedTable
        = (queuedRun.1, queuedRun.2.state) ∧ queuedRun.2.context = Dict.empty ∧
      ∃ row, queuedRun.2.state "j" = some row ∧
        Accounts
          (fun event => event.log (fun _ => false) 0 "j" row.experimentId (some "t")
            (evaluationContext Dict.empty Dict.empty "j" (some "t") row.experimentId))
          (oneEvent row.experimentId
            (evaluationContext Dict.empty Dict.empty "j" (some "t") row.experimentId)).events
          row queuedRun.1 queuedRun.2.emitted := by
  have hrun : exec (loggedTask (fun _ => false) .accepting 1 2 0 "j" (some "t") Dict.empty oneEvent)
      queuedWatch = (queuedRun.1, queuedRun.2) := rfl
  have hlog := log_tells_the_job id_of_queuedWatch rfl hrun
  refine ⟨hlog.1, hlog.2.1, ?_⟩
  have hlength : queuedRun.2.emitted.length = 3 := by decide +kernel
  rcases hlog.2.2 with ⟨hnothing, _⟩ | ⟨row, events, hrow, hemitted, haccounts⟩
  · rw [hnothing] at hlength
    cases hlength
  · obtain rfl : queuedRun.2.emitted = events := hemitted
    exact ⟨row, hrow, haccounts⟩

/-- What came with the task and does not name the job is in scope of the task. -/
theorem get?_taskContext {k v : String} (hk : correlation.get? k = some v)
    (hjob : k ≠ "job_id") (htask : k ≠ "celery_task_id") (context : Correlation) :
    (taskContext context correlation jobId celeryTaskId).get? k = some v := by
  unfold taskContext
  rw [bind_append, get?_bind_of_notMem (by simp [hjob, htask])]
  exact get?_bind_entries hk context

/-- So the keyword arguments of the task's scope are free. -/
theorem checkKeywords_snapshot (context : Correlation) :
    checkKeywords context.snapshotForDispatch = .ok () := by
  have hfree : ∀ k ∈ ["job_id", "celery_task_id"],
      ¬context.snapshotForDispatch.contains k = true := by
    intro k hk hcontains
    obtain ⟨v, hv⟩ := Dict.contains_iff.mp hcontains
    rw [get?_snapshot] at hv
    rcases List.mem_pair.mp hk with rfl | rfl <;> simp at hv
  unfold checkKeywords
  rw [List.find?_eq_none.mpr hfree]
  rfl

/-! ### One request id on both sides of the broker -/

/-- The fields that a dispatch carries, from those in scope of the request. -/
def dispatched (context : Correlation) (jobId experimentId : String) : Correlation :=
  (context.bind [("job_id", some jobId), ("experiment_id", some experimentId)]).snapshotForDispatch

/-- Without its log and its scope, the enqueuer is `enqueueExperimentRun`, and the broker gets the
fields in scope of the dispatch. -/
theorem erases_loggedEnqueue {now : Timestamp} {experimentId : String} {stamp : Stamp}
    {delay : String → Correlation → Py Unit} (w : Watched JobTable Correlation LogEvent) :
    Erases w (loggedEnqueue unicodeAlnum backend now experimentId stamp delay)
      (enqueueExperimentRun backend now experimentId stamp fun jobId =>
        delay jobId (dispatched w.context jobId experimentId)) := by
  refine Erases.bind (erases_onState _) fun job w₁ _ hcontext₁ => ?_
  refine Erases.bind (erases_onState _) fun _ w₂ _ hcontext₂ => ?_
  refine Erases.bind (erases_within ?_) fun _ _ _ _ => erases_pure _
  refine erases_emit_bind fun w₃ hcontext₃ _ => erases_scope_bind ?_
  rw [hcontext₃, hcontext₂, hcontext₁]
  refine Erases.tryCatch (erases_lift _) fun exc _ _ _ => ?_
  -- A broker that refuses the dispatch leaves a failed job behind, and an event.
  exact Erases.orThrow (Erases.bind (erases_onState _) fun _ _ _ _ =>
    erases_emit_bind fun _ _ _ => erases_throw _)

/-- In a request, each event of the evaluation carries the request's id. -/
def LogsInScope (evaluate : String → Correlation → Evaluated) : Prop :=
  ∀ experimentId context requestId, context.get? "request_id" = some requestId →
    ∀ event ∈ (evaluate experimentId context).events, FromRequest requestId event

theorem carries_loggedEnqueue {now : Timestamp} {experimentId requestId : String} {stamp : Stamp}
    {delay : String → Correlation → Py Unit} :
    CarriesRequest requestId
      (loggedEnqueue unicodeAlnum backend now experimentId stamp delay) := by
  refine (carries_onState _).bind fun job => (carries_onState _).bind fun _ => ?_
  refine CarriesRequest.bind (CarriesRequest.correlationScope ?_ (by simp)) fun _ =>
    carries_pure _
  refine (carries_logTo (by simp)).bind fun _ => carries_scope_bind fun context _ => ?_
  refine CarriesRequest.tryCatch (carries_lift _) fun exc => ?_
  exact CarriesRequest.orThrow ((carries_onState _).bind fun _ =>
    (carries_logTo (by simp)).bind fun _ => carries_throw _)

theorem fromRequest_log {requestId experimentId : String} {context : Correlation}
    (hrequest : context.get? "request_id" = some requestId) (event : JobEvent) :
    FromRequest requestId
      (event.log unicodeAlnum duration jobId experimentId celeryTaskId context) := by
  refine fromRequest_of_scope hrequest ?_
  cases event <;> simp [JobEvent.ownFields]

theorem carries_loggedRun {requestId experimentId : String} (hevaluate : LogsInScope evaluate) :
    CarriesRequest requestId
      (loggedRun unicodeAlnum backend endNow duration jobId celeryTaskId experimentId
        evaluate) := by
  have hlog : ∀ event : JobEvent, CarriesRequest requestId
      (emit fun context => [event.log unicodeAlnum duration jobId experimentId celeryTaskId context]
        : LoggedTx Unit) := fun event =>
    carries_emit fun _ hrequest => List.forall_mem_singleton.mpr (fromRequest_log hrequest event)
  refine (hlog _).bind fun _ => carries_scope_bind fun context hcontext => ?_
  refine (carries_emit fun _ _ => hevaluate experimentId context requestId hcontext).bind
    fun _ => CarriesRequest.bind (CarriesRequest.tryCatch (carries_lift _) fun exc => ?_) ?_
  · exact CarriesRequest.orThrow
      ((carries_onState _).bind fun _ => (hlog _).bind fun _ => carries_throw _)
  · exact fun _ => (carries_onState _).bind fun _ => (hlog _).bind fun _ => carries_pure _

/-- The fields that came with the task are what brings the request's id into scope. -/
theorem emits_loggedTask {requestId : String} {w : Watched JobTable Correlation LogEvent}
    (hrequest : correlation.get? "request_id" = some requestId)
    (hevaluate : LogsInScope evaluate) :
    Emits (FromRequest requestId) w
      (loggedTask unicodeAlnum backend startNow endNow duration jobId celeryTaskId correlation
        evaluate) := by
  refine Emits.bind (emits_lift _) fun _ w₀ _ _ => emits_within ?_
  have hrest : CarriesRequest requestId (do
      let experimentId ← onState
        (unitOfWork backend.commit (startJob backend startNow jobId celeryTaskId))
      correlationScope [("experiment_id", some experimentId)]
        (loggedRun unicodeAlnum backend endNow duration jobId celeryTaskId experimentId
          evaluate) : LoggedTx String) :=
    (carries_onState _).bind fun _ => (carries_loggedRun hevaluate).correlationScope (by simp)
  exact hrest _ (get?_taskContext hrequest (by decide) (by decide) w₀.context)

/-- A dispatch carries the request's id. -/
theorem get?_dispatched {context : Correlation} {requestId : String}
    (hrequest : context.get? "request_id" = some requestId) (jobId experimentId : String) :
    (dispatched context jobId experimentId).get? "request_id" = some requestId := by
  unfold dispatched
  rw [get?_snapshot, if_pos (.inl rfl), get?_bind_of_notMem (by simp)]
  exact hrequest

namespace TaskEvaluation

variable {Spec : Type} (evaluation : TaskEvaluation Spec)

/-- Without its log, the evaluation is the plain one. -/
theorem evaluate_answer (experimentId : String) (context : Correlation) :
    (evaluation.evaluate unicodeAlnum experimentId context).answer
      = (exec (evaluation.run experimentId) 0).1 := by
  have herases : Erases ⟨0, context, []⟩ (evaluation.loggedRun unicodeAlnum experimentId)
      (evaluation.run experimentId) :=
    Erases.bind (erases_lift _) fun _ _ _ _ =>
      Erases.bind (erases_loggedExecutionInUow _ _) fun _ _ _ _ => erases_pure _
  exact herases.result

/-- Without its log, the task runs the plain evaluation. -/
theorem erases_task (hkeys : checkKeywords correlation = .ok ())
    (w : Watched JobTable Correlation LogEvent) :
    Erases w
      (loggedTask unicodeAlnum backend startNow endNow duration jobId celeryTaskId correlation
        (evaluation.evaluate unicodeAlnum))
      (executeExperimentTask backend startNow endNow jobId celeryTaskId fun experimentId =>
        (exec (evaluation.run experimentId) 0).1) := by
  have herases : Erases w (loggedTask unicodeAlnum backend startNow endNow duration jobId
      celeryTaskId correlation (evaluation.evaluate unicodeAlnum)) _ := erases_loggedTask hkeys w
  simp only [evaluate_answer] at herases
  exact herases

theorem logsInScope : LogsInScope (evaluation.evaluate unicodeAlnum) := by
  intro experimentId context requestId hrequest event hevent
  have hcarries : CarriesRequest requestId (evaluation.loggedRun unicodeAlnum experimentId) :=
    (carries_lift _).bind fun _ =>
      (carries_loggedExecutionInUow _).bind fun _ => carries_pure _
  obtain ⟨new, hnew, hcarried⟩ := (hcarries ⟨0, context, []⟩ hrequest).lines
  have hmem : event ∈ ([] : List LogEvent) ++ new := hnew ▸ hevent
  exact hcarried event hmem

end TaskEvaluation

/-- The enqueuer hands the broker the fields in scope of the request. Whatever the broker, the
providers and the databases do, the events of the enqueuer, and those of the task that gets these
fields, carry the request's id: the task's own, the experiment's, and one for each provider call.
The task's scopes open, and without its log it is `executeExperimentTask` on the evaluation. -/
theorem request_id_crosses_the_broker {Spec : Type} {evaluation : TaskEvaluation Spec}
    {now : Timestamp} {experimentId requestId : String} {stamp : Stamp}
    {delay : String → Correlation → Py Unit} {workerBackend : Backend}
    {w : Watched JobTable Correlation LogEvent}
    (hrequest : w.context.get? "request_id" = some requestId) :
    Erases w (loggedEnqueue unicodeAlnum backend now experimentId stamp delay)
      (enqueueExperimentRun backend now experimentId stamp fun jobId =>
        delay jobId (dispatched w.context jobId experimentId)) ∧
    Emits (FromRequest requestId) w
      (loggedEnqueue unicodeAlnum backend now experimentId stamp delay) ∧
    ∀ (jobId : String) (v : Watched JobTable Correlation LogEvent),
      checkKeywords (dispatched w.context jobId experimentId) = .ok () ∧
      Erases v
        (loggedTask unicodeAlnum workerBackend startNow endNow duration jobId celeryTaskId
          (dispatched w.context jobId experimentId) (evaluation.evaluate unicodeAlnum))
        (executeExperimentTask workerBackend startNow endNow jobId celeryTaskId
          fun experimentId => (exec (evaluation.run experimentId) 0).1) ∧
      Emits (FromRequest requestId) v
        (loggedTask unicodeAlnum workerBackend startNow endNow duration jobId celeryTaskId
          (dispatched w.context jobId experimentId) (evaluation.evaluate unicodeAlnum)) := by
  refine ⟨erases_loggedEnqueue w, carries_loggedEnqueue w hrequest, fun jobId v => ⟨?_, ?_, ?_⟩⟩
  · exact checkKeywords_snapshot _
  · exact evaluation.erases_task (checkKeywords_snapshot _) v
  · exact emits_loggedTask (get?_dispatched hrequest jobId experimentId) evaluation.logsInScope

theorem isBlank_drawnJobId : PyText.isBlank "j" = false := by decide

/-- What a new job gets. -/
def requestStamp : Stamp := ⟨⟨"j", isBlank_drawnJobId⟩, 0⟩

/-- A request with the id `q`, in front of no jobs. -/
def requestWatch : Watched JobTable Correlation LogEvent :=
  ⟨JobTable.empty, Dict.empty.insert "request_id" "q", []⟩

/-- An evaluation over the offline provider, one case in each version. -/
def offlineEvaluation : TaskEvaluation Unit where
  env := offlineEnv
  rt := offlineRuntime 0
  repos := offlineRepositories successPolicy
  commit := .ok ()
  durations := ⟨fun _ => 0, 0⟩
  builders :=
    { evaluators := fun _ => .ok [ToolSuccess.default.toEvaluator]
      providers := fun _ _ _ =>
        .ok (offlineProviders fun _ _ => .ok (offlineResponse 0 nonneg_zero)) }
  options := .ok ⟨.mock, defaultOllamaBaseUrl, .finite 120⟩
  evaluatorSpecs := [()]

/-- Through a broker that takes every task. The task logs its start and its end, and between them
the start of the experiment, two calls, the decision and the end of the experiment. -/
theorem request_id_crosses_an_open_broker :
    Emits (FromRequest "q") requestWatch
        (loggedEnqueue (fun _ => false) .accepting 0 "e" requestStamp fun _ _ => .ok ()) ∧
      Emits (FromRequest "q") queuedWatch
        (loggedTask (fun _ => false) .accepting 1 2 0 "j" (some "t")
          (dispatched requestWatch.context "j" "e")
          (offlineEvaluation.evaluate fun _ => false)) ∧
      (exec (loggedTask (fun _ => false) .accepting 1 2 0 "j" (some "t")
        (dispatched requestWatch.context "j" "e")
        (offlineEvaluation.evaluate fun _ => false)) queuedWatch).2.emitted.length = 7 := by
  have hrequest : requestWatch.context.get? "request_id" = some "q" := rfl
  obtain ⟨_, henqueue, htask⟩ := request_id_crosses_the_broker hrequest
  refine ⟨henqueue, (htask "j" queuedWatch).2.2, ?_⟩
  decide +kernel

end EvalOps
