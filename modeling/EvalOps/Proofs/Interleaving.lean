import EvalOps.Proofs.AsyncJobs
import EvalOps.Worker.Interleaving

/-!
# `EvalOps.Proofs.Interleaving`: when two writers of one job get along

`next_cases` says once what a step does: it moves rows around, or it makes one write.
`commit_safe` is the write: it keeps the committed row valid, and a terminal row as it is, when
the row is still the one that was read, when a failure is recorded over a start that the
transaction did not see, and when it records what is committed already. From these
`safe_writes_keep_job` follows for every run.
-/

set_option autoImplicit false

namespace EvalOps

open Effect

/-! ### Merging columns -/

variable {loaded modified committed row : AsyncJobRow}

@[simp] theorem column_self {α : Type} [DecidableEq α] (loaded committed : α) :
    column loaded loaded committed = committed := if_pos rfl

theorem column_of_ne {α : Type} [DecidableEq α] {loaded modified : α} (h : modified ≠ loaded)
    (committed : α) : column loaded modified committed = modified := if_neg h

/-- A column that is written over itself. -/
theorem column_unchanged {α : Type} [DecidableEq α] (loaded modified : α) :
    column loaded modified modified = modified := by
  unfold column
  split <;> rfl

theorem column_loaded {α : Type} [DecidableEq α] (loaded modified : α) :
    column loaded modified loaded = modified := by
  unfold column
  split
  · rename_i h
    exact h.symm
  · rfl

/-- Over the row that was read, the modified row is committed as it is. -/
theorem merge_loaded (loaded modified : AsyncJobRow) : loaded.merge modified loaded = modified := by
  unfold AsyncJobRow.merge
  simp only [column_loaded]

/-! ### Rows of one job -/

/-- A row that loads, and that has no result before its end. -/
structure AsyncJobRow.Sound (row : AsyncJobRow) : Prop where
  loads : row.Loads
  noResult : ¬row.status.IsTerminal → row.evaluationResultId = none

variable {jobId error : String} {moment : Timestamp} {mark : Mark} {write : PendingWrite}

theorem Mark.changes (h : mark.change jobId moment loaded = .ok modified) :
    Changes loaded modified := by
  cases mark with
  | running celeryTaskId => exact changes_runningRow h
  | completed evaluationResultId => exact changes_completedRow h
  | failed error => exact changes_failedRow h

/-- A sound row that a transition changes into one that loads is sound again. -/
theorem Mark.sound_change (h : mark.change jobId moment loaded = .ok modified)
    (hloaded : loaded.Sound) (hloads : modified.Loads) : modified.Sound := by
  refine ⟨hloads, fun hpending => ?_⟩
  cases mark with
  -- A start needs a queued row, which has no result. After an end nothing is left to show.
  | running celeryTaskId =>
      obtain ⟨hstatus, rfl⟩ := runningRow_eq_ok.mp h
      exact hloaded.noResult (by rw [hstatus]; decide)
  | completed evaluationResultId =>
      obtain ⟨_, rfl⟩ := completedRow_eq_ok.mp h
      exact absurd (Or.inl rfl) hpending
  | failed error =>
      obtain ⟨_, rfl⟩ := failedRow_eq_ok.mp h
      exact absurd (Or.inr rfl) hpending

/-- A failure of a row that was read, over another row that is not terminal, is the failure of
that row. -/
theorem merge_failedRow (hloaded : loaded.Sound) (hcommitted : committed.Sound)
    (hpending : ¬committed.status.IsTerminal)
    (h : failedRow jobId error moment loaded = .ok modified) :
    failedRow jobId error moment committed = .ok (loaded.merge modified committed) := by
  obtain ⟨hopen, rfl⟩ := failedRow_eq_ok.mp h
  obtain ⟨hcompletedAt, herror⟩ := hloaded.loads.pending hopen
  have hstatus : JobStatus.failed ≠ loaded.status := fun hfailed => hopen (Or.inr hfailed.symm)
  -- The columns that a failure changes have all been unset, so each of them is written.
  refine failedRow_eq_ok.mpr ⟨hpending, ?_⟩
  unfold AsyncJobRow.merge
  simp only [column_self, column_of_ne hstatus, hloaded.noResult hopen,
    hcommitted.noResult hpending, hcompletedAt, herror, column_of_ne (Option.some_ne_none _)]

/-- Recording what is committed already changes nothing. -/
theorem merge_failedRow_of_same (hloaded : loaded.Sound)
    (h : failedRow jobId error moment loaded = .ok modified) (hstatus : committed.status = .failed)
    (herror : committed.error = some (boundError error))
    (hcompletedAt : committed.completedAt = some (.aware moment)) :
    loaded.merge modified committed = committed := by
  obtain ⟨hopen, rfl⟩ := failedRow_eq_ok.mp h
  unfold AsyncJobRow.merge
  -- Every column that is written has the committed value already.
  simp only [column_self, hloaded.noResult hopen, ← hstatus, ← herror, ← hcompletedAt,
    column_unchanged]

/-! ### One write -/

/-- The transition is to an end. -/
def Mark.IsEnd (mark : Mark) : Prop :=
  match mark with
  | .running _ => False
  | _ => True

instance : (mark : Mark) → Decidable mark.IsEnd
  | .running _ => inferInstanceAs (Decidable False)
  | .completed _ => inferInstanceAs (Decidable True)
  | .failed _ => inferInstanceAs (Decidable True)

/-- The moment that the transition may not be before: the start that was read for an end, and the
creation for a start. -/
def PendingWrite.earliest (write : PendingWrite) : Option Timestamp :=
  if write.mark.IsEnd then write.loaded.data.startedAt else some write.loaded.data.createdAt

/-- The database refuses the write; or the check of the changed row does, since the transition would
be before the one that it follows. -/
def PendingWrite.Refused (write : PendingWrite) : Prop :=
  write.answer ≠ .ok () ∨ precedes (some write.moment) write.earliest = true

instance (write : PendingWrite) : Decidable write.Refused := inferInstanceAs (Decidable (_ ∨ _))

/-- A failure is recorded over a start that the transaction did not see, and not before it; or it
is recorded already. -/
def PendingWrite.RecordsFailure (write : PendingWrite) (row : AsyncJobRow) : Prop :=
  match write.mark with
  | .failed error =>
      (write.loaded.status = .queued ∧ row.status = .running ∧
          precedes (some write.moment) row.data.startedAt = false) ∨
        (row.status = .failed ∧ row.error = some (boundError error) ∧
          row.completedAt = some (.aware write.moment))
  | _ => False

instance : (write : PendingWrite) → (row : AsyncJobRow) → Decidable (write.RecordsFailure row)
  | ⟨.running _, _, _, _⟩, _ => inferInstanceAs (Decidable False)
  | ⟨.completed _, _, _, _⟩, _ => inferInstanceAs (Decidable False)
  | ⟨.failed _, _, _, _⟩, _ => inferInstanceAs (Decidable (_ ∨ _))

/-- The committed row is the one that was read; or the write is refused; or it records a failure
over a row that it may be recorded over. -/
def PendingWrite.Safe (write : PendingWrite) (row : AsyncJobRow) : Prop :=
  row = write.loaded ∨ write.Refused ∨ write.RecordsFailure row

instance (write : PendingWrite) (row : AsyncJobRow) : Decidable (write.Safe row) :=
  inferInstanceAs (Decidable (_ ∨ _))

/-- A write that records a failure over a row that it may be recorded over. -/
theorem PendingWrite.RecordsFailure.cases (h : write.RecordsFailure row) :
    ∃ error, write.mark = .failed error ∧
      ((write.loaded.status = .queued ∧ row.status = .running ∧
          precedes (some write.moment) row.data.startedAt = false) ∨
        (row.status = .failed ∧ row.error = some (boundError error) ∧
          row.completedAt = some (.aware write.moment))) := by
  unfold RecordsFailure at h
  cases hmark : write.mark with
  | running celeryTaskId =>
      rw [hmark] at h
      exact h.elim
  | completed evaluationResultId =>
      rw [hmark] at h
      exact h.elim
  | failed error =>
      rw [hmark] at h
      exact ⟨error, rfl, h⟩

/-- A changed row that loads records a moment that the transition may have. -/
theorem PendingWrite.not_early
    (h : write.mark.change jobId write.moment write.loaded = .ok modified)
    (hloads : modified.Loads) : precedes (some write.moment) write.earliest = false := by
  have hvalid := AsyncJobRow.loads_iff.mp hloads
  unfold earliest
  cases hmark : write.mark with
  | running celeryTaskId =>
      rw [hmark] at h
      obtain ⟨_, rfl⟩ := runningRow_eq_ok.mp h
      exact hvalid.started
  | completed evaluationResultId =>
      rw [hmark] at h
      obtain ⟨_, rfl⟩ := completedRow_eq_ok.mp h
      exact hvalid.completed
  | failed error =>
      rw [hmark] at h
      obtain ⟨_, rfl⟩ := failedRow_eq_ok.mp h
      exact hvalid.completed

/-- A write rolls back, or it is not refused and merges a modified row that loads. -/
theorem commit_cases (write : PendingWrite) (row : AsyncJobRow) :
    (write.commit row).1 = row ∨ ¬write.Refused ∧ ∃ modified,
      write.mark.change write.loaded.id write.moment write.loaded = .ok modified ∧
        modified.Loads ∧ (write.commit row).1 = write.loaded.merge modified row := by
  unfold PendingWrite.commit
  cases hattempt : write.attempt row with
  | error e => exact Or.inl rfl
  | ok merged =>
      obtain ⟨modified, hchange, hrest⟩ := ExceptRules.bind_eq_ok.mp hattempt
      obtain ⟨job, hjob, hrest⟩ := ExceptRules.bind_eq_ok.mp hrest
      obtain ⟨_, hanswer, hmerged⟩ := ExceptRules.bind_eq_ok.mp hrest
      have hloads : modified.Loads := ⟨job, hjob⟩
      refine Or.inr ⟨?_, modified, hchange, hloads, (Except.ok.inj hmerged).symm⟩
      -- The write went through, so the flush was accepted and the changed row was checked.
      rintro (hrefused | hearly)
      · exact hrefused hanswer
      · rw [PendingWrite.not_early hchange hloads] at hearly
        exact nomatch hearly

/-- A safe write keeps the committed row sound, and a terminal row as it is. -/
theorem commit_safe (hloaded : write.loaded.Sound) (hrow : row.Sound) (hsafe : write.Safe row) :
    (write.commit row).1.Sound ∧
      (row.status.IsTerminal → (write.commit row).1 = row) := by
  rcases commit_cases write row with hrollback | ⟨hcommits, modified, hchange, hloads, hmerge⟩
  · rw [hrollback]
    exact ⟨hrow, fun _ => rfl⟩
  · rw [hmerge]
    -- Over the row that was read, the write is the transition itself.
    rcases hsafe with rfl | hrefused | hrecords
    · rw [merge_loaded]
      exact ⟨Mark.sound_change hchange hrow hloads,
        fun hterminal => absurd hterminal (Mark.changes hchange).moves.not_isTerminal⟩
    · exact absurd hrefused hcommits
    obtain ⟨error, hmark, ⟨_, hrunning, hmoment⟩ | ⟨hfailed, herror, hat⟩⟩ := hrecords.cases
    · -- The row has started since it was read: the failure is that of the committed row.
      have hpending : ¬row.status.IsTerminal := by
        rw [hrunning]
        decide
      rw [hmark] at hchange
      have hfail : (Mark.failed error).change write.loaded.id write.moment row =
          .ok (write.loaded.merge modified row) :=
        merge_failedRow hloaded hrow hpending hchange
      have hfailLoads := (loads_failedRow_iff hrow.loads hfail).mpr hmoment
      exact ⟨Mark.sound_change hfail hrow hfailLoads,
        fun hterminal => absurd hterminal hpending⟩
    · rw [hmark] at hchange
      rw [merge_failedRow_of_same hloaded hchange hfailed herror hat]
      exact ⟨hrow, fun _ => rfl⟩

/-- Without another writer between the read and the write, the write is the unit of work of the
repository. -/
theorem exec_unitOfWork_mark {table : JobTable} (hrow : table jobId = some row)
    (hid : row.id = jobId) (mark : Mark) (moment : Timestamp) (flushAnswer commitAnswer : Py Unit) :
    (exec (unitOfWork commitAnswer (AsyncJobRepository.mark ⟨fun _ => flushAnswer, commitAnswer⟩
        jobId (mark.change jobId moment))) table).2 =
      Function.update table jobId
        (some (PendingWrite.commit ⟨mark, row, moment, do flushAnswer; commitAnswer⟩ row).1) := by
  have hkept : table = Function.update table jobId (some row) := by
    rw [← hrow, Function.update_eq_self]
  subst hid
  unfold PendingWrite.commit PendingWrite.attempt AsyncJobRepository.mark AsyncJobRepository.row
    flushRow
  rw [exec_unitOfWork]
  simp only [exec_bind, exec_get, hrow, exec_pure, exec_lift]
  cases hchange : mark.change row.id moment row with
  | error e => exact hkept
  | ok modified =>
      have hmodified : modified.id = row.id := (Mark.changes hchange).id
      -- Any answer but three acceptances rolls the write back.
      cases hjob : asyncJobFromOrm modified <;> cases flushAnswer <;> cases commitAnswer <;>
        simp only [Except.mapError, hjob, ExceptRules.ok_bind, ExceptRules.error_bind,
          ExceptRules.pure_eq_ok, exec_set, merge_loaded, hmodified, ← hkept]

/-! ### One step -/

/-- The rows that a party holds. -/
def EnqueuerState.rows : EnqueuerState → List AsyncJobRow
  | .inserting job => [asyncJobToOrm job]
  | .writing _ loaded => [loaded]
  | _ => []

/-- The rows that a party holds. -/
def WorkerState.rows : WorkerState → List AsyncJobRow
  | .starting loaded => [loaded]
  | .ending _ loaded => [loaded]
  | _ => []

namespace JobSystem

variable {s s' : JobSystem} {step : JobStep}

/-- All rows of a state: the committed one and those that the parties hold. -/
def rows (s : JobSystem) : List AsyncJobRow :=
  s.committed.toList ++ (s.enqueuer.rows ++ s.worker.rows)

/-- A step moves rows around and keeps the committed one, or it makes one write. -/
theorem next_cases (h : s.next step = some s') :
    (s'.rows ⊆ s.rows ∧ ∀ row, s.committed = some row → s'.committed = some row) ∨
      ∃ write row, s.pendingWrite step = some write ∧ s.committed = some row ∧
        write.loaded ∈ s.rows ∧ s'.committed = some (write.commit row).1 ∧
          ∀ r ∈ s'.rows, r ∈ s.rows ∨ r = (write.commit row).1 := by
  obtain ⟨committed, enqueuer, worker⟩ := s
  -- One case for each step that a party can make.
  unfold next at h
  split at h
  · -- insert
    rename_i job hjob hnone
    cases hjob
    cases hnone
    cases h
    refine Or.inl ⟨fun r hr => ?_, fun row hrow => nomatch hrow⟩
    simpa [rows, EnqueuerState.rows] using hr
  · -- delay
    rename_i answer hdispatching
    cases hdispatching
    have hmoved : s'.committed = committed ∧ s'.enqueuer.rows = [] ∧ s'.worker = worker := by
      split at h
      · cases h
        exact ⟨rfl, rfl, rfl⟩
      · split at h <;> cases h <;> exact ⟨rfl, rfl, rfl⟩
    obtain ⟨hcommitted, henqueuer, hworker⟩ := hmoved
    refine Or.inl ⟨fun r hr => ?_, fun row hrow => hcommitted.trans hrow⟩
    simp only [rows, hcommitted, henqueuer, hworker] at hr
    exact hr
  · -- enqueuerRead
    rename_i error row hreading hrow
    cases hreading
    cases hrow
    cases h
    refine Or.inl ⟨fun r hr => ?_, fun row hrow => hrow⟩
    simp only [rows, EnqueuerState.rows, Option.toList_some, List.mem_append,
      List.mem_singleton] at hr ⊢
    tauto
  · -- enqueuerWrite
    rename_i now answer error loaded row hwriting hrow
    cases hwriting
    cases hrow
    cases h
    refine Or.inr ⟨_, row, rfl, rfl, ?_, rfl, fun r hr => ?_⟩
    · simp [rows, EnqueuerState.rows]
    · simp only [rows, EnqueuerState.rows, Option.toList_some, List.mem_append,
        List.mem_singleton, List.not_mem_nil, false_or] at hr ⊢
      tauto
  · -- workerRead
    rename_i row hwaiting hrow
    cases hwaiting
    cases hrow
    split at h
    · cases h
      refine Or.inl ⟨fun r hr => ?_, fun row hrow => hrow⟩
      simp only [rows, WorkerState.rows, Option.toList_some, List.mem_append,
        List.mem_singleton] at hr ⊢
      tauto
    · exact nomatch h
  · -- workerStart
    rename_i now celeryTaskId answer loaded row hstarting hrow
    cases hstarting
    cases hrow
    split at h
    · cases h
      refine Or.inl ⟨fun r hr => ?_, fun row hrow => hrow⟩
      simp only [rows, WorkerState.rows, Option.toList_some, List.mem_append,
        List.mem_singleton, List.not_mem_nil, or_false] at hr ⊢
      tauto
    · have hmoved : s'.committed =
            some (PendingWrite.commit ⟨.running celeryTaskId, loaded, now, answer⟩ row).1 ∧
          s'.enqueuer = enqueuer ∧ s'.worker.rows = [] := by
        cases h
        refine ⟨rfl, rfl, ?_⟩
        dsimp only
        split <;> rfl
      obtain ⟨hcommitted, henqueuer, hworker⟩ := hmoved
      refine Or.inr ⟨_, row, rfl, rfl, ?_, hcommitted, fun r hr => ?_⟩
      · simp [rows, WorkerState.rows]
      · simp only [rows, hcommitted, henqueuer, hworker, Option.toList_some, List.mem_append,
          List.mem_singleton, List.not_mem_nil, or_false] at hr ⊢
        tauto
  · -- evaluate
    rename_i answer hevaluating
    cases hevaluating
    have hmoved : s'.committed = committed ∧ s'.enqueuer = enqueuer ∧ s'.worker.rows = [] := by
      split at h
      · cases h
        exact ⟨rfl, rfl, rfl⟩
      · split at h <;> cases h <;> exact ⟨rfl, rfl, rfl⟩
    obtain ⟨hcommitted, henqueuer, hworker⟩ := hmoved
    refine Or.inl ⟨fun r hr => ?_, fun row hrow => hcommitted.trans hrow⟩
    simp only [rows, hcommitted, henqueuer, hworker] at hr
    exact hr
  · -- workerReadAgain
    rename_i mark row hreading hrow
    cases hreading
    cases hrow
    cases h
    refine Or.inl ⟨fun r hr => ?_, fun row hrow => hrow⟩
    simp only [rows, WorkerState.rows, Option.toList_some, List.mem_append,
      List.mem_singleton] at hr ⊢
    tauto
  · -- workerEnd
    rename_i now answer mark loaded row hending hrow
    cases hending
    cases hrow
    cases h
    refine Or.inr ⟨_, row, rfl, rfl, ?_, rfl, fun r hr => ?_⟩
    · simp [rows, WorkerState.rows]
    · simp only [rows, WorkerState.rows, Option.toList_some, List.mem_append,
        List.mem_singleton, List.not_mem_nil, or_false] at hr ⊢
      tauto
  · exact nomatch h

/-- All rows of the state are sound. -/
def Sound (s : JobSystem) : Prop := ∀ row ∈ s.rows, row.Sound

/-- A committed terminal row stays as it is. -/
def KeepsTerminal (s s' : JobSystem) : Prop :=
  ∀ row, s.committed = some row → row.status.IsTerminal → s'.committed = some row

/-- A step whose write, if it makes one, is safe. -/
def SafeStep (s : JobSystem) (step : JobStep) (s' : JobSystem) : Prop :=
  s.next step = some s' ∧
    ∀ write row, s.pendingWrite step = some write → s.committed = some row → write.Safe row

theorem SafeStep.sound (h : SafeStep s step s') (hs : s.Sound) : s'.Sound := by
  -- A step that writes nothing only moves rows that are sound.
  rcases next_cases h.1 with ⟨hrows, _⟩ | ⟨write, row, hwrite, hrow, hloaded, _, hrows⟩
  · exact fun r hr => hs r (hrows hr)
  · have hmem : row ∈ s.rows := by simp [rows, hrow]
    have hsafe := commit_safe (hs _ hloaded) (hs row hmem) (h.2 write row hwrite hrow)
    intro r hr
    rcases hrows r hr with hold | rfl
    · exact hs r hold
    · exact hsafe.1

theorem SafeStep.keepsTerminal (h : SafeStep s step s') (hs : s.Sound) : s.KeepsTerminal s' := by
  intro row hrow hterminal
  rcases next_cases h.1 with ⟨_, hkept⟩ | ⟨write, row', hwrite, hrow', hloaded, hcommitted, _⟩
  · exact hkept row hrow
  · cases hrow.symm.trans hrow'
    have hmem : row ∈ s.rows := by simp [rows, hrow]
    have hsafe := commit_safe (hs _ hloaded) (hs row hmem) (h.2 write row hwrite hrow)
    rw [hcommitted, hsafe.2 hterminal]

theorem sound_initial {experimentId : String} {stamp : Stamp} {job : AsyncJob}
    (hjob : newJob experimentId stamp = .ok job) : (initial job).Sound := by
  have hnew : job.evaluationResultId = none := by
    rw [AsyncJob.make_eq_ok hjob]
  intro row hrow
  rw [List.mem_singleton.mp (show row ∈ [asyncJobToOrm job] from hrow)]
  exact ⟨loads_asyncJobToOrm job, fun _ => hnew⟩

end JobSystem

/-- In a run in which every write is safe, every committed row loads as a valid `AsyncJob`, and a
row that is completed or failed stays as it is through every further run of that kind. -/
theorem safe_writes_keep_job {experimentId : String} {stamp : Stamp} {job : AsyncJob}
    {steps : List JobStep} {s : JobSystem} (hjob : newJob experimentId stamp = .ok job)
    (hrun : Run JobSystem.SafeStep (.initial job) steps s) :
    (∀ row, s.committed = some row → row.Loads) ∧
      ∀ steps' s', Run JobSystem.SafeStep s steps' s' → s.KeepsTerminal s' := by
  have hsound : s.Sound :=
    hrun.invariant (fun _ _ _ hI h => h.sound hI) (JobSystem.sound_initial hjob)
  refine ⟨fun row hrow => (hsound row (by simp [JobSystem.rows, hrow])).loads,
    fun steps' s' hrest => ?_⟩
  -- Soundness is the invariant of the run, and keeping terminal rows composes along it.
  exact hrest.relation (fun _ _ _ hI h => h.sound hI) (fun _ _ h _ => h)
    (fun _ _ _ hst htu row hrow hterminal => htu row (hst row hrow hterminal) hterminal)
    (fun _ _ _ hI h => h.keepsTerminal hI) hsound

/-- One step, when the party can make it and its write, if it makes one, is safe. -/
def JobSystem.safeNext (s : JobSystem) (step : JobStep) : Option JobSystem :=
  match s.pendingWrite step, s.committed with
  | some write, some row => if write.Safe row then s.next step else none
  | _, _ => s.next step

theorem JobSystem.safeStep_of_safeNext {s s' : JobSystem} {step : JobStep}
    (h : s.safeNext step = some s') : s.SafeStep step s' := by
  unfold safeNext at h
  split at h
  · rename_i write row hwrite hrow
    split at h
    · rename_i hsafe
      refine ⟨h, fun write' row' hwrite' hrow' => ?_⟩
      cases hwrite.symm.trans hwrite'
      cases hrow.symm.trans hrow'
      exact hsafe
    · exact nomatch h
  · rename_i hnone
    exact ⟨h, fun write row hwrite hrow => absurd hrow (hnone write row hwrite)⟩

/-- The dispatch raises although the task was sent, and the failure is recorded over a start that
it did not see. -/
def safeSteps : List JobStep :=
  [.insert, .workerRead, .delay (.error ⟨.other "OperationalError", "timed out"⟩), .enqueuerRead,
    .workerStart 1 (some "t") (.ok ()), .enqueuerWrite 2 (.ok ()), .evaluate (.ok "r"),
    .workerReadAgain, .workerEnd 3 (.ok ())]

/-- The job that the steps are about. -/
def queuedStamp : Stamp := ⟨⟨"j", by decide⟩, 0⟩

/-- The failure stays: the worker finds it when it wants to record its result. -/
theorem safe_writes_keep_failed_job : ∃ s row,
    Run JobSystem.SafeStep (.initial queuedJob) safeSteps s ∧ s.committed = some row ∧
      row.status = .failed ∧ row.Loads := by
  have hjob : newJob "e" queuedStamp = .ok queuedJob := by with_unfolding_all rfl
  have hsteps : ((Run.runAll JobSystem.safeNext (.initial queuedJob) safeSteps).bind
      JobSystem.committed).map AsyncJobRow.status = some .failed := by decide +kernel
  obtain ⟨row, hbind, hstatus⟩ := Option.map_eq_some_iff.mp hsteps
  obtain ⟨s, hs, hrow⟩ := Option.bind_eq_some_iff.mp hbind
  have hrun := (Run.of_runAll hs).imp fun _ _ _ => JobSystem.safeStep_of_safeNext
  exact ⟨s, row, hrun, hrow, hstatus, (safe_writes_keep_job hjob hrun).1 row hrow⟩

/-- The same parties, and the failure is recorded over a job that has completed. -/
def unsafeSteps : List JobStep :=
  [.insert, .delay (.error ⟨.other "OperationalError", "timed out"⟩), .enqueuerRead, .workerRead,
    .workerStart 1 (some "t") (.ok ()), .evaluate (.ok "r"), .workerReadAgain,
    .workerEnd 2 (.ok ())]

/-- The steps of the source, whether their writes are safe or not. -/
def JobSystem.Step (s : JobSystem) (step : JobStep) (s' : JobSystem) : Prop :=
  s.next step = some s'

/-- What is committed before and after the late failure. -/
def lateFailure : Option (AsyncJobRow × AsyncJobRow) :=
  (Run.runAll JobSystem.next (.initial queuedJob) unsafeSteps).bind fun s =>
    (s.next (.enqueuerWrite 3 (.ok ()))).bind fun s' =>
      s.committed.bind fun row => s'.committed.map fun row' => (row, row')

/-- A completed row is overwritten, and what is committed then does not load. -/
theorem late_failure_overwrites_completed_job : ∃ s s' row row',
    newJob "e" queuedStamp = .ok queuedJob ∧
      Run JobSystem.Step (.initial queuedJob) unsafeSteps s ∧ s.committed = some row ∧
        row.status = .completed ∧ s.Step (.enqueuerWrite 3 (.ok ())) s' ∧
          s'.committed = some row' ∧ row'.status = .failed ∧ ¬row'.Loads := by
  have hlate : lateFailure.map (fun rows =>
      (rows.1.status, rows.2.status, decide (rows.2.data.postInit = .ok ()))) =
        some (.completed, .failed, false) := by decide +kernel
  obtain ⟨⟨row, row'⟩, hrows, hfacts⟩ := Option.map_eq_some_iff.mp hlate
  obtain ⟨s, hs, hrows⟩ := Option.bind_eq_some_iff.mp hrows
  obtain ⟨s', hs', hrows⟩ := Option.bind_eq_some_iff.mp hrows
  obtain ⟨_, hrow, hrows⟩ := Option.bind_eq_some_iff.mp hrows
  obtain ⟨_, hrow', heq⟩ := Option.map_eq_some_iff.mp hrows
  cases heq
  obtain ⟨hcompleted, hfacts⟩ := Prod.mk.inj hfacts
  obtain ⟨hfailed, hinvalid⟩ := Prod.mk.inj hfacts
  refine ⟨s, s', row, row', by with_unfolding_all rfl, Run.of_runAll hs, hrow, hcompleted, hs',
    hrow', hfailed, fun ⟨job, hjob⟩ => ?_⟩
  exact of_decide_eq_false hinvalid (AsyncJob.make_isOk_iff.mp ⟨job, hjob⟩)

end EvalOps
