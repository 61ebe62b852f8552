import EvalOps.Cli
import EvalOps.Proofs.Assess
import EvalOps.Proofs.Returns

/-!
# `EvalOps.Proofs.Cli`: what the exit status means

`evalopsRun_eq` gives the exit status in every case. `exit_status_contract_iff` says when the
documented contract holds of it: the status `1` stands for a blocked release and every other
failure ends with `2`. The report of an evaluation always builds, so the failures are those of
loading and running, and those of the writes.
-/

set_option autoImplicit false

namespace EvalOps

open Effect

/-! ### The report builds -/

/-- The line of a metric that has a verdict. -/
theorem metricLine_isOk {verdicts : List MetricVerdict}
    (hnodup : (verdicts.map MetricVerdict.metric).Nodup) {mc : MetricComparison}
    {v : MetricVerdict} (hv : v ∈ verdicts) (hmetric : v.metric = mc.metric) :
    ∃ line, metricLine (Dict.ofList (verdicts.map fun v => (v.metric, v))) mc = .ok line := by
  unfold metricLine
  rw [← hmetric, Dict.get?_ofList_map hnodup hv]
  exact ⟨_, rfl⟩

/-- The gate's verdicts bear the names of the metrics. -/
theorem map_metric_verdictsOf (result : EvaluationResult) (policy : Option ReleasePolicy) :
    (verdictsOf result policy).map MetricVerdict.metric
      = result.metrics.map MetricComparison.metric := by
  unfold verdictsOf
  rw [List.map_map]
  rfl

/-- The report of a gated result builds. -/
theorem buildReport_isOk (plan : RunPlan) (outcome : RunOutcome) {result : EvaluationResult}
    {policy : Option ReleasePolicy} {gate : GateReport} (h : Decided result policy gate) :
    ∃ report, buildReport plan outcome result gate = .ok report := by
  -- Each metric has one verdict, under its own name.
  have hnodup : (gate.verdicts.map MetricVerdict.metric).Nodup := by
    rw [h.verdicts, map_metric_verdictsOf]
    exact result.metrics_nodup
  have hlines : ∃ lines, result.metrics.mapM (metricLine
      (Dict.ofList (gate.verdicts.map fun v => (v.metric, v)))) = .ok lines := by
    refine ExceptRules.exists_mapM_eq_ok_iff.mpr fun mc hmc => ?_
    have hmem : mc.metric ∈ gate.verdicts.map MetricVerdict.metric := by
      rw [h.verdicts, map_metric_verdictsOf]
      exact List.mem_map_of_mem hmc
    obtain ⟨v, hv, hmetric⟩ := List.mem_map.mp hmem
    exact metricLine_isOk hnodup hv hmetric
  obtain ⟨lines, hlines⟩ := hlines
  unfold buildReport
  dsimp only
  rw [hlines]
  exact ⟨_, rfl⟩

/-- What happens inside the `try`. -/
def attempt (env : Environment) (rt : Runtime) (load : Py RunPlan) :
    Py (EvaluationOutcome × RunReport) :=
  (exec (evaluateAndReport env rt load) 0).1

/-- The `try` raises exactly what loading and running raise. -/
theorem attempt_eq_error_iff {env : Environment} {rt : Runtime} {load : Py RunPlan}
    {e : PyError} :
    attempt env rt load = .error e ↔ (exec (runConfig env rt load) 0).1 = .error e := by
  have hfst : ∀ {α : Type} (x : RunM α),
      (exec x 0).1 = .error e ↔ ∃ t, exec x 0 = (.error e, t) := fun x =>
    ⟨fun h => ⟨_, Prod.ext h rfl⟩, fun ⟨_, h⟩ => h ▸ rfl⟩
  unfold attempt
  rw [hfst, hfst]
  refine exists_congr fun t => ?_
  unfold evaluateAndReport runConfig runPlanned
  rw [exec_lift_bind_eq_error, exec_lift_bind_eq_error]
  refine or_congr Iff.rfl (exists_congr fun plan => and_congr_right fun _ => ?_)
  rw [exec_bind_eq_error, exec_bind_eq_error]
  refine or_congr Iff.rfl (exists_congr fun a => exists_congr fun u => and_congr_right fun h => ?_)
  obtain ⟨outcome, hproduced, hassess⟩ := runEvaluation_eq_ok h
  obtain ⟨g, rfl⟩ := hproduced.grid
  -- What has been evaluated has a report, so the report adds no error.
  obtain ⟨report, hreport⟩ := buildReport_isOk plan a.outcome (Grid.of_assess hassess).2
  rw [exec_lift_bind_eq_error, hreport]
  simp

/-! ### The writes -/

/-- The evaluation ended in a blocked release. -/
def Blocks (result : Py (EvaluationOutcome × RunReport)) : Prop :=
  ∃ evaluation report, result = .ok (evaluation, report) ∧ evaluation.gate.decision = .block

/-- Every write that the arguments ask for succeeds. -/
def Output.AcceptsReport (output : Output) (args : RunArgs) (report : RunReport) : Prop :=
  (args.showHuman = true → output.accepts [] .stdout (humanReport report) = .ok ()) ∧
    ∀ path, args.jsonPath = some path →
      output.accepts (if args.showHuman then [⟨.stdout, humanReport report⟩] else [])
        (if path = "-" then .stdout else .file path) (output.jsonText report) = .ok ()

variable {output : Output} {args : RunArgs} {env : Environment} {rt : Runtime}
  {load : Py RunPlan}

theorem exec_write (channel : Channel) (text : String) (written : List Write) :
    exec (output.write channel text) written =
      match output.accepts written channel text with
      | .ok () => (.ok (), written ++ [⟨channel, text⟩])
      | .error e => (.error e, written) := by
  unfold Output.write
  simp only [exec_bind, exec_get, exec_lift]
  cases output.accepts written channel text <;> rfl

theorem exec_write_isOk (channel : Channel) (text : String) (written : List Write) :
    (∃ log, exec (output.write channel text) written = (.ok (), log)) ↔
      output.accepts written channel text = .ok () := by
  rw [exec_write]
  cases output.accepts written channel text <;> simp

/-- The write of the JSON report goes through exactly when it is accepted. -/
theorem exec_writeJson_isOk (report : RunReport) (written : List Write) :
    (∃ log, exec (output.writeJson args report) written = (.ok (), log)) ↔
      ∀ path, args.jsonPath = some path →
        output.accepts written (if path = "-" then .stdout else .file path)
          (output.jsonText report) = .ok () := by
  unfold Output.writeJson RunArgs.jsonToStdout
  cases args.jsonPath with
  | none => simp
  | some path =>
      by_cases hpath : path = "-"
      · simp [hpath, exec_write_isOk]
      · simp [hpath, exec_write_isOk]

/-- The writes go through exactly when each is accepted. -/
theorem exec_writeReport_isOk (report : RunReport) :
    (∃ log, exec (output.writeReport args report) [] = (.ok (), log)) ↔
      output.AcceptsReport args report := by
  unfold Output.writeReport Output.AcceptsReport
  cases hhuman : args.showHuman with
  -- only the JSON report
  | false =>
      simp only [Bool.false_eq_true, if_false, false_implies, true_and]
      exact exec_writeJson_isOk report []
  | true =>
      simp only [if_true, true_implies]
      rw [← exec_writeJson_isOk report]
      -- The table is written before the JSON report.
      constructor
      · rintro ⟨log, hlog⟩
        obtain ⟨_, written, hwrite, hjson⟩ := exec_bind_eq_ok.mp hlog
        have haccepts := (exec_write_isOk _ _ _).mp ⟨_, hwrite⟩
        rw [exec_write, haccepts] at hwrite
        cases hwrite
        exact ⟨haccepts, log, hjson⟩
      · rintro ⟨haccepts, log, hjson⟩
        refine ⟨log, exec_bind_eq_ok.mpr ⟨(), _, ?_, hjson⟩⟩
        rw [exec_write, haccepts]
        rfl

/-! ### The exit status -/

/-- The exit status in every case. -/
theorem evalopsRun_eq :
    evalopsRun output args env rt load =
      match attempt env rt load with
      | .error exc => if exc.isException then 2 else 1
      | .ok (evaluation, report) =>
          if (exec (output.writeReport args report) []).1 = .ok () then
            if evaluation.gate.decision = .block then 1 else 0
          else 1 := by
  unfold evalopsRun
  rw [show (exec (evaluateAndReport env rt load) 0).1 = attempt env rt load from rfl]
  dsimp only
  cases attempt env rt load with
  | error exc =>
      unfold run
      dsimp only
      split <;> rfl
  | ok pair =>
      obtain ⟨evaluation, report⟩ := pair
      unfold run
      dsimp only
      rw [exec_bind]
      rcases hwrite : exec (output.writeReport args report) [] with ⟨result, log⟩
      cases result with
      | error exc => simp [exitStatus]
      | ok _ => simp [exitStatus]

/-- A step of the command raised, inside the `try` or behind it. -/
def Fails (output : Output) (args : RunArgs) (result : Py (EvaluationOutcome × RunReport)) :
    Prop :=
  (∃ e, result = .error e) ∨ ∃ e, (exec (run output args result) []).1 = .error e

/-- The documented meaning of the exit status. -/
structure ExitContract (output : Output) (args : RunArgs) (env : Environment) (rt : Runtime)
    (load : Py RunPlan) : Prop where
  one_means_block : evalopsRun output args env rt load = 1 → Blocks (attempt env rt load)
  failure_means_two : Fails output args (attempt env rt load) → ¬Blocks (attempt env rt load) →
    evalopsRun output args env rt load = 2

/-- A write that raises ends the process with status `1`, whatever the decision. -/
theorem evalopsRun_of_rejected {evaluation : EvaluationOutcome} {report : RunReport}
    (hattempt : attempt env rt load = .ok (evaluation, report))
    (hreject : ¬output.AcceptsReport args report) : evalopsRun output args env rt load = 1 := by
  rw [evalopsRun_eq, hattempt]
  refine if_neg fun hwrite => hreject ?_
  exact (exec_writeReport_isOk report).mp ⟨_, Prod.ext hwrite rfl⟩

/-- When the writes go through, the status is the decision. -/
theorem evalopsRun_of_accepted {evaluation : EvaluationOutcome} {report : RunReport}
    (hattempt : attempt env rt load = .ok (evaluation, report))
    (haccept : output.AcceptsReport args report) :
    evalopsRun output args env rt load = if evaluation.gate.decision = .block then 1 else 0 := by
  obtain ⟨log, hlog⟩ := (exec_writeReport_isOk report).mpr haccept
  rw [evalopsRun_eq, hattempt]
  exact if_pos (congrArg Prod.fst hlog)

/-- The contract holds exactly when loading or running raised an `Exception`, the release is
blocked, or every requested write is accepted. -/
theorem exit_status_contract_iff :
    ExitContract output args env rt load ↔
      (∃ e, (exec (runConfig env rt load) 0).1 = .error e ∧ e.isException = true) ∨
        Blocks (attempt env rt load) ∨ ∃ evaluation report,
          attempt env rt load = .ok (evaluation, report) ∧
            output.AcceptsReport args report := by
  simp only [← attempt_eq_error_iff]
  constructor
  · intro h
    cases hattempt : attempt env rt load with
    | error e =>
        -- What `except Exception` lets through ends with `1`, and no release was blocked.
        refine Or.inl ⟨e, rfl, ?_⟩
        by_contra hbase
        have hone : evalopsRun output args env rt load = 1 := by
          rw [evalopsRun_eq, hattempt]
          exact if_neg hbase
        obtain ⟨_, _, hok, _⟩ := h.one_means_block hone
        exact nomatch hattempt.symm.trans hok
    | ok pair =>
        obtain ⟨evaluation, report⟩ := pair
        by_cases haccept : output.AcceptsReport args report
        · exact Or.inr (Or.inr ⟨evaluation, report, rfl, haccept⟩)
        · have hblocks := h.one_means_block (evalopsRun_of_rejected hattempt haccept)
          rw [hattempt] at hblocks
          exact Or.inr (Or.inl hblocks)
  · rintro (⟨e, he, hexception⟩ | hblocks | ⟨evaluation, report, hattempt, haccept⟩)
    · have hstatus : evalopsRun output args env rt load = 2 := by
        rw [evalopsRun_eq, he]
        exact if_pos hexception
      exact ⟨fun hone => by omega, fun _ _ => hstatus⟩
    · exact ⟨fun _ => hblocks, fun _ hnot => absurd hblocks hnot⟩
    · have hstatus := evalopsRun_of_accepted hattempt haccept
      obtain ⟨log, hlog⟩ := (exec_writeReport_isOk report).mpr haccept
      refine ⟨fun hone => ⟨evaluation, report, hattempt, ?_⟩, fun hfails => ?_⟩
      · rw [hstatus] at hone
        by_contra hpass
        rw [if_neg hpass] at hone
        exact nomatch hone
      · -- Nothing raised.
        rcases hfails with ⟨e, he⟩ | ⟨e, he⟩
        · exact nomatch hattempt.symm.trans he
        · rw [hattempt, run, exec_bind, hlog] at he
          exact nomatch he

/-! ### A candidate that is blocked -/

/-- The plan of eight cases whose candidate fails, under a policy that tolerates no loss of
success. -/
def blockedPlan : RunPlan :=
  { offlinePlan inputTemplate with
    dataset := offlineDataset 7
    policy := some (offlinePolicy "success_rate" successRate_nonblank 0 nonneg_zero)
    providers := offlineProviders failingAnswer }

/-- Its run, and a property of its report that the kernel checks. -/
theorem blocked_attempt {p : RunReport → Bool}
    (h : (attempt offlineEnv (offlineRuntime 0) (.ok blockedPlan)).toOption.any
      (fun pair => decide (pair.1.gate.decision = .block) && p pair.2) = true) :
    ∃ evaluation report, attempt offlineEnv (offlineRuntime 0) (.ok blockedPlan)
        = .ok (evaluation, report) ∧ evaluation.gate.decision = .block ∧ p report = true := by
  obtain ⟨⟨evaluation, report⟩, hattempt, hchecks⟩ := (Option.any_eq_true _ _).mp h
  obtain ⟨hblock, hp⟩ := Bool.and_eq_true_iff.mp hchecks
  exact ⟨evaluation, report, ExceptRules.toOption_eq_some.mp hattempt,
    of_decide_eq_true hblock, hp⟩

/-! ### A report file that cannot be written -/

/-- The outside in which no file can be opened. -/
def offlineOutput : Output where
  floatRepr := PyText.general 17
  accepts := fun _ channel _ =>
    match channel with
    | .file path => throw ⟨.other "FileNotFoundError",
        "[Errno 2] No such file or directory: " ++ PyText.repr path⟩
    | _ => pure ()

/-- The release passes, and the process ends with the status that stands for a block. -/
theorem unwritable_report_exits_with_block :
    (attempt offlineEnv (offlineRuntime 0) (.ok (offlinePlan inputTemplate))).map
        (fun p => p.1.gate.decision) = .ok .pass ∧
      evalopsRun offlineOutput ⟨some "missing/report.json", true⟩ offlineEnv (offlineRuntime 0)
        (.ok (offlinePlan inputTemplate)) = 1 := by
  have hdecision : (attempt offlineEnv (offlineRuntime 0) (.ok (offlinePlan inputTemplate))).map
      (fun p => p.1.gate.decision) = .ok .pass := by
    with_unfolding_all rfl
  refine ⟨hdecision, ?_⟩
  cases hattempt : attempt offlineEnv (offlineRuntime 0) (.ok (offlinePlan inputTemplate)) with
  | error e =>
      rw [hattempt] at hdecision
      exact nomatch hdecision
  | ok pair =>
      refine evalopsRun_of_rejected hattempt fun haccept => ?_
      exact nomatch haccept.2 "missing/report.json" rfl

end EvalOps
