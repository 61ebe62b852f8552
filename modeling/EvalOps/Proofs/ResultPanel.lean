import EvalOps.Dashboard.ResultPanel
import EvalOps.Proofs.Cli
import EvalOps.Proofs.GateLines
import EvalOps.Proofs.Results

/-!
# `EvalOps.Proofs.ResultPanel`: the page agrees with the gate

The command line and the page classify the lines of one gate report on their own. Both read the
same verdict: `reportLine` and `panelLine` are the lines of `mc` under it, and `sameVerdict`
compares what is made of them. `panel_agrees_with_report` assembles the page.
-/

set_option autoImplicit false

namespace EvalOps.Dashboard

open Effect

/-! ### The gate report -/

/-- What the gate returns. -/
structure Gated (result : EvaluationResult) (policy : Option ReleasePolicy) (gate : GateReport) :
    Prop where
  directions : HasDirections result
  verdicts : gate.verdicts = verdictsOf result policy
  reasons : (gate.verdicts.filter MetricVerdict.isBlocking).mapM reason = .ok gate.reasons
  advisories : (gate.verdicts.filter MetricVerdict.isAdvisory).mapM advisory = .ok gate.advisories
  gated : gate.gated = policy.isSome
  decision : gate.decision = if gate.reasons ≠ [] then .block else .pass

/-- A metric with a verdict has a direction. -/
theorem hasDirections_of_verdicts {result : EvaluationResult} {threshold : String → Option ℚ}
    {vs : List MetricVerdict} (h : verdicts result threshold = .ok vs) : HasDirections result := by
  intro mc hmc
  obtain ⟨v, _, hv⟩ := ListRules.exists_of_forall₂_of_mem (ExceptRules.mapM_eq_ok_iff.mp h) hmc
  obtain ⟨d, hd, _⟩ := ExceptRules.bind_eq_ok.mp hv
  exact ⟨d, hd⟩

theorem gated_of_evaluateGate {result : EvaluationResult} {policy : Option ReleasePolicy}
    {gate : GateReport} (h : evaluateGate result policy = .ok gate) : Gated result policy gate := by
  cases policy with
  | none =>
      obtain ⟨vs, hvs, h⟩ := ExceptRules.bind_eq_ok.mp h
      have hdir := hasDirections_of_verdicts hvs
      have heq : vs = verdictsOf result none :=
        Except.ok.inj (hvs.symm.trans (verdicts_eq_ok hdir.directed none))
      cases h
      -- Without a threshold every verdict passes.
      have hpass : ∀ v ∈ vs, v.outcome = .pass := by
        intro v hv
        rw [heq] at hv
        obtain ⟨mc, _, rfl⟩ := List.mem_map.mp hv
        exact pass_iff.mpr fun ⟨t, ht, _⟩ => by cases ht
      have hblocking : vs.filter MetricVerdict.isBlocking = [] :=
        List.filter_eq_nil_iff.mpr fun v hv => by simp [MetricVerdict.isBlocking, hpass v hv]
      have hadvisory : vs.filter MetricVerdict.isAdvisory = [] :=
        List.filter_eq_nil_iff.mpr fun v hv => by simp [MetricVerdict.isAdvisory, hpass v hv]
      exact { directions := hdir, verdicts := heq, gated := rfl
              reasons := by rw [hblocking]; rfl
              advisories := by rw [hadvisory]; rfl
              decision := by simp }
  | some p =>
      unfold evaluateGate at h
      dsimp only at h
      split at h
      · cases h
      · obtain ⟨vs, hvs, h⟩ := ExceptRules.bind_eq_ok.mp h
        obtain ⟨reasons, hreasons, h⟩ := ExceptRules.bind_eq_ok.mp h
        obtain ⟨advisories, hadvisories, h⟩ := ExceptRules.bind_eq_ok.mp h
        cases h
        have hdir := hasDirections_of_verdicts hvs
        have heq : vs = verdictsOf result (some p) :=
          Except.ok.inj (hvs.symm.trans (verdicts_eq_ok hdir.directed (some p)))
        exact { directions := hdir, verdicts := heq, gated := rfl, reasons := hreasons
                advisories := hadvisories, decision := rfl }

/-! ### The lines -/

/-- The verdict of one metric. -/
def verdictAt (result : EvaluationResult) (policy : Option ReleasePolicy) (mc : MetricComparison) :
    MetricVerdict :=
  verdictIn (directionOf mc.metric) mc (thresholdOf policy mc.metric)
    (evidenceFor result mc.metric)

/-- The line of the report. -/
def reportLine (mc : MetricComparison) (v : MetricVerdict) : MetricLine where
  metric := mc.metric
  baselineValue := mc.baselineValue
  candidateValue := mc.candidateValue
  delta := mc.delta
  relativeDelta := mc.relativeDelta
  direction := v.direction
  threshold := v.threshold
  adverseChange := v.adverseChange
  regression := v.regression
  gateOutcome := v.outcome

/-- The line of the page. -/
def panelLine (mc : MetricComparison) (v : MetricVerdict) : MetricLineRead where
  metric := mc.metric
  baselineValue := mc.baselineValue
  candidateValue := mc.candidateValue
  delta := mc.delta
  relativeDelta := mc.relativeDelta
  direction := v.direction.value
  threshold := v.threshold
  adverseChange := v.adverseChange
  regression := v.regression
  gateOutcome := v.outcome.value

section Lines

variable {result : EvaluationResult} {policy : Option ReleasePolicy} {gate : GateReport}
  (h : Gated result policy gate)

include h

/-- Each metric has its own verdict. -/
theorem Gated.get?_verdict {mc : MetricComparison} (hmc : mc ∈ result.metrics) :
    (Dict.ofList (gate.verdicts.map fun v => (v.metric, v))).get? mc.metric
      = some (verdictAt result policy mc) := by
  have hnames : gate.verdicts.map MetricVerdict.metric
      = result.metrics.map MetricComparison.metric := by
    rw [h.verdicts, verdictsOf, List.map_map]
    rfl
  have hnodup : (gate.verdicts.map MetricVerdict.metric).Nodup := hnames ▸ result.metrics_nodup
  have hmem : verdictAt result policy mc ∈ gate.verdicts := by
    rw [h.verdicts]
    exact List.mem_map_of_mem hmc
  exact Dict.get?_ofList_map hnodup hmem

theorem Gated.metricLines : result.metrics.mapM
    (metricLine (Dict.ofList (gate.verdicts.map fun v => (v.metric, v))))
      = .ok (result.metrics.map fun mc => reportLine mc (verdictAt result policy mc)) := by
  apply ExceptRules.mapM_eq_ok_map
  intro mc hmc
  unfold metricLine
  rw [h.get?_verdict hmc]
  rfl

theorem Gated.metricLineReads : metricLineReads result gate
    = .ok (result.metrics.map fun mc => panelLine mc (verdictAt result policy mc)) := by
  apply ExceptRules.mapM_eq_ok_map
  intro mc hmc
  unfold metricLineRead
  rw [h.get?_verdict hmc]
  rfl

end Lines

/-! ### One metric -/

section Verdict

variable {d : Direction} {mc : MetricComparison} {threshold : Option ℚ}
  {evidence : Option MetricEvidence}

/-- The metric moved for the worse, and within its threshold. -/
def MovedWithin (v : MetricVerdict) : Prop :=
  ∃ t a, v.threshold = some t ∧ v.adverseChange = some a ∧ 0 < a ∧ a ≤ t

/-- A measured move for the worse breaches the threshold that it exceeds. -/
theorem breached_of_adverse {a t : ℚ} {b c : ℚ} (ha : (adverseChange d b c (some t)).1 = some a)
    (hpos : 0 < a) : (adverseChange d b c (some t)).2 = decide (t < a) := by
  unfold adverseChange at ha ⊢
  -- The change is zero when the baseline is, and then it is not positive.
  by_cases hb : b = 0
  · by_cases hc : c = 0
    · simp [hb, hc] at ha
      exact absurd hpos (ha ▸ lt_irrefl 0)
    · cases d with
      | higherIsBetter =>
          simp [hb, hc] at ha
          exact absurd hpos (ha ▸ lt_irrefl 0)
      | lowerIsBetter => simp [hb, hc] at ha
  · cases d with
    | higherIsBetter =>
        simp [hb] at ha
        simp [hb, exceeds, ha]
    | lowerIsBetter =>
        simp [hb] at ha
        simp [hb, exceeds, ha]

/-- A verdict that passes does not breach, and the others do. -/
theorem outcome_eq_pass_iff : (verdictIn d mc threshold evidence).outcome = .pass ↔
    (verdictIn d mc threshold evidence).thresholdBreached = false := by
  rw [pass_iff, ← adverseChange_snd_iff, Bool.not_eq_true]
  rfl

/-- A breach has a threshold. -/
theorem threshold_isSome_of_outcome (h : (verdictIn d mc threshold evidence).outcome ≠ .pass) :
    (verdictIn d mc threshold evidence).threshold.isSome = true := by
  rw [Ne, pass_iff, not_not] at h
  obtain ⟨t, ht, _⟩ := h
  show threshold.isSome = true
  rw [ht]
  rfl

/-- Moving for the worse and passing is moving within the threshold. -/
theorem movedWithin_iff {v : MetricVerdict} (hv : v = verdictIn d mc threshold evidence) :
    MovedWithin v ↔
      v.outcome = .pass ∧ v.threshold.isSome = true ∧ ∃ a, v.adverseChange = some a ∧ 0 < a := by
  subst hv
  constructor
  · rintro ⟨t, a, ht, ha, hpos, hle⟩
    have hthreshold : threshold = some t := ht
    subst hthreshold
    refine ⟨?_, rfl, a, ha, hpos⟩
    rw [outcome_eq_pass_iff]
    show (adverseChange d mc.baselineValue mc.candidateValue (some t)).2 = false
    rw [breached_of_adverse ha hpos, decide_eq_false_iff_not]
    exact not_lt.mpr hle
  · rintro ⟨hpass, hsome, a, ha, hpos⟩
    obtain ⟨t, ht⟩ := Option.isSome_iff_exists.mp hsome
    have hthreshold : threshold = some t := ht
    subst hthreshold
    refine ⟨t, a, rfl, ha, hpos, ?_⟩
    rw [outcome_eq_pass_iff] at hpass
    have hbreach := breached_of_adverse (c := mc.candidateValue) ha hpos
    rw [show (adverseChange d mc.baselineValue mc.candidateValue (some t)).2 = false from hpass]
      at hbreach
    simpa using hbreach.symm

end Verdict

/-- How the report and the page show one metric. -/
structure SameVerdict (line : MetricLine) (shown : MetricLineRead) : Prop where
  metric : shown.metric = line.metric
  blocked : metricDisplayStatus shown = .blocked ↔ statusText line = "BLOCK"
  breach : (metricDisplayStatus shown = .breachInconclusive ∨
    metricDisplayStatus shown = .breachLowEvidence) ↔ statusText line = "ADVISORY"
  within : metricDisplayStatus shown = .withinThreshold ↔
    ∃ t a, line.threshold = some t ∧ line.adverseChange = some a ∧ 0 < a ∧ a ≤ t
  not_gated : metricDisplayStatus shown = .regression ↔
    line.threshold = none ∧ ∃ a, line.adverseChange = some a ∧ 0 < a

/-- The status of the report, by the outcome of the verdict. -/
theorem statusText_reportLine (mc : MetricComparison) {v : MetricVerdict}
    (hregression : v.regression = decide (v.outcome = .regression))
    (hthreshold : v.outcome ≠ .pass → v.threshold.isSome = true) :
    statusText (reportLine mc v) =
      match v.outcome with
      | .regression => "BLOCK"
      | .regressionInconclusive | .regressionLowEvidence => "ADVISORY"
      | .pass => if v.threshold.isSome then "OK" else "-" := by
  have hnone : v.outcome ≠ .pass → v.threshold.isNone = false := fun h => by
    rw [← Option.not_isSome, hthreshold h]
    rfl
  unfold statusText reportLine
  dsimp only
  rw [hregression]
  cases hout : v.outcome with
  | regression => simp [hnone (by simp [hout])]
  | regressionInconclusive => simp [hnone (by simp [hout])]
  | regressionLowEvidence => simp [hnone (by simp [hout])]
  | pass => cases v.threshold <;> simp

/-- Only a line that regressed is blocked, and none is a breach that does not block. -/
theorem metricStatus_not_breach {m : MetricLineRead} (h : m.regression = false) :
    metricStatus m ≠ .blocked ∧ metricStatus m ≠ .breachInconclusive ∧
      metricStatus m ≠ .breachLowEvidence := by
  unfold metricStatus
  rw [h]
  cases m.adverseChange with
  | none => simp
  | some a =>
      dsimp only
      split_ifs <;> simp_all

/-- A move for the worse is shown by whether its metric is gated. -/
theorem metricStatus_eq_withinThreshold_iff {m : MetricLineRead} (h : m.regression = false) :
    metricStatus m = .withinThreshold ↔
      m.threshold.isSome = true ∧ ∃ a, m.adverseChange = some a ∧ 0 < a := by
  unfold metricStatus
  rw [h]
  cases m.adverseChange with
  | none => simp
  | some a =>
      -- A negative change is not positive.
      have hsign : a < 0 → ¬0 < a := fun hneg => hneg.not_gt
      by_cases hneg : a < 0
      · simp [hneg, hsign hneg]
      · by_cases hpos : 0 < a <;> cases m.threshold <;> simp [hneg, hpos]

theorem metricStatus_eq_regression_iff {m : MetricLineRead} (h : m.regression = false) :
    metricStatus m = .regression ↔
      m.threshold = none ∧ ∃ a, m.adverseChange = some a ∧ 0 < a := by
  unfold metricStatus
  rw [h]
  cases m.adverseChange with
  | none => simp
  | some a =>
      have hsign : a < 0 → ¬0 < a := fun hneg => hneg.not_gt
      by_cases hneg : a < 0
      · simp [hneg, hsign hneg]
      · by_cases hpos : 0 < a <;> cases m.threshold <;> simp [hneg, hpos]

/-- The status of the page, by the outcome of the verdict. -/
theorem metricDisplayStatus_panelLine (mc : MetricComparison) (v : MetricVerdict) :
    metricDisplayStatus (panelLine mc v) =
      match v.outcome with
      | .regression => .blocked
      | .regressionInconclusive => .breachInconclusive
      | .regressionLowEvidence => .breachLowEvidence
      | .pass => metricStatus (panelLine mc v) := by
  have houtcome : (panelLine mc v).gateOutcome = v.outcome.value := rfl
  unfold metricDisplayStatus
  rw [houtcome]
  cases v.outcome <;> rfl

/-- The report and the page read one verdict alike. -/
theorem sameVerdict {d : Direction} {mc : MetricComparison} {threshold : Option ℚ}
    {evidence : Option MetricEvidence} {v : MetricVerdict}
    (hv : v = verdictIn d mc threshold evidence) :
    SameVerdict (reportLine mc v) (panelLine mc v) := by
  have hregression : v.regression = decide (v.outcome = .regression) := by rw [hv]; rfl
  have hthreshold : v.outcome ≠ .pass → v.threshold.isSome = true := by
    rw [hv]
    exact threshold_isSome_of_outcome
  have hwithin : (∃ t a, (reportLine mc v).threshold = some t ∧
      (reportLine mc v).adverseChange = some a ∧ 0 < a ∧ a ≤ t) ↔
        v.outcome = .pass ∧ v.threshold.isSome = true ∧ ∃ a, v.adverseChange = some a ∧ 0 < a :=
    movedWithin_iff hv
  have hreport := statusText_reportLine mc hregression hthreshold
  have hpage := metricDisplayStatus_panelLine mc v
  cases hout : v.outcome with
  | pass =>
      rw [hout] at hreport hpage
      dsimp only at hreport hpage
      -- Behind a verdict that passes, the page looks at the change and the threshold.
      have hline : (panelLine mc v).regression = false := by
        show v.regression = false
        rw [hregression, hout]
        rfl
      obtain ⟨hblocked, hinconclusive, hlow⟩ := metricStatus_not_breach hline
      have hok : statusText (reportLine mc v) ≠ "BLOCK" ∧
          statusText (reportLine mc v) ≠ "ADVISORY" := by
        rw [hreport]
        cases v.threshold.isSome <;> decide
      exact
        { metric := rfl
          blocked := iff_of_false (hpage ▸ hblocked) hok.1
          breach := iff_of_false (hpage ▸ not_or.mpr ⟨hinconclusive, hlow⟩) hok.2
          within := by
            rw [hpage, metricStatus_eq_withinThreshold_iff hline, hwithin, hout]
            simp [panelLine]
          not_gated := by
            rw [hpage, metricStatus_eq_regression_iff hline]
            rfl }
  | _ =>
      -- A breach has a threshold, and its status is that of the outcome.
      have hnone : v.threshold ≠ none := Option.isSome_iff_ne_none.mp (hthreshold (by simp [hout]))
      rw [hout] at hreport hpage
      dsimp only at hreport hpage
      exact
        { metric := rfl
          blocked := by simp [hreport, hpage]
          breach := by simp [hreport, hpage]
          within := by
            rw [hpage, hwithin, hout]
            simp
          not_gated := by simp [hpage, reportLine, hnone] }

/-! ### The page -/

/-- The page of a result, beside the report of the command line on the same evaluation. -/
structure PanelAgrees (report : RunReport) (view : EvaluationResultRead) : Prop where
  lines : List.Forall₂ SameVerdict report.metrics view.metrics
  not_gated : decisionState view = .notGated ↔ report.gated = false
  block : decisionState view = .block ↔ report.decision = .block
  advisory : decisionState view = .advisory ↔
    report.decision ≠ .block ∧ ∃ line ∈ report.metrics, statusText line = "ADVISORY"
  pass : decisionState view = .pass ↔ report.gated = true ∧
    ∀ line ∈ report.metrics, statusText line = "OK" ∨ statusText line = "-"
  sentences : decisionState view = .block →
    List.Forall₂ (fun sentence reason => ∃ line ∈ view.metrics,
      metricDisplayStatus line = .blocked ∧ sentence = blockingSentence line ∧
        (line.metric ++ ": ").toList <+: reason.toList) (decisionHero view).items report.reasons
  advice : decisionState view = .advisory → (decisionHero view).items = report.advisories

section Page

variable {result : EvaluationResult} {policy : Option ReleasePolicy} {gate : GateReport}

/-- What the report has of the gate. -/
structure Reported (result : EvaluationResult) (policy : Option ReleasePolicy) (gate : GateReport)
    (report : RunReport) : Prop where
  metrics : report.metrics = result.metrics.map fun mc => reportLine mc (verdictAt result policy mc)
  gated : report.gated = gate.gated
  decision : report.decision = gate.decision
  reasons : report.reasons = gate.reasons
  advisories : report.advisories = gate.advisories

/-- What the page has of the gate. -/
structure Shown (result : EvaluationResult) (policy : Option ReleasePolicy) (gate : GateReport)
    (view : EvaluationResultRead) : Prop where
  metrics : view.metrics = result.metrics.map fun mc => panelLine mc (verdictAt result policy mc)
  gated : view.gated = gate.gated
  decision : view.decision = gate.decision.value
  advisories : view.advisories = gate.advisories
  evidence : view.evidence = result.evidence.map MetricEvidenceRead.of

theorem Gated.reported (h : Gated result policy gate) {plan : RunPlan} {outcome : RunOutcome}
    {report : RunReport} (hreport : buildReport plan outcome result gate = .ok report) :
    Reported result policy gate report := by
  obtain ⟨lines, hlines, hreport⟩ := ExceptRules.bind_eq_ok.mp hreport
  have hlines := Except.ok.inj (h.metricLines.symm.trans hlines)
  cases hreport
  exact ⟨hlines.symm, rfl, rfl, rfl, rfl⟩

theorem Gated.exists_shown (h : Gated result policy gate) :
    ∃ view, EvaluationResultRead.of result gate = .ok view ∧ Shown result policy gate view := by
  unfold EvaluationResultRead.of
  rw [h.metricLineReads]
  exact ⟨_, rfl, rfl, rfl, rfl, rfl, rfl⟩

/-- The reason of a verdict begins with its metric. -/
theorem prefix_of_reason {v : MetricVerdict} {text : String} (h : reason v = .ok text) :
    (v.metric ++ ": ").toList <+: text.toList := by
  unfold reason at h
  cases hthreshold : v.threshold with
  | none =>
      rw [hthreshold] at h
      cases h
  | some t =>
      rw [hthreshold] at h
      cases hadverse : v.adverseChange with
      | none =>
          rw [hadverse] at h
          cases h
          simp only [String.toList_append, List.append_assoc]
          exact (List.prefix_append_right_inj _).mpr (List.prefix_append _ _)
      | some a =>
          rw [hadverse] at h
          cases h
          simp only [String.toList_append, List.append_assoc]
          exact (List.prefix_append_right_inj _).mpr (List.prefix_append _ _)

theorem statusText_verdictAt {mc : MetricComparison} :
    statusText (reportLine mc (verdictAt result policy mc)) =
      match (verdictAt result policy mc).outcome with
      | .regression => "BLOCK"
      | .regressionInconclusive | .regressionLowEvidence => "ADVISORY"
      | .pass => if (verdictAt result policy mc).threshold.isSome then "OK" else "-" :=
  statusText_reportLine _ rfl threshold_isSome_of_outcome

/-- A verdict is an advisory when the report says so. -/
theorem isAdvisory_iff {mc : MetricComparison} :
    (verdictAt result policy mc).isAdvisory = true ↔
      statusText (reportLine mc (verdictAt result policy mc)) = "ADVISORY" := by
  rw [statusText_verdictAt, MetricVerdict.isAdvisory, decide_eq_true_iff]
  cases (verdictAt result policy mc).outcome with
  | pass => cases (verdictAt result policy mc).threshold.isSome <;> simp
  | _ => simp

/-- Neither blocking nor an advisory is fine or not gated. -/
theorem isFine_iff {mc : MetricComparison} :
    ((verdictAt result policy mc).isBlocking = false ∧
      (verdictAt result policy mc).isAdvisory = false) ↔
      (statusText (reportLine mc (verdictAt result policy mc)) = "OK" ∨
        statusText (reportLine mc (verdictAt result policy mc)) = "-") := by
  rw [statusText_verdictAt, MetricVerdict.isAdvisory, MetricVerdict.isBlocking]
  cases (verdictAt result policy mc).outcome with
  | pass => cases (verdictAt result policy mc).threshold.isSome <;> simp
  | _ => simp

/-- The metrics whose verdict passes a test. -/
theorem Gated.filter_verdicts (h : Gated result policy gate) (test : MetricVerdict → Bool) :
    gate.verdicts.filter test
      = (result.metrics.filter fun mc => test (verdictAt result policy mc)).map
          (verdictAt result policy) := by
  rw [h.verdicts, verdictsOf]
  exact List.filter_map

/-- There is an advisory when a metric of the report is one. -/
theorem Gated.advisories_ne_nil_iff (h : Gated result policy gate) : gate.advisories ≠ [] ↔
    ∃ mc ∈ result.metrics,
      statusText (reportLine mc (verdictAt result policy mc)) = "ADVISORY" := by
  have hlength := (ExceptRules.mapM_eq_ok_iff.mp h.advisories).length_eq
  have hempty : gate.advisories = [] ↔ gate.verdicts.filter MetricVerdict.isAdvisory = [] := by
    rw [← List.length_eq_zero_iff, ← List.length_eq_zero_iff, hlength]
  rw [Ne, hempty, h.filter_verdicts, List.map_eq_nil_iff, List.filter_eq_nil_iff]
  simp only [isAdvisory_iff]
  push Not
  rfl

/-- There is a reason when a verdict blocks. -/
theorem Gated.reasons_ne_nil_iff (h : Gated result policy gate) : gate.reasons ≠ [] ↔
    ∃ mc ∈ result.metrics, (verdictAt result policy mc).isBlocking = true := by
  have hlength := (ExceptRules.mapM_eq_ok_iff.mp h.reasons).length_eq
  have hempty : gate.reasons = [] ↔ gate.verdicts.filter MetricVerdict.isBlocking = [] := by
    rw [← List.length_eq_zero_iff, ← List.length_eq_zero_iff, hlength]
  rw [Ne, hempty, h.filter_verdicts, List.map_eq_nil_iff, List.filter_eq_nil_iff]
  push Not
  rfl

/-- The lines that block on the page, each with its reason. -/
theorem Gated.forall₂_reasons (h : Gated result policy gate) {view : EvaluationResultRead}
    (hmetrics : view.metrics
      = result.metrics.map fun mc => panelLine mc (verdictAt result policy mc)) :
    List.Forall₂ (fun line reason => line ∈ view.metrics ∧ metricDisplayStatus line = .blocked ∧
      (line.metric ++ ": ").toList <+: reason.toList) (blockingLines view) gate.reasons := by
  have hall := ExceptRules.mapM_eq_ok_iff.mp h.reasons
  rw [h.filter_verdicts, List.forall₂_map_left_iff] at hall
  have hlines : blockingLines view
      = (result.metrics.filter fun mc => (verdictAt result policy mc).isBlocking).map
          fun mc => panelLine mc (verdictAt result policy mc) := by
    rw [blockingLines, hmetrics]
    exact List.filter_map
  rw [hlines, List.forall₂_map_left_iff]
  refine (ListRules.forall₂_and_mem hall).imp fun mc text hmc => ?_
  obtain ⟨hmem, hreason⟩ := hmc
  obtain ⟨hmem, hblocks⟩ := List.mem_filter.mp hmem
  have hout : (verdictAt result policy mc).outcome = .regression := of_decide_eq_true hblocks
  have hmetric : (panelLine mc (verdictAt result policy mc)).metric
      = (verdictAt result policy mc).metric := rfl
  refine ⟨?_, ?_, ?_⟩
  · rw [hmetrics]
    exact List.mem_map_of_mem hmem
  · rw [metricDisplayStatus_panelLine, hout]
  · rw [hmetric]
    exact prefix_of_reason hreason

/-- The state of the page: gated or not, then the reasons, then the advisories. -/
theorem Shown.decisionState_eq {view : EvaluationResultRead}
    (hshown : Shown result policy gate view) (h : Gated result policy gate) :
    decisionState view =
      if gate.gated = false then .notGated
      else if gate.reasons ≠ [] then .block
      else if gate.advisories ≠ [] then .advisory
      else .pass := by
  have hblock : view.decision = "block" ↔ gate.reasons ≠ [] := by
    rw [hshown.decision, h.decision]
    by_cases hreasons : gate.reasons = [] <;> simp [hreasons, ReleaseDecision.value]
  have hadvisory : 0 < gate.advisories.length ↔ gate.advisories ≠ [] := List.length_pos_iff
  unfold decisionState
  rw [hshown.gated, hshown.advisories]
  cases gate.gated with
  | false => rfl
  | true =>
      simp only [Bool.not_true, Bool.false_eq_true, Bool.true_eq_false, if_false, hblock,
        hadvisory]

/-- Without a policy there is neither a reason nor an advisory. -/
theorem Gated.lines_of_not_gated (h : Gated result policy gate) (hgated : gate.gated = false) :
    gate.reasons = [] ∧ gate.advisories = [] := by
  have hpolicy : policy = none := by simpa [h.gated] using hgated
  subst hpolicy
  have hpass : ∀ mc, (verdictAt result none mc).outcome = .pass := fun mc =>
    pass_iff.mpr fun ⟨t, ht, _⟩ => by cases ht
  constructor
  · by_contra hne
    obtain ⟨mc, _, hblocks⟩ := h.reasons_ne_nil_iff.mp hne
    simp [MetricVerdict.isBlocking, hpass] at hblocks
  · by_contra hne
    obtain ⟨mc, _, hadvisory⟩ := h.advisories_ne_nil_iff.mp hne
    rw [← isAdvisory_iff] at hadvisory
    simp [MetricVerdict.isAdvisory, hpass] at hadvisory

/-- The page shows what the report says. -/
theorem Shown.panelAgrees {view : EvaluationResultRead} (hshown : Shown result policy gate view)
    (h : Gated result policy gate) {report : RunReport}
    (hreported : Reported result policy gate report) : PanelAgrees report view := by
  have hstate := hshown.decisionState_eq h
  have hdecision : report.decision = .block ↔ gate.reasons ≠ [] := by
    rw [hreported.decision, h.decision]
    by_cases hreasons : gate.reasons = [] <;> simp [hreasons]
  have hnotblock : report.decision ≠ .block ↔ gate.reasons = [] :=
    (not_congr hdecision).trans not_not
  have hadvisory : (∃ line ∈ report.metrics, statusText line = "ADVISORY") ↔
      gate.advisories ≠ [] := by
    rw [hreported.metrics, h.advisories_ne_nil_iff]
    simp only [List.mem_map, exists_exists_and_eq_and]
  have hfine : (∀ line ∈ report.metrics, statusText line = "OK" ∨ statusText line = "-") ↔
      gate.reasons = [] ∧ gate.advisories = [] := by
    have hreasons := h.reasons_ne_nil_iff
    have hadvisories := h.advisories_ne_nil_iff
    simp only [← isAdvisory_iff] at hadvisories
    rw [← not_iff_not] at hreasons hadvisories
    push Not at hreasons hadvisories
    rw [hreasons, hadvisories, hreported.metrics, List.forall_mem_map]
    simp only [← isFine_iff, Bool.not_eq_true]
    exact forall₂_and
  have hnone := h.lines_of_not_gated
  have hreasons := h.forall₂_reasons hshown.metrics
  have hcount := hreasons.length_eq
  refine
    { lines := ?_, not_gated := ?_, block := ?_, advisory := ?_, pass := ?_, sentences := ?_,
      advice := ?_ }
  · rw [hreported.metrics, hshown.metrics, List.forall₂_map_left_iff, List.forall₂_map_right_iff,
      List.forall₂_same]
    exact fun mc _ => sameVerdict rfl
  · rw [hstate, hreported.gated]
    cases gate.gated with
    | false => simp
    | true => split_ifs <;> simp_all
  · rw [hstate, hdecision]
    cases hgated : gate.gated with
    | false => simp [(hnone hgated).1]
    | true => split_ifs <;> simp_all
  · rw [hstate, hadvisory, hnotblock]
    cases hgated : gate.gated with
    | false => simp [(hnone hgated).2]
    | true => split_ifs <;> simp_all
  · rw [hstate, hfine, hreported.gated]
    cases gate.gated with
    | false => simp
    | true => split_ifs <;> simp_all
  · intro hblock
    have hne : gate.reasons ≠ [] := by
      rw [hstate] at hblock
      by_contra hempty
      rw [if_neg (not_not.mpr hempty)] at hblock
      split_ifs at hblock
    have hpos : 0 < (blockingLines view).length := by
      rw [hcount]
      exact List.length_pos_iff.mpr hne
    have hitems : (decisionHero view).items = (blockingLines view).map blockingSentence := by
      show heroItems view (decisionState view) = _
      rw [hblock]
      exact if_pos hpos
    rw [hitems, List.forall₂_map_left_iff, hreported.reasons]
    exact hreasons.imp fun line text ⟨hline, hblocked, hprefix⟩ =>
      ⟨line, hline, hblocked, rfl, hprefix⟩
  · intro hadvice
    show heroItems view (decisionState view) = _
    rw [hadvice, hreported.advisories]
    exact hshown.advisories

end Page

/-- The assessment and the report behind an evaluation of the command line. -/
theorem assess_of_attempt {env : Environment} {rt : Runtime} {load : Py RunPlan}
    {evaluation : EvaluationOutcome} {report : RunReport}
    (h : attempt env rt load = .ok (evaluation, report)) :
    ∃ (plan : RunPlan) (outcome : RunOutcome),
      assess rt plan.experiment (plan.evaluators.map Evaluator.name) plan.policy env.resultStamp
        outcome = .ok evaluation ∧
      buildReport plan evaluation.outcome evaluation.result evaluation.gate = .ok report := by
  obtain ⟨plan, t, _, h⟩ := exec_bind_eq_ok.mp (Prod.ext h rfl : exec
    (evaluateAndReport env rt load) 0 = (.ok (evaluation, report), _))
  obtain ⟨evaluation', t', hevaluate, h⟩ := exec_bind_eq_ok.mp h
  obtain ⟨report', hreport, h⟩ := exec_lift_bind_eq_ok.mp h
  cases h
  obtain ⟨outcome, _, hassess⟩ := runEvaluation_eq_ok hevaluate
  exact ⟨plan, outcome, hassess, hreport⟩

/-- The page on a run of the command line shows the decision and the verdicts of its report: the
state is that of the gate, each metric has the status of its line, and a `BLOCK` lists one sentence
for each reason, in order and about the same metric. -/
theorem panel_agrees_with_report {env : Environment} {rt : Runtime} {load : Py RunPlan}
    {evaluation : EvaluationOutcome} {report : RunReport}
    (h : attempt env rt load = .ok (evaluation, report)) :
    ∃ view, EvaluationResultRead.of evaluation.result evaluation.gate = .ok view ∧
      PanelAgrees report view := by
  obtain ⟨plan, outcome, hassess, hreport⟩ := assess_of_attempt h
  have hgated := gated_of_evaluateGate (assess_gate hassess).2
  obtain ⟨view, hview, hshown⟩ := hgated.exists_shown
  exact ⟨view, hview, hshown.panelAgrees hgated (hgated.reported hreport)⟩

/-- The blocked offline run. -/
theorem blocked_run : ∃ evaluation report,
    attempt offlineEnv (offlineRuntime 0) (.ok blockedPlan) = .ok (evaluation, report) ∧
      evaluation.gate.decision = .block := by
  obtain ⟨evaluation, report, hattempt, hblock, -⟩ :=
    blocked_attempt (p := fun _ => true) (by decide +kernel)
  exact ⟨evaluation, report, hattempt, hblock⟩

/-- The page on an offline run that is blocked. -/
theorem panel_agrees_offline : ∃ (evaluation : EvaluationOutcome) (report : RunReport)
    (view : EvaluationResultRead),
    attempt offlineEnv (offlineRuntime 0) (.ok blockedPlan) = .ok (evaluation, report) ∧
      evaluation.gate.decision = .block ∧
      EvaluationResultRead.of evaluation.result evaluation.gate = .ok view ∧
      PanelAgrees report view := by
  obtain ⟨evaluation, report, hattempt, hblock⟩ := blocked_run
  obtain ⟨view, hview⟩ := panel_agrees_with_report hattempt
  exact ⟨evaluation, report, view, hattempt, hblock, hview⟩

end EvalOps.Dashboard
