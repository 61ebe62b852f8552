import EvalOps.Proofs.Evidence
import EvalOps.Proofs.ResultPanel

/-!
# `EvalOps.Proofs.EvidencePanel`: the statistical evidence on the page

The page reads the evidence of a metric beside the line of the metric, and calls it insufficient on
the word of the statistics. `Measured` is what the statistics say of the size of a sample: the
gate asks for more pairs than they do, so the page never calls the evidence of a `BLOCK`
insufficient.
-/

set_option autoImplicit false

namespace EvalOps.Dashboard

open Effect

/-! ### What the statistics say -/

/-- The size of the sample decides whether there is an interval. -/
structure Measured (e : MetricEvidence) : Prop where
  insufficient : e.insufficientEvidence = decide (e.nPairs < minPairsForCi)
  low : e.ciLow = none ↔ e.nPairs < minPairsForCi
  high : e.ciHigh = none ↔ e.nPairs < minPairsForCi

theorem measured_of_metricEvidence {rt : Runtime} {options : BootstrapOptions}
    (hv : options.Valid) {metric : String} {kind : MetricKind} {baseline candidate : List ℚ}
    {dropped : ℕ} {e : MetricEvidence}
    (h : metricEvidence rt options metric kind baseline candidate dropped = .ok e) :
    Measured e := by
  unfold metricEvidence at h
  by_cases hlength : baseline.length = candidate.length
  · rw [if_neg (not_not.mpr hlength), pairedBootstrapCi_eq_ok hv hlength] at h
    dsimp only at h
    rw [ExceptRules.ok_bind] at h
    have hdata := MetricEvidence.make_eq_ok_iff.mp h
    have hinsufficient : e.insufficientEvidence
        = decide ((differences baseline candidate).length < minPairsForCi) := by rw [hdata]
    have hpairs : e.nPairs = (differences baseline candidate).length := by rw [hdata]
    have hlow : e.ciLow = (bootstrapCi rt options (differences baseline candidate)).1 := by
      rw [hdata]
    have hhigh : e.ciHigh = (bootstrapCi rt options (differences baseline candidate)).2 := by
      rw [hdata]
    refine ⟨by rw [hinsufficient, hpairs], ?_, ?_⟩
    · rw [hlow, hpairs, bootstrapCi]
      split <;> simp_all
    · rw [hhigh, hpairs, bootstrapCi]
      split <;> simp_all
  · rw [if_pos hlength] at h
    cases h

/-- All evidence of an evaluation is measured. -/
theorem measured_of_buildStatisticalEvidence {rt : Runtime} {experiment : Experiment}
    {outcome : RunOutcome} {names : List String} {evidence : List MetricEvidence}
    (h : buildStatisticalEvidence rt .default experiment outcome names = .ok evidence) :
    ∀ e ∈ evidence, Measured e := by
  intro e he
  obtain ⟨series, _, h⟩ := ExceptRules.bind_eq_ok.mp h
  obtain ⟨p, _, hp⟩ :=
    ListRules.exists_of_forall₂_of_mem (ExceptRules.mapM_eq_ok_iff.mp h).flip he
  exact measured_of_metricEvidence (default_valid _) hp

theorem measured_of_assess {rt : Runtime} {experiment : Experiment} {names : List String}
    {policy : Option ReleasePolicy} {stamp : Stamp} {outcome : RunOutcome} {a : EvaluationOutcome}
    (h : assess rt experiment names policy stamp outcome = .ok a) :
    ∀ e ∈ a.result.evidence, Measured e := by
  obtain ⟨aggregated, _, h⟩ := ExceptRules.bind_eq_ok.mp h
  obtain ⟨evidence, hevidence, h⟩ := ExceptRules.bind_eq_ok.mp h
  obtain ⟨result, hresult, h⟩ := ExceptRules.bind_eq_ok.mp h
  obtain ⟨gate, _, h⟩ := ExceptRules.bind_eq_ok.mp h
  cases h
  -- Replacing the evidence of a result replaces nothing else.
  have hkept : result.evidence = evidence := by
    unfold EvaluationResult.replaceEvidence EvaluationResult.make at hresult
    split at hresult
    · split at hresult
      · cases hresult
        rfl
      · cases hresult
    · cases hresult
  exact hkept ▸ measured_of_buildStatisticalEvidence hevidence

/-! ### One entry -/

/-- What the page says of the evidence of a metric, by the outcome of its verdict. -/
theorem evidenceStatus_of_measured {e : MetricEvidence} (he : Measured e)
    (line : Option MetricLineRead) :
    evidenceStatus (.of e) line =
      if e.nPairs < minPairsForCi then .insufficient
      else
        match line with
        | none => .referenceOnly
        | some line =>
            if line.gateOutcome = "regression" then .supportsRegression
            else if line.gateOutcome = "regression_inconclusive" then .inconclusive
            else if line.gateOutcome = "regression_low_evidence" then .insufficient
            else .withinTolerance := by
  have hfew : ((MetricEvidenceRead.of e).insufficientEvidence ||
      (MetricEvidenceRead.of e).ciLow.isNone) = decide (e.nPairs < minPairsForCi) := by
    show (e.insufficientEvidence || e.ciLow.isNone) = _
    have hlow : e.ciLow.isNone = decide (e.nPairs < minPairsForCi) := by
      rw [Bool.eq_iff_iff, Option.isNone_iff_eq_none, he.low, decide_eq_true_iff]
    rw [he.insufficient, hlow, Bool.or_self]
  unfold evidenceStatus
  rw [hfew]
  by_cases hn : e.nPairs < minPairsForCi
  · rw [if_pos (decide_eq_true hn), if_pos hn]
  · have hmany : ¬decide (e.nPairs < minPairsForCi) = true := by simpa using hn
    refine (if_neg hmany).trans (Eq.trans ?_ (if_neg hn).symm)
    cases line <;> rfl

/-- The gate asks for more pairs than an interval does. -/
theorem minPairsForCi_le_minPairsToBlock : minPairsForCi ≤ minPairsToBlock := by decide

section Entry

variable {d : Direction} {mc : MetricComparison} {threshold : Option ℚ} {e : MetricEvidence}

/-- A breach that blocks or is inconclusive has the pairs that the gate asks for. -/
theorem pairs_of_outcome (h : (verdictIn d mc threshold (some e)).outcome = .regression ∨
    (verdictIn d mc threshold (some e)).outcome = .regressionInconclusive) :
    minPairsToBlock ≤ e.nPairs := by
  by_contra hfew
  have hlow : gateOutcome (adverseChange d mc.baselineValue mc.candidateValue threshold).2
      threshold d (some e) = .pass ∨
      gateOutcome (adverseChange d mc.baselineValue mc.candidateValue threshold).2
        threshold d (some e) = .regressionLowEvidence := by
    unfold gateOutcome
    split
    · exact Or.inl rfl
    · exact Or.inr (if_pos (Or.inl (not_le.mp hfew)))
  rcases hlow with hlow | hlow
  · rcases h with h | h <;> cases hlow.symm.trans h
  · rcases h with h | h <;> cases hlow.symm.trans h

/-- A breach of low evidence has fewer. -/
theorem pairs_of_low_evidence (he : Measured e)
    (h : (verdictIn d mc threshold (some e)).outcome = .regressionLowEvidence) :
    e.nPairs < minPairsToBlock := by
  by_contra hmany
  have hci := not_lt.mpr (minPairsForCi_le_minPairsToBlock.trans (not_lt.mp hmany))
  have henough : ¬(e.nPairs < minPairsToBlock ∨ e.ciLow = none ∨ e.ciHigh = none) := by
    rw [he.low, he.high]
    tauto
  have hother : gateOutcome (adverseChange d mc.baselineValue mc.candidateValue threshold).2
      threshold d (some e) ≠ .regressionLowEvidence := by
    unfold gateOutcome
    split
    · decide
    · dsimp only
      rw [if_neg henough]
      split <;> decide
  exact hother h

end Entry

/-! ### The entries of the page -/

/-- The page shows a line of the metric with the status. -/
def ShowsLine (view : EvaluationResultRead) (metric : String) (status : MetricStatus) : Prop :=
  ∃ line ∈ view.metrics, line.metric = metric ∧ metricDisplayStatus line = status

section Page

variable {result : EvaluationResult} {policy : Option ReleasePolicy} {gate : GateReport}
  {view : EvaluationResultRead}

/-- The evidence of a metric is the piece that bears its name. -/
theorem evidenceFor_of_mem {e : MetricEvidence} (he : e ∈ result.evidence) :
    evidenceFor result e.metric = some e := by
  unfold evidenceFor
  rw [← Dict.get?_ofList_map_eq_find? result.evidence_nodup]
  exact Dict.get?_ofList_map result.evidence_nodup he

section

variable (hshown : Shown result policy gate view)

include hshown

theorem Shown.mem_metrics {line : MetricLineRead} : line ∈ view.metrics ↔
    ∃ mc ∈ result.metrics, panelLine mc (verdictAt result policy mc) = line := by
  rw [hshown.metrics, List.mem_map]

/-- The line of a metric of the result. -/
theorem Shown.lineByMetric_of_mem {mc : MetricComparison} (hmc : mc ∈ result.metrics) :
    lineByMetric view mc.metric = some (panelLine mc (verdictAt result policy mc)) := by
  have hnodup : (view.metrics.map MetricLineRead.metric).Nodup := by
    rw [hshown.metrics, List.map_map]
    exact result.metrics_nodup
  exact Dict.get?_ofList_map hnodup (hshown.mem_metrics.mpr ⟨mc, hmc, rfl⟩)

/-- No other metric has a line. -/
theorem Shown.lineByMetric_eq_none {metric : String}
    (h : ∀ mc ∈ result.metrics, mc.metric ≠ metric) : lineByMetric view metric = none := by
  have hnodup : (view.metrics.map MetricLineRead.metric).Nodup := by
    rw [hshown.metrics, List.map_map]
    exact result.metrics_nodup
  unfold lineByMetric
  rw [Dict.get?_ofList_map_eq_find? hnodup, List.find?_eq_none]
  intro line hline
  obtain ⟨mc, hmc, rfl⟩ := hshown.mem_metrics.mp hline
  exact fun hmetric => h mc hmc (of_decide_eq_true hmetric)

/-- A line with the name of a metric is its line. -/
theorem Shown.showsLine_iff {mc : MetricComparison} (hmc : mc ∈ result.metrics)
    {status : MetricStatus} :
    ShowsLine view mc.metric status ↔
      metricDisplayStatus (panelLine mc (verdictAt result policy mc)) = status := by
  constructor
  · rintro ⟨line, hline, hmetric, hstatus⟩
    obtain ⟨mc', hmc', rfl⟩ := hshown.mem_metrics.mp hline
    have hsame : mc' = mc :=
      List.inj_on_of_nodup_map result.metrics_nodup hmc' hmc hmetric
    exact hsame ▸ hstatus
  · exact fun hstatus => ⟨_, hshown.mem_metrics.mpr ⟨mc, hmc, rfl⟩, rfl, hstatus⟩

/-- A piece of evidence has its line, or no line. -/
theorem Shown.entry_cases {e : MetricEvidence} (he : e ∈ result.evidence) (hm : Measured e) :
    ((∀ line ∈ view.metrics, line.metric ≠ e.metric) ∧
      evidenceStatus (.of e) (lineByMetric view e.metric)
        = if e.nPairs < minPairsForCi then .insufficient else .referenceOnly) ∨
    ∃ line ∈ view.metrics, line.metric = e.metric ∧
      (∀ status, ShowsLine view e.metric status ↔ metricDisplayStatus line = status) ∧
      ((metricDisplayStatus line = .blocked ∧ minPairsToBlock ≤ e.nPairs ∧
          evidenceStatus (.of e) (lineByMetric view e.metric) = .supportsRegression) ∨
        (metricDisplayStatus line = .breachInconclusive ∧ minPairsToBlock ≤ e.nPairs ∧
          evidenceStatus (.of e) (lineByMetric view e.metric) = .inconclusive) ∨
        (metricDisplayStatus line = .breachLowEvidence ∧ e.nPairs < minPairsToBlock ∧
          evidenceStatus (.of e) (lineByMetric view e.metric) = .insufficient) ∨
        (metricDisplayStatus line ∉ [.blocked, .breachInconclusive, .breachLowEvidence] ∧
          evidenceStatus (.of e) (lineByMetric view e.metric)
            = if e.nPairs < minPairsForCi then .insufficient else .withinTolerance)) := by
  by_cases hline : ∃ mc ∈ result.metrics, mc.metric = e.metric
  · obtain ⟨mc, hmc, hmetric⟩ := hline
    refine Or.inr ⟨panelLine mc (verdictAt result policy mc),
      hshown.mem_metrics.mpr ⟨mc, hmc, rfl⟩, hmetric, ?_, ?_⟩
    · intro status
      rw [← hmetric]
      exact hshown.showsLine_iff hmc
    · rw [evidenceStatus_of_measured hm, ← hmetric, hshown.lineByMetric_of_mem hmc,
        metricDisplayStatus_panelLine]
      have houtcome : (panelLine mc (verdictAt result policy mc)).gateOutcome
          = (verdictAt result policy mc).outcome.value := rfl
      have hverdict : verdictAt result policy mc = verdictIn (directionOf mc.metric) mc
          (thresholdOf policy mc.metric) (some e) := by
        rw [verdictAt, hmetric, evidenceFor_of_mem he]
      have hmany : minPairsToBlock ≤ e.nPairs → ¬e.nPairs < minPairsForCi := fun h =>
        not_lt.mpr (minPairsForCi_le_minPairsToBlock.trans h)
      dsimp only
      rw [houtcome]
      -- The four outcomes of the gate.
      cases hout : (verdictAt result policy mc).outcome with
      | regression =>
          have hpairs := pairs_of_outcome (Or.inl (hverdict ▸ hout))
          exact Or.inl ⟨rfl, hpairs, by simp [hmany hpairs, GateOutcome.value]⟩
      | regressionInconclusive =>
          have hpairs := pairs_of_outcome (Or.inr (hverdict ▸ hout))
          exact Or.inr (Or.inl ⟨rfl, hpairs, by simp [hmany hpairs, GateOutcome.value]⟩)
      | regressionLowEvidence =>
          have hpairs := pairs_of_low_evidence hm (hverdict ▸ hout)
          exact Or.inr (Or.inr (Or.inl ⟨rfl, hpairs, by simp [GateOutcome.value]⟩))
      | pass =>
          have hregression : (panelLine mc (verdictAt result policy mc)).regression = false := by
            show decide ((verdictAt result policy mc).outcome = .regression) = false
            rw [hout]
            rfl
          obtain ⟨hblocked, hinconclusive, hlow⟩ := metricStatus_not_breach hregression
          exact Or.inr (Or.inr (Or.inr ⟨by simp [hblocked, hinconclusive, hlow],
            by simp [GateOutcome.value]⟩))
  · push Not at hline
    refine Or.inl ⟨?_, ?_⟩
    · intro line hmem
      obtain ⟨mc, hmc, rfl⟩ := hshown.mem_metrics.mp hmem
      exact hline mc hmc
    · rw [evidenceStatus_of_measured hm, hshown.lineByMetric_eq_none hline]

end

end Page

/-- One piece of evidence on the page, beside the line of its metric. -/
structure EntryAgrees (view : EvaluationResultRead) (entry : MetricEvidenceRead)
    (status : EvidenceStatus) : Prop where
  supports : status = .supportsRegression ↔ ShowsLine view entry.metric .blocked
  inconclusive : status = .inconclusive ↔ ShowsLine view entry.metric .breachInconclusive
  insufficient : status = .insufficient ↔
    ShowsLine view entry.metric .breachLowEvidence ∨ entry.nPairs < minPairsForCi
  reference : status = .referenceOnly ↔
    minPairsForCi ≤ entry.nPairs ∧ ∀ line ∈ view.metrics, line.metric ≠ entry.metric
  enough : status = .supportsRegression ∨ status = .inconclusive → minPairsToBlock ≤ entry.nPairs
  few : status = .insufficient → entry.nPairs < minPairsToBlock

theorem Shown.entryAgrees {result : EvaluationResult} {policy : Option ReleasePolicy}
    {gate : GateReport} {view : EvaluationResultRead} (hshown : Shown result policy gate view)
    {e : MetricEvidence} (he : e ∈ result.evidence) (hm : Measured e) :
    EntryAgrees view (.of e) (evidenceStatus (.of e) (lineByMetric view e.metric)) := by
  have hci := minPairsForCi_le_minPairsToBlock
  have hpairs : (MetricEvidenceRead.of e).nPairs = e.nPairs := rfl
  have hmetric : (MetricEvidenceRead.of e).metric = e.metric := rfl
  rcases hshown.entry_cases he hm with ⟨hnone, hstatus⟩ | ⟨line, hline, hname, hshows, hcases⟩
  · have hno : ∀ status, ¬ShowsLine view e.metric status := fun status ⟨line, hmem, h, _⟩ =>
      hnone line hmem h
    by_cases hfew : e.nPairs < minPairsForCi
    · rw [if_pos hfew] at hstatus
      rw [hstatus]
      constructor <;> simp [hpairs, hmetric, hno, hfew, not_le.mpr hfew, hfew.trans_le hci]
    · rw [if_neg hfew] at hstatus
      rw [hstatus]
      constructor <;> simp [hpairs, hmetric, hno, hfew, not_lt.mp hfew]
      exact hnone
  · have hexists : ¬∀ line ∈ view.metrics, line.metric ≠ e.metric := fun h => h line hline hname
    rcases hcases with ⟨hshow, hn, hstatus⟩ | ⟨hshow, hn, hstatus⟩ | ⟨hshow, hn, hstatus⟩ |
      ⟨hshow, hstatus⟩
    · rw [hstatus]
      constructor <;> simp [hpairs, hmetric, hshows, hshow, hexists, hn, hci.trans hn]
    · rw [hstatus]
      constructor <;> simp [hpairs, hmetric, hshows, hshow, hexists, hn, hci.trans hn]
    · rw [hstatus]
      constructor <;> simp [hpairs, hmetric, hshows, hshow, hexists, hn]
    · obtain ⟨hblocked, hinconclusive, hlow⟩ : metricDisplayStatus line ≠ .blocked ∧
          metricDisplayStatus line ≠ .breachInconclusive ∧
            metricDisplayStatus line ≠ .breachLowEvidence := by simpa using hshow
      by_cases hfew : e.nPairs < minPairsForCi
      · rw [if_pos hfew] at hstatus
        rw [hstatus]
        constructor <;>
          simp [hpairs, hmetric, hshows, hblocked, hinconclusive, hexists, hfew, not_le.mpr hfew,
            hfew.trans_le hci]
      · rw [if_neg hfew] at hstatus
        rw [hstatus]
        constructor <;>
          simp [hpairs, hmetric, hshows, hblocked, hinconclusive, hlow, hexists, hfew]

/-- The evidence of a page, and the metrics that are gated without any. -/
structure EvidenceAgrees (view : EvaluationResultRead) : Prop where
  entries : ∀ p ∈ evidenceEntries view, EntryAgrees view p.1 p.2
  point_only : ∀ line ∈ view.metrics, metricDisplayStatus line = .blocked →
    (line ∈ deterministicGated view ↔
      ¬∃ p ∈ evidenceEntries view, p.1.metric = line.metric ∧ p.2 = .supportsRegression)

/-- A line that blocks has a threshold. -/
theorem Shown.threshold_of_blocked {result : EvaluationResult} {policy : Option ReleasePolicy}
    {gate : GateReport} {view : EvaluationResultRead} (hshown : Shown result policy gate view)
    {line : MetricLineRead} (hline : line ∈ view.metrics)
    (hblocked : metricDisplayStatus line = .blocked) : line.threshold.isSome = true := by
  obtain ⟨mc, hmc, rfl⟩ := hshown.mem_metrics.mp hline
  apply threshold_isSome_of_outcome
  intro hpass
  have hregression : (panelLine mc (verdictAt result policy mc)).regression = false := by
    show decide ((verdictAt result policy mc).outcome = .regression) = false
    rw [show (verdictAt result policy mc).outcome = .pass from hpass]
    rfl
  rw [metricDisplayStatus_panelLine, show (verdictAt result policy mc).outcome = .pass from hpass]
    at hblocked
  exact (metricStatus_not_breach hregression).1 hblocked

theorem Shown.evidenceAgrees {result : EvaluationResult} {policy : Option ReleasePolicy}
    {gate : GateReport} {view : EvaluationResultRead} (hshown : Shown result policy gate view)
    (hmeasured : ∀ e ∈ result.evidence, Measured e) : EvidenceAgrees view := by
  have hentries : ∀ p ∈ evidenceEntries view, EntryAgrees view p.1 p.2 := by
    intro p hp
    obtain ⟨entry, hentry, rfl⟩ := List.mem_map.mp hp
    rw [hshown.evidence] at hentry
    obtain ⟨e, he, rfl⟩ := List.mem_map.mp hentry
    exact hshown.entryAgrees he (hmeasured e he)
  refine ⟨hentries, fun line hline hblocked => ?_⟩
  have hgated := hshown.threshold_of_blocked hline hblocked
  have hmem : line ∈ deterministicGated view ↔
      line.metric ∉ view.evidence.map MetricEvidenceRead.metric := by
    simp [deterministicGated, hline, hgated]
  rw [hmem, not_iff_not, List.mem_map]
  constructor
  · rintro ⟨entry, hentry, hmetric⟩
    -- The evidence of a line that blocks supports the regression.
    have hp : (entry, evidenceStatus entry (lineByMetric view entry.metric))
        ∈ evidenceEntries view := List.mem_map.mpr ⟨entry, hentry, rfl⟩
    exact ⟨_, hp, hmetric, (hentries _ hp).supports.mpr ⟨line, hline, hmetric.symm, hblocked⟩⟩
  · rintro ⟨p, hp, hmetric, _⟩
    obtain ⟨entry, hentry, rfl⟩ := List.mem_map.mp hp
    exact ⟨entry, hentry, hmetric⟩

/-- The evidence on the page of a run of the command line: an entry supports a regression exactly
when its metric is shown as blocked, and then it has the pairs that the gate asks for. A metric that
is shown as blocked without such an entry is among those gated on the point comparison alone. -/
theorem evidence_agrees_with_gate {env : Environment} {rt : Runtime} {load : Py RunPlan}
    {evaluation : EvaluationOutcome} {report : RunReport}
    (h : attempt env rt load = .ok (evaluation, report)) :
    ∃ view, EvaluationResultRead.of evaluation.result evaluation.gate = .ok view ∧
      EvidenceAgrees view := by
  obtain ⟨plan, outcome, hassess, _⟩ := assess_of_attempt h
  obtain ⟨view, hview, hshown⟩ :=
    (gated_of_evaluateGate (assess_gate hassess).2).exists_shown
  exact ⟨view, hview, hshown.evidenceAgrees (measured_of_assess hassess)⟩

/-- The evidence on the page of an offline run that is blocked. -/
theorem evidence_agrees_offline : ∃ (evaluation : EvaluationOutcome) (report : RunReport)
    (view : EvaluationResultRead),
    attempt offlineEnv (offlineRuntime 0) (.ok blockedPlan) = .ok (evaluation, report) ∧
      evaluation.gate.decision = .block ∧
      EvaluationResultRead.of evaluation.result evaluation.gate = .ok view ∧
      EvidenceAgrees view := by
  obtain ⟨evaluation, report, hattempt, hblock⟩ := blocked_run
  obtain ⟨view, hview⟩ := evidence_agrees_with_gate hattempt
  exact ⟨evaluation, report, view, hattempt, hblock, hview⟩

end EvalOps.Dashboard
