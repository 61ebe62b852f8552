import EvalOps.Proofs.Policy

/-!
# `EvalOps.Proofs.GateLines`: the lines of a gate report

Every breach of a policy leaves one line in the report, a reason or an advisory, and nothing else
leaves a line. `gate_reports_every_breach` states this for every result whose metrics have a
direction and for every policy over its metrics, whatever the evidence.

The code takes every move away from a zero baseline for an increase when lower is better. The
values that the aggregation produces are not negative, and on those it is one:
`breach_iff_breachRising`.
-/

set_option autoImplicit false

namespace EvalOps

/-- A metric with the line that it leaves in a report. -/
abbrev GateLine := MetricComparison × String

/-- The metric is gated, and it breaches its threshold in the given sense. -/
def Breaching (breach : Direction → ℚ → ℚ → ℚ → Prop) (policy : ReleasePolicy)
    (mc : MetricComparison) : Prop :=
  ∃ t, policy.thresholds.get? mc.metric = some t ∧
    breach (directionOf mc.metric) mc.baselineValue mc.candidateValue t

/-- The evidence lets a breach block: there is none, or it confirms the breach. -/
def EvidenceBlocks (result : EvaluationResult) (policy : ReleasePolicy) (mc : MetricComparison) :
    Prop :=
  ∀ t e, policy.thresholds.get? mc.metric = some t → evidenceFor result mc.metric = some e →
    Confirms (directionOf mc.metric) e.toMetricEvidenceData t

/-- The verdict of one metric of a result under a policy. -/
def verdictOf (result : EvaluationResult) (policy : ReleasePolicy) (mc : MetricComparison) :
    MetricVerdict :=
  verdictIn (directionOf mc.metric) mc (policy.thresholds.get? mc.metric)
    (evidenceFor result mc.metric)

/-- The lines of a report: one for each breaching metric, in `reasons` when its evidence lets it
block and in `advisories` otherwise, and no other line. -/
structure ReportsBreaches (breach : Direction → ℚ → ℚ → ℚ → Prop) (result : EvaluationResult)
    (policy : ReleasePolicy) (report : GateReport) (reasons advisories : List GateLine) :
    Prop where
  reasons_lines : report.reasons = reasons.map Prod.snd
  advisories_lines : report.advisories = advisories.map Prod.snd
  reason_of : ∀ l ∈ reasons, reason (verdictOf result policy l.1) = .ok l.2
  advisory_of : ∀ l ∈ advisories, advisory (verdictOf result policy l.1) = .ok l.2
  nodup : ((reasons ++ advisories).map fun l => l.1.metric).Nodup
  mem_reasons : ∀ mc, mc ∈ reasons.map Prod.fst ↔
    mc ∈ result.metrics ∧ Breaching breach policy mc ∧ EvidenceBlocks result policy mc
  mem_advisories : ∀ mc, mc ∈ advisories.map Prod.fst ↔
    mc ∈ result.metrics ∧ Breaching breach policy mc ∧ ¬EvidenceBlocks result policy mc
  decision : report.decision = .block ↔ report.reasons ≠ []

/-- Every metric of the result has a direction. -/
def HasDirections (result : EvaluationResult) : Prop :=
  ∀ mc ∈ result.metrics, ∃ d, direction mc.metric = .ok d

/-- The direction of a metric, once it has one, is `directionOf`. -/
theorem HasDirections.directed {result : EvaluationResult} (h : HasDirections result) :
    Directed result := by
  intro mc hmc
  obtain ⟨d, hd⟩ := h mc hmc
  unfold direction at hd ⊢
  -- A name is a listed one, or has one of the two suffixes, or has no direction.
  by_cases hlower : mc.metric ∈ lowerIsBetterMetrics
  · simp [directionOf, hlower]
  · rw [if_neg hlower] at hd ⊢
    split at hd
    · rename_i hhigher
      rw [if_pos hhigher]
      simp [directionOf, hlower]
    · cases hd

section

variable {result : EvaluationResult} {policy : ReleasePolicy} {mc : MetricComparison}

/-- A verdict blocks when the metric breaches and its evidence lets it. -/
theorem isBlocking_verdictOf_iff :
    (verdictOf result policy mc).isBlocking = true ↔
      Breaching Breach policy mc ∧ EvidenceBlocks result policy mc := by
  unfold MetricVerdict.isBlocking verdictOf
  rw [decide_eq_true_iff, regression_iff]
  constructor
  · -- The threshold is a lookup, so there is one only.
    rintro ⟨t, ht, hbreach, hconfirm⟩
    refine ⟨⟨t, ht, hbreach⟩, fun t' e ht' he => ?_⟩
    rw [show t' = t by simpa [ht] using ht'.symm]
    exact hconfirm e he
  · rintro ⟨⟨t, ht, hbreach⟩, hblocks⟩
    exact ⟨t, ht, hbreach, fun e he => hblocks t e ht he⟩

/-- A verdict is an advisory when the metric breaches and its evidence does not let it block. -/
theorem isAdvisory_verdictOf_iff :
    (verdictOf result policy mc).isAdvisory = true ↔
      Breaching Breach policy mc ∧ ¬EvidenceBlocks result policy mc := by
  have hblocking := @isBlocking_verdictOf_iff result policy mc
  have hpass : (verdictOf result policy mc).outcome = .pass ↔ ¬Breaching Breach policy mc :=
    pass_iff
  -- The four outcomes: a breach is one of the three that are not `pass`.
  unfold MetricVerdict.isBlocking at hblocking
  unfold MetricVerdict.isAdvisory
  cases houtcome : (verdictOf result policy mc).outcome <;> simp_all

/-- A metric that breaches has a threshold to print. -/
theorem exists_reason (h : (verdictOf result policy mc).isBlocking = true) :
    ∃ text, reason (verdictOf result policy mc) = .ok text := by
  obtain ⟨⟨t, ht, _⟩, _⟩ := isBlocking_verdictOf_iff.mp h
  apply reason_isOk
  rw [show (verdictOf result policy mc).threshold = some t from ht]
  simp

end

/-- The lines that a filtered loop over the metrics prints, each with its metric. -/
theorem exists_lines (result : EvaluationResult) (policy : ReleasePolicy)
    (test : MetricVerdict → Bool) (print : MetricVerdict → Py String)
    (hprint : ∀ mc, test (verdictOf result policy mc) = true →
      ∃ text, print (verdictOf result policy mc) = .ok text) :
    ∃ lines : List GateLine,
      ((verdictsOf result (some policy)).filter test).mapM print = .ok (lines.map Prod.snd) ∧
      lines.map Prod.fst
        = result.metrics.filter (fun mc => test (verdictOf result policy mc)) ∧
      ∀ l ∈ lines, print (verdictOf result policy l.1) = .ok l.2 := by
  have hverdicts : (verdictsOf result (some policy)).filter test
      = (result.metrics.filter fun mc => test (verdictOf result policy mc)).map
          (verdictOf result policy) := by
    rw [show verdictsOf result (some policy) = result.metrics.map (verdictOf result policy)
      from rfl, List.filter_map]
    rfl
  -- Each metric is kept beside its text, so that the loop below returns the pairs.
  have hkeep : ∀ mc ∈ result.metrics.filter fun mc => test (verdictOf result policy mc),
      ∃ l : GateLine, (do
        let text ← print (verdictOf result policy mc)
        pure (mc, text) : Py GateLine) = .ok l ∧ l.1 = id mc := by
    intro mc hmc
    obtain ⟨text, htext⟩ := hprint mc (List.mem_filter.mp hmc).2
    exact ⟨(mc, text), by rw [htext]; rfl, rfl⟩
  obtain ⟨lines, hlines, hfst⟩ := ExceptRules.exists_mapM_eq_ok (g := Prod.fst) (h := id) hkeep
  have hall := ExceptRules.mapM_eq_ok_iff.mp hlines
  have hline : ∀ mc l, (do
        let text ← print (verdictOf result policy mc)
        pure (mc, text) : Py GateLine) = .ok l →
      l.1 = mc ∧ print (verdictOf result policy mc) = .ok l.2 := by
    intro mc l h
    obtain ⟨text, htext, hpure⟩ := ExceptRules.bind_eq_ok.mp h
    cases hpure
    exact ⟨rfl, htext⟩
  -- The first components are the metrics kept, and the second ones the texts printed.
  refine ⟨lines, ?_, hfst.trans (List.map_id _), ?_⟩
  · rw [hverdicts, ExceptRules.mapM_eq_ok_iff, List.forall₂_map_left_iff,
      List.forall₂_map_right_iff]
    exact hall.imp fun mc l h => (hline mc l h).2
  · intro l hl
    obtain ⟨mc, _, h⟩ := ListRules.exists_of_forall₂_of_mem hall.flip hl
    obtain ⟨rfl, htext⟩ := hline mc l h
    exact htext

/-- The gate returns on every result whose metrics have directions, under every policy over these
metrics. It leaves one line for each gated metric that breaches its threshold: a reason when the
metric has no evidence or evidence of enough pairs whose interval lies beyond the tolerated
boundary, and an advisory otherwise. No other metric leaves a line, and the gate blocks exactly
when there is a reason. -/
theorem gate_reports_every_breach {result : EvaluationResult} {policy : ReleasePolicy}
    (hdirections : HasDirections result) (hpolicy : OverMetrics policy result) :
    ∃ report reasons advisories, evaluateGate result (some policy) = .ok report ∧
      ReportsBreaches Breach result policy report reasons advisories := by
  obtain ⟨reasons, hreasons, hreasonsFst, hreason⟩ :=
    exists_lines result policy MetricVerdict.isBlocking reason fun mc h => exists_reason h
  obtain ⟨advisories, hadvisories, hadvisoriesFst, hadvisory⟩ :=
    exists_lines result policy MetricVerdict.isAdvisory advisory fun mc h => advisory_isOk h
  have hmemReasons : ∀ mc, mc ∈ reasons.map Prod.fst ↔ mc ∈ result.metrics ∧
      Breaching Breach policy mc ∧ EvidenceBlocks result policy mc := by
    intro mc
    rw [hreasonsFst, List.mem_filter, isBlocking_verdictOf_iff]
  have hmemAdvisories : ∀ mc, mc ∈ advisories.map Prod.fst ↔ mc ∈ result.metrics ∧
      Breaching Breach policy mc ∧ ¬EvidenceBlocks result policy mc := by
    intro mc
    rw [hadvisoriesFst, List.mem_filter, isAdvisory_verdictOf_iff]
  have hmap : ∀ lines : List GateLine, lines.map (fun l => l.1.metric)
      = (lines.map Prod.fst).map MetricComparison.metric := fun lines => (List.map_map ..).symm
  refine ⟨⟨if reasons.map Prod.snd ≠ [] then .block else .pass, verdictsOf result (some policy),
    reasons.map Prod.snd, advisories.map Prod.snd, true⟩, reasons, advisories, ?_,
    ⟨rfl, rfl, hreason, hadvisory, ?_, hmemReasons, hmemAdvisories, ?_⟩⟩
  · -- The loops of the gate are the two filtered loops above, over the verdicts of the metrics.
    unfold evaluateGate
    dsimp only
    rw [if_neg (not_not.mpr (policyCovered_of_overMetrics hpolicy policy rfl)),
      show policy.thresholds.get? = thresholdOf (some policy) from rfl,
      verdicts_eq_ok hdirections.directed, ExceptRules.ok_bind, hreasons, ExceptRules.ok_bind,
      hadvisories]
    rfl
  · -- The metrics have distinct names, and no metric is both a reason and an advisory.
    have hnames : ∀ p : MetricComparison → Bool,
        ((result.metrics.filter p).map MetricComparison.metric).Nodup := fun p =>
      result.metrics_nodup.sublist (List.filter_sublist.map _)
    rw [List.map_append, List.nodup_append, hmap, hmap]
    refine ⟨hreasonsFst ▸ hnames _, hadvisoriesFst ▸ hnames _, ?_⟩
    rintro _ hr _ ha rfl
    obtain ⟨mc, hmc, rfl⟩ := List.mem_map.mp hr
    obtain ⟨mc', hmc', hname⟩ := List.mem_map.mp ha
    obtain ⟨hmem, _, hblocks⟩ := (hmemReasons mc).mp hmc
    obtain ⟨hmem', _, hnot⟩ := (hmemAdvisories mc').mp hmc'
    have hsame : mc' = mc := List.inj_on_of_nodup_map result.metrics_nodup hmem' hmem hname
    exact hnot (hsame ▸ hblocks)
  · dsimp only
    split <;> simp_all

/-! ### A fall below a zero baseline -/

/-- The point adverse change exceeds the threshold, or the metric rises from a zero baseline while
lower is better. -/
def BreachRising (d : Direction) (baseline candidate t : ℚ) : Prop :=
  match d with
  | .higherIsBetter => baseline ≠ 0 ∧ t < (baseline - candidate) / baseline
  | .lowerIsBetter =>
      (baseline = 0 ∧ 0 < candidate) ∨ (baseline ≠ 0 ∧ t < (candidate - baseline) / baseline)

/-- On values that are not negative a move away from a zero baseline is a rise. -/
theorem breach_iff_breachRising {d : Direction} {baseline candidate t : ℚ}
    (h : 0 ≤ candidate) : Breach d baseline candidate t ↔ BreachRising d baseline candidate t := by
  -- The code asks whether the candidate is not zero, and the rule whether it is positive.
  have hmoves : candidate ≠ 0 ↔ 0 < candidate := h.lt_iff_ne'.symm
  cases d <;> simp [Breach, BreachRising, hmoves]

/-- A result of one metric without evidence. -/
def loneResult (metric : String) (h : PyText.isBlank metric = false) (baseline candidate : ℚ) :
    EvaluationResult where
  experimentId := offlineId 0
  metrics := [⟨metric, baseline, candidate, h⟩]
  evidence := []
  id := offlineId 0
  createdAt := 0
  metrics_nodup := List.nodup_singleton _
  evidence_nodup := List.nodup_nil

/-- A cost that rises from nothing blocks. -/
theorem gate_reports_every_breach_rising :
    ∃ report reasons advisories,
      evaluateGate (loneResult "cost_usd.total" (by decide) 0 1)
        (some (offlinePolicy "cost_usd.total" (by decide) 0 (le_refl 0))) = .ok report ∧
      ReportsBreaches Breach (loneResult "cost_usd.total" (by decide) 0 1)
        (offlinePolicy "cost_usd.total" (by decide) 0 (le_refl 0)) report reasons advisories :=
  gate_reports_every_breach (by simp [HasDirections, loneResult, direction, lowerIsBetterMetrics])
    (by simp [OverMetrics, loneResult, offlinePolicy, Dict.keys])

/-- A cost of `-1` does not rise from the zero baseline, and it leaves a line. -/
theorem fall_below_zero_baseline_leaves_line :
    HasDirections (loneResult "cost_usd.total" (by decide) 0 (-1)) ∧
    OverMetrics (offlinePolicy "cost_usd.total" (by decide) 0 (le_refl 0))
      (loneResult "cost_usd.total" (by decide) 0 (-1)) ∧
    ∀ report reasons advisories,
      evaluateGate (loneResult "cost_usd.total" (by decide) 0 (-1))
        (some (offlinePolicy "cost_usd.total" (by decide) 0 (le_refl 0))) = .ok report →
      ¬ReportsBreaches BreachRising (loneResult "cost_usd.total" (by decide) 0 (-1))
        (offlinePolicy "cost_usd.total" (by decide) 0 (le_refl 0)) report reasons advisories := by
  refine ⟨by simp [HasDirections, loneResult, direction, lowerIsBetterMetrics],
    by simp [OverMetrics, loneResult, offlinePolicy, Dict.keys], ?_⟩
  intro report reasons advisories hgate hreports
  have hreasons : report.reasons.length = 1 := by
    have hrun : (evaluateGate (loneResult "cost_usd.total" (by decide) 0 (-1))
        (some (offlinePolicy "cost_usd.total" (by decide) 0 (le_refl 0)))).map
          (fun report => report.reasons.length) = .ok 1 := by
      with_unfolding_all rfl
    rw [hgate] at hrun
    exact Except.ok.inj hrun
  -- The one reason would have to belong to a metric that breaches.
  rw [hreports.reasons_lines, List.length_map, List.length_eq_one_iff] at hreasons
  obtain ⟨l, rfl⟩ := hreasons
  obtain ⟨hmem, ⟨t, _, hbreach⟩, _⟩ := (hreports.mem_reasons l.1).mp (by simp)
  rw [show l.1 = ⟨"cost_usd.total", 0, -1, by decide⟩ by simpa [loneResult] using hmem] at hbreach
  have hdirection : directionOf "cost_usd.total" = .lowerIsBetter := by decide
  simp only [hdirection, BreachRising] at hbreach
  norm_num at hbreach

end EvalOps
