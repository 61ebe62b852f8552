import EvalOps.Proofs.Calibration

/-!
# `EvalOps.Proofs.Confusion`: calibration metrics are those of the confusion matrix

`compute_metrics` counts the cases with a verdict in the four cells of a confusion matrix, and
derives its rates from the cells. `Tally` says which counts and rates of a list of cases the metrics
hold. `computeMetrics_tally` shows that the metrics are built for every list, and the other results
read the tally: its rates lie in the unit interval, and its `f1` has the closed form of the cells.
-/

set_option autoImplicit false

namespace EvalOps

/-! ### Rates -/

/-- A rate, where there is one, lies in the unit interval. -/
def RateInUnit (rate : Option ℚ) : Prop := ∀ x, rate = some x → 0 ≤ x ∧ x ≤ 1

theorem ratio_inUnit {a b : ℕ} (h : a ≤ b) : RateInUnit (ratio a b) := by
  intro x hx
  unfold ratio at hx
  split_ifs at hx with hb
  cases hx
  have hpos : (0 : ℚ) < b := by exact_mod_cast Nat.pos_of_ne_zero hb
  have hle : (a : ℚ) ≤ b := by exact_mod_cast h
  constructor
  · positivity
  · rw [div_le_one hpos]
    exact hle

theorem ratio_of_pos {a b : ℕ} (h : 0 < b) : ratio a b = some ((a : ℚ) / b) :=
  if_neg h.ne'

/-- Without true positives there is no `f1`: a rate is undefined, or both are zero. -/
theorem f1Score_zero (fp fn : ℕ) : f1Score (ratio 0 (0 + fp)) (ratio 0 (0 + fn)) = none := by
  unfold ratio
  split_ifs with hp hn
  · rfl
  · rfl
  · rfl
  · show (if ((0 : ℕ) : ℚ) / ((0 + fp : ℕ) : ℚ) + ((0 : ℕ) : ℚ) / ((0 + fn : ℕ) : ℚ) = 0 then none
      else some _) = none
    rw [if_pos (by simp)]

/-- With true positives, `f1` is twice their number over what the judge and the humans pass. -/
theorem f1Score_of_pos {tp : ℕ} (h : 0 < tp) (fp fn : ℕ) :
    f1Score (ratio tp (tp + fp)) (ratio tp (tp + fn))
      = some (2 * tp / (2 * tp + fp + fn : ℚ)) := by
  have htp : (0 : ℚ) < tp := by exact_mod_cast h
  have hfp : (0 : ℚ) ≤ fp := Nat.cast_nonneg fp
  have hfn : (0 : ℚ) ≤ fn := Nat.cast_nonneg fn
  rw [ratio_of_pos (by omega : 0 < tp + fp), ratio_of_pos (by omega : 0 < tp + fn)]
  show (if _ then none else some _) = _
  push_cast
  have hsum : (tp : ℚ) / (tp + fp) + tp / (tp + fn) ≠ 0 := by positivity
  rw [if_neg hsum]
  have hp : (tp : ℚ) + fp ≠ 0 := by positivity
  have hn : (tp : ℚ) + fn ≠ 0 := by positivity
  have hd : (2 * tp + fp + fn : ℚ) ≠ 0 := by positivity
  congr 1
  rw [div_eq_div_iff hsum hd]
  field_simp
  ring

theorem f1Score_inUnit (tp fp fn : ℕ) :
    RateInUnit (f1Score (ratio tp (tp + fp)) (ratio tp (tp + fn))) := by
  intro x hx
  cases Nat.eq_zero_or_pos tp with
  | inl hzero =>
      rw [hzero, f1Score_zero] at hx
      cases hx
  | inr hpos =>
      rw [f1Score_of_pos hpos] at hx
      cases hx
      have htp : (0 : ℚ) < tp := by exact_mod_cast hpos
      have hfp : (0 : ℚ) ≤ fp := Nat.cast_nonneg fp
      have hfn : (0 : ℚ) ≤ fn := Nat.cast_nonneg fn
      constructor
      · positivity
      · rw [div_le_one (by positivity)]
        linarith

/-! ### The tally of a list of cases -/

/-- The number of cases with a verdict. -/
def scoredCount (cases : List JudgeCalibrationCase) : ℕ :=
  cases.countP fun c => c.judgePass.isSome

/-- The metrics hold the counts and the rates of these cases. -/
structure Tally (cases : List JudgeCalibrationCase) (m : JudgeCalibrationMetrics) : Prop where
  total : m.total = cases.length
  scored : m.scored = scoredCount cases
  truePositives : m.truePositives = countCells cases true true
  trueNegatives : m.trueNegatives = countCells cases false false
  falsePositives : m.falsePositives = countCells cases false true
  falseNegatives : m.falseNegatives = countCells cases true false
  agreements : m.agreements = countCells cases true true + countCells cases false false
  agreementRate : m.agreementRate =
    ratio (countCells cases true true + countCells cases false false) (scoredCount cases)
  precision : m.precision =
    ratio (countCells cases true true) (countCells cases true true + countCells cases false true)
  «recall» : m.recall =
    ratio (countCells cases true true) (countCells cases true true + countCells cases true false)
  f1 : m.f1 = f1Score m.precision m.recall

/-- A case without a verdict is in no cell. -/
theorem countCells_filter_scored (cases : List JudgeCalibrationCase) (human judge : Bool) :
    countCells (cases.filter fun c => c.judgePass.isSome) human judge
      = countCells cases human judge := by
  unfold countCells
  rw [List.countP_filter]
  apply List.countP_congr
  intro c _
  simp only [Bool.and_eq_true, decide_eq_true_eq, and_iff_left_iff_imp, and_imp]
  intro _ hjudged
  rw [hjudged]
  rfl

/-- The metrics of every list of cases are built, and tally the list. -/
theorem computeMetrics_tally (cases : List JudgeCalibrationCase) :
    ∃ m, computeMetrics cases = .ok m ∧ Tally cases m := by
  have hscored : (cases.filter fun c => c.judgePass.isSome).length = scoredCount cases :=
    (List.countP_eq_length_filter).symm
  obtain ⟨m, hm, _⟩ := computeMetrics_isOk cases
  refine ⟨m, hm, ?_⟩
  unfold computeMetrics JudgeCalibrationMetrics.init at hm
  simp only [countCells_filter_scored, hscored] at hm
  have hle : scoredCount cases ≤ cases.length := List.countP_le_length
  have hfailures : (cases.length : ℤ) - scoredCount cases
      = ((cases.length - scoredCount cases : ℕ) : ℤ) := (Nat.cast_sub hle).symm
  simp only [requireCount, hfailures, ← Nat.cast_add, requireNat_natCast,
    ExceptRules.ok_bind] at hm
  split_ifs at hm
  cases hm
  exact ⟨rfl, rfl, rfl, rfl, rfl, rfl, rfl, rfl, rfl, rfl, rfl⟩

/-- Lists with the same counts have the same metrics. -/
theorem computeMetrics_congr {cases cases' : List JudgeCalibrationCase}
    (hlength : cases.length = cases'.length) (hscored : scoredCount cases = scoredCount cases')
    (hcells : ∀ human judge, countCells cases human judge = countCells cases' human judge) :
    computeMetrics cases = computeMetrics cases' := by
  have hcount : ∀ cs : List JudgeCalibrationCase,
      (cs.filter fun c => c.judgePass.isSome).length = scoredCount cs := fun _ =>
    (List.countP_eq_length_filter).symm
  unfold computeMetrics
  simp only [countCells_filter_scored, hcount, hlength, hscored, hcells]

theorem computeMetrics_perm {cases reordered : List JudgeCalibrationCase}
    (h : reordered.Perm cases) : computeMetrics reordered = computeMetrics cases :=
  computeMetrics_congr h.length_eq (h.countP_eq _) fun _ _ => h.countP_eq _

namespace Tally

variable {cases : List JudgeCalibrationCase} {m : JudgeCalibrationMetrics}

theorem agreements_le (h : Tally cases m) :
    countCells cases true true + countCells cases false false ≤ scoredCount cases := by
  have hagree := m.confusion_sum
  rw [h.truePositives, h.trueNegatives, h.falsePositives, h.falseNegatives, h.scored] at hagree
  omega

theorem rates_inUnit (h : Tally cases m) : RateInUnit m.agreementRate ∧ RateInUnit m.precision ∧
    RateInUnit m.recall ∧ RateInUnit m.f1 := by
  refine ⟨?_, ?_, ?_, ?_⟩
  · rw [h.agreementRate]
    exact ratio_inUnit h.agreements_le
  · rw [h.precision]
    exact ratio_inUnit (Nat.le_add_right _ _)
  · rw [h.recall]
    exact ratio_inUnit (Nat.le_add_right _ _)
  · rw [h.f1, h.precision, h.recall]
    exact f1Score_inUnit _ _ _

/-- `f1` is defined exactly with true positives. -/
theorem f1_isSome_iff (h : Tally cases m) : m.f1.isSome ↔ 0 < m.truePositives := by
  rw [h.f1, h.precision, h.recall, h.truePositives]
  cases Nat.eq_zero_or_pos (countCells cases true true) with
  | inl hzero =>
      rw [hzero, f1Score_zero]
      simp
  | inr hpos =>
      rw [f1Score_of_pos hpos]
      simp [hpos]

theorem f1_of_pos (h : Tally cases m) (hpos : 0 < m.truePositives) :
    m.f1 = some (2 * m.truePositives /
      (2 * m.truePositives + m.falsePositives + m.falseNegatives : ℚ)) := by
  have hcells : 0 < countCells cases true true := by
    rw [h.truePositives] at hpos
    exact_mod_cast hpos
  rw [h.f1, h.precision, h.recall, f1Score_of_pos hcells, h.truePositives, h.falsePositives,
    h.falseNegatives]
  push_cast
  rfl

end Tally

/-! ### A case on which the judge failed -/

/-- The metrics differ by one failure. -/
structure OneMoreFailure (m m' : JudgeCalibrationMetrics) : Prop where
  total : m'.total = m.total + 1
  failures : m'.failures = m.failures + 1
  scored : m'.scored = m.scored
  agreements : m'.agreements = m.agreements
  agreementRate : m'.agreementRate = m.agreementRate
  truePositives : m'.truePositives = m.truePositives
  trueNegatives : m'.trueNegatives = m.trueNegatives
  falsePositives : m'.falsePositives = m.falsePositives
  falseNegatives : m'.falseNegatives = m.falseNegatives
  precision : m'.precision = m.precision
  «recall» : m'.recall = m.recall
  f1 : m'.f1 = m.f1

/-- A case without a verdict, in front of the others, is one more failure. -/
theorem Tally.cons_failed {cases : List JudgeCalibrationCase} {m m' : JudgeCalibrationMetrics}
    {failed : JudgeCalibrationCase} (hfailed : failed.judgePass = none) (h : Tally cases m)
    (h' : Tally (failed :: cases) m') : OneMoreFailure m m' := by
  have hscored : scoredCount (failed :: cases) = scoredCount cases := by
    unfold scoredCount
    rw [List.countP_cons_of_neg (by simp [hfailed])]
  have hcells : ∀ human judge,
      countCells (failed :: cases) human judge = countCells cases human judge := by
    intro human judge
    rw [countCells_cons, hfailed, if_neg (by simp)]
    rfl
  obtain ⟨total, scored, tp, tn, fp, fn, agreements, agreementRate, precision, «recall», f1⟩ := h'
  simp only [hscored, hcells, List.length_cons] at total scored tp tn fp fn agreements
  simp only [hscored, hcells] at agreementRate precision «recall»
  have htotal : m'.total = m.total + 1 := total.trans (by rw [h.total])
  have hsame : m'.scored = m.scored := scored.trans h.scored.symm
  have hfailures : m'.failures = m.failures + 1 := by
    have h1 := m.scored_add_failures
    have h2 := m'.scored_add_failures
    omega
  have hprecision : m'.precision = m.precision := precision.trans h.precision.symm
  have hrecall : m'.recall = m.recall := «recall».trans h.recall.symm
  exact
    { total := htotal
      failures := hfailures
      scored := hsame
      agreements := agreements.trans h.agreements.symm
      agreementRate := agreementRate.trans h.agreementRate.symm
      truePositives := tp.trans h.truePositives.symm
      trueNegatives := tn.trans h.trueNegatives.symm
      falsePositives := fp.trans h.falsePositives.symm
      falseNegatives := fn.trans h.falseNegatives.symm
      precision := hprecision
      «recall» := hrecall
      f1 := by rw [f1, hprecision, hrecall, ← h.f1] }

/-- For every list of cases the metrics are those of its confusion matrix: they are built, their
counts add up, their rates lie in the unit interval, `f1` is defined exactly with true positives
and has the closed form of the cells, the order of the cases does not matter, and a case on which
the judge failed adds to the total and to the failures alone. -/
theorem metrics_are_confusion_matrix_metrics (cases : List JudgeCalibrationCase) :
    ∃ m, computeMetrics cases = .ok m ∧
      m.total = cases.length ∧ m.total = m.scored + m.failures ∧
      m.truePositives = countCells cases true true ∧
      m.trueNegatives = countCells cases false false ∧
      m.falsePositives = countCells cases false true ∧
      m.falseNegatives = countCells cases true false ∧
      m.truePositives + m.trueNegatives + m.falsePositives + m.falseNegatives = m.scored ∧
      m.agreements = m.truePositives + m.trueNegatives ∧
      (∀ reordered : List JudgeCalibrationCase, reordered.Perm cases →
        computeMetrics reordered = .ok m) ∧
      (∀ failed : JudgeCalibrationCase, failed.judgePass = none →
        ∀ before after, cases = before ++ after →
          ∃ m', computeMetrics (before ++ failed :: after) = .ok m' ∧ OneMoreFailure m m') ∧
      (RateInUnit m.agreementRate ∧ RateInUnit m.precision ∧ RateInUnit m.recall ∧
        RateInUnit m.f1) ∧
      (m.f1.isSome ↔ 0 < m.truePositives) ∧
      (0 < m.truePositives → m.f1 = some (2 * m.truePositives /
        (2 * m.truePositives + m.falsePositives + m.falseNegatives : ℚ))) := by
  obtain ⟨m, hm, htally⟩ := computeMetrics_tally cases
  have hagreements : (m.agreements : ℤ) = m.truePositives + m.trueNegatives := by
    rw [htally.agreements, htally.truePositives, htally.trueNegatives]
    push_cast
    rfl
  refine ⟨m, hm, htally.total, m.scored_add_failures.symm, htally.truePositives,
    htally.trueNegatives, htally.falsePositives, htally.falseNegatives, m.confusion_sum,
    hagreements, ?_, ?_, htally.rates_inUnit, htally.f1_isSome_iff, htally.f1_of_pos⟩
  · intro reordered hperm
    rw [computeMetrics_perm hperm, hm]
  · rintro failed hfailed before after rfl
    -- The place of the failed case does not matter, so it may stand in front.
    obtain ⟨m', hm', htally'⟩ := computeMetrics_tally (failed :: (before ++ after))
    refine ⟨m', ?_, htally.cons_failed hfailed htally'⟩
    rw [computeMetrics_perm List.perm_middle, hm']

end EvalOps
