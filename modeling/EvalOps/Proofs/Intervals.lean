import EvalOps.Gate
import EvalOps.Proofs.Evidence
import EvalOps.Proofs.Returns
import Mathlib.Algebra.BigOperators.Ring.List
import Mathlib.Data.List.MinMax
import Mathlib.Data.List.Zip

/-!
# `EvalOps.Proofs.Intervals`: the bootstrap interval as an interval

Three properties of `paired_bootstrap_ci` on two series of one length, for every generator of
indices.

* `pairedBootstrapCi_sound`: the interval lies between the least and the greatest difference, its
  ends are in order, and the shortcut for equal differences returns what the resampling returns.
* `pairedBootstrapCi_swap`: when the two roles are exchanged, the interval is mirrored at zero.
* `pairedBootstrapCi_nested`: a higher confidence level has a wider interval, so it confirms no
  regression that a lower level does not confirm.
-/

set_option autoImplicit false

namespace EvalOps

variable {rt : Runtime} {options : BootstrapOptions}

/-- Two aligned series that are long enough for an interval. -/
structure Comparable (baseline candidate : List ℚ) : Prop where
  length_eq : baseline.length = candidate.length
  enough : minPairsForCi ≤ baseline.length

namespace Comparable

variable {baseline candidate : List ℚ}

theorem length_differences (h : Comparable baseline candidate) :
    minPairsForCi ≤ (differences baseline candidate).length := by
  rw [EvalOps.length_differences h.length_eq]
  exact h.enough

theorem differences_ne_nil (h : Comparable baseline candidate) :
    differences baseline candidate ≠ [] := by
  have hlen := h.length_differences
  intro hnil
  rw [hnil] at hlen
  exact absurd hlen (by decide)

/-- The roles can be exchanged. -/
theorem symm (h : Comparable baseline candidate) : Comparable candidate baseline where
  length_eq := h.length_eq.symm
  enough := h.length_eq ▸ h.enough

/-- The interval of comparable series. -/
theorem pairedBootstrapCi_eq (h : Comparable baseline candidate) (rt : Runtime)
    (hv : options.Valid) :
    pairedBootstrapCi rt options baseline candidate
      = .ok (some (bootstrapBound rt options (differences baseline candidate) options.tail),
          some (bootstrapBound rt options (differences baseline candidate)
            (1 - options.tail))) := by
  rw [pairedBootstrapCi_eq_ok hv h.length_eq, bootstrapCi, if_neg]
  have hlen := h.length_differences
  omega

end Comparable

/-! ### Soundness -/

/-- The bounds of a series lie between any bounds of its entries. -/
theorem bootstrapBound_mem (rt : Runtime) {diffs : List ℚ} (hv : options.Valid)
    (hne : diffs ≠ []) {a b q : ℚ} (h : ∀ d ∈ diffs, a ≤ d ∧ d ≤ b) (h0 : 0 ≤ q) (h1 : q ≤ 1) :
    a ≤ bootstrapBound rt options diffs q ∧ bootstrapBound rt options diffs q ≤ b := by
  have hpos : 0 < diffs.length := List.length_pos_iff.mpr hne
  -- A constant series of the same length lies below, or above, and its bound is the constant.
  have hconst : ∀ d, bootstrapBound rt options (List.replicate diffs.length d) q = d := fun d =>
    bootstrapBound_of_estimates hv h0 h1 (estimate_replicate options.seed hpos d)
  have hlow : List.Forall₂ (· ≤ ·) (List.replicate diffs.length a) diffs := by
    rw [List.forall₂_iff_get]
    refine ⟨List.length_replicate, fun i hi hi' => ?_⟩
    simpa using (h _ (List.get_mem diffs ⟨i, hi'⟩)).1
  have hhigh : List.Forall₂ (· ≤ ·) diffs (List.replicate diffs.length b) := by
    rw [List.forall₂_iff_get]
    refine ⟨List.length_replicate.symm, fun i hi hi' => ?_⟩
    simpa using (h _ (List.get_mem diffs ⟨i, hi⟩)).2
  constructor
  · calc a = bootstrapBound rt options (List.replicate diffs.length a) q := (hconst a).symm
      _ ≤ bootstrapBound rt options diffs q := bootstrapBound_mono rt options hlow q
  · calc bootstrapBound rt options diffs q
        ≤ bootstrapBound rt options (List.replicate diffs.length b) q :=
          bootstrapBound_mono rt options hhigh q
      _ = b := hconst b

/-- A bound lies between the least and the greatest difference. -/
theorem minimum_le_bootstrapBound_le_maximum (rt : Runtime) {diffs : List ℚ}
    (hv : options.Valid) (hne : diffs ≠ []) {q : ℚ} (h0 : 0 ≤ q) (h1 : q ≤ 1) :
    diffs.minimum ≤ (bootstrapBound rt options diffs q : WithTop ℚ) ∧
      (bootstrapBound rt options diffs q : WithBot ℚ) ≤ diffs.maximum := by
  have hleast : ∀ d ∈ diffs, diffs.minimum_of_length_pos (List.length_pos_iff.mpr hne) ≤ d :=
    fun d hd => List.minimum_of_length_pos_le_of_mem hd _
  have hgreatest : ∀ d ∈ diffs, d ≤ diffs.maximum_of_length_pos (List.length_pos_iff.mpr hne) :=
    fun d hd => List.le_maximum_of_length_pos_of_mem hd _
  obtain ⟨hlow, hhigh⟩ := bootstrapBound_mem rt hv hne
    (fun d hd => ⟨hleast d hd, hgreatest d hd⟩) h0 h1
  constructor
  · rw [← List.coe_minimum_of_length_pos (List.length_pos_iff.mpr hne)]
    exact WithTop.coe_le_coe.mpr hlow
  · rw [← List.coe_maximum_of_length_pos (List.length_pos_iff.mpr hne)]
    exact WithBot.coe_le_coe.mpr hhigh

/-- What makes an interval of two comparable series sound. -/
structure IntervalSound (rt : Runtime) (options : BootstrapOptions) (baseline candidate : List ℚ)
    (low high : ℚ) : Prop where
  returned : pairedBootstrapCi rt options baseline candidate = .ok (some low, some high)
  minimum_le : (differences baseline candidate).minimum ≤ (low : WithTop ℚ)
  low_le_high : low ≤ high
  le_maximum : (high : WithBot ℚ) ≤ (differences baseline candidate).maximum
  percentile_in_range : ∀ ordered : List ℚ, ordered ≠ [] → ∀ q, 0 ≤ q → q ≤ 1 →
    ∃ v, percentile ordered q = .ok v
  shortcut_exact : pairedBootstrapCi rt options baseline candidate
    = bootstrapInterval rt options (differences baseline candidate)
  never_inverted : ∀ metric kind dropped,
    metricEvidence rt options metric kind baseline candidate dropped
      ≠ .error (.domainValidation "MetricEvidence CI is inverted")
  evidence : ∀ metric kind dropped ev,
    metricEvidence rt options metric kind baseline candidate dropped = .ok ev →
      ev.ciLow = some low ∧ ev.ciHigh = some high ∧
        (ev.ciExcludesZero = true ↔ 0 ∉ Set.Icc low high)

/-- A metric without a name fails the first check of the evidence. -/
theorem metricEvidence_of_blank {baseline candidate : List ℚ} (hv : options.Valid)
    (hlen : baseline.length = candidate.length) {metric : String}
    (hblank : PyText.isBlank metric = true) (kind : MetricKind) (dropped : ℕ) :
    metricEvidence rt options metric kind baseline candidate dropped
      = .error (.domainValidation "MetricEvidence.metric must be a non-empty string") := by
  unfold metricEvidence
  simp only [hlen, ne_eq, not_true_eq_false, if_false, pairedBootstrapCi_eq_ok hv hlen,
    ExceptRules.ok_bind]
  apply MetricEvidence.make_eq_error
  simp [MetricEvidenceData.postInit, hblank]

/-- The evidence of a named metric carries the interval of the differences. -/
theorem metricEvidence_of_named (rt : Runtime) {baseline candidate : List ℚ}
    (hv : options.Valid) (hlen : baseline.length = candidate.length) {metric : String}
    (hnamed : PyText.isBlank metric = false) (kind : MetricKind) (dropped : ℕ) :
    ∃ ev, metricEvidence rt options metric kind baseline candidate dropped = .ok ev ∧
      (ev.ciLow, ev.ciHigh) = bootstrapCi rt options (differences baseline candidate) ∧
      ev.delta = mean candidate - mean baseline ∧ ev.baseline.mean = mean baseline ∧
      ev.ciExcludesZero = (!decide ((differences baseline candidate).length < minPairsForCi) &&
        excludesZero (bootstrapCi rt options (differences baseline candidate))) := by
  let s : PairedSeries :=
    { metric, kind, baseline, candidate, matchedPairs := 0, comparablePairs := 0,
      droppedProviderFailures := dropped, unmatchedRuns := 0 }
  have hs : s.WellFormed := ⟨hnamed, hlen⟩
  exact ⟨_, metricEvidence_eq_ok hv hs, rfl, by simp [evidenceData, s],
    by simp [evidenceData, s], rfl⟩

/-- Evidence is returned for named metrics alone. -/
theorem named_of_metricEvidence_eq_ok {baseline candidate : List ℚ} (hv : options.Valid)
    (hlen : baseline.length = candidate.length) {metric : String} {kind : MetricKind}
    {dropped : ℕ} {ev : MetricEvidence}
    (h : metricEvidence rt options metric kind baseline candidate dropped = .ok ev) :
    PyText.isBlank metric = false := by
  cases hblank : PyText.isBlank metric with
  | false => rfl
  | true =>
      rw [metricEvidence_of_blank hv hlen hblank] at h
      exact nomatch h

/-- The interval of two series of at least three observations is sound, for every confidence
level, every number of resamples and every stream of indices. -/
theorem pairedBootstrapCi_sound {baseline candidate : List ℚ} (hv : options.Valid)
    (h : Comparable baseline candidate) :
    ∃ low high, IntervalSound rt options baseline candidate low high := by
  have htail := hv.tail_pos
  have htail' := hv.tail_le
  have hreturned := h.pairedBootstrapCi_eq rt hv
  have hci : bootstrapCi rt options (differences baseline candidate)
      = (some (bootstrapBound rt options (differences baseline candidate) options.tail),
          some (bootstrapBound rt options (differences baseline candidate)
            (1 - options.tail))) := by
    rw [pairedBootstrapCi_eq_ok hv h.length_eq] at hreturned
    exact Except.ok.inj hreturned
  have hlow := minimum_le_bootstrapBound_le_maximum rt hv h.differences_ne_nil
    htail.le (by linarith)
  have hhigh := minimum_le_bootstrapBound_le_maximum rt hv h.differences_ne_nil
    (q := 1 - options.tail) (by linarith) (by linarith)
  refine ⟨bootstrapBound rt options (differences baseline candidate) options.tail,
    bootstrapBound rt options (differences baseline candidate) (1 - options.tail), ?_⟩
  constructor
  case returned => exact hreturned
  case minimum_le => exact hlow.1
  case low_le_high => exact bootstrapBound_le_of_le hv _ htail.le htail' (by linarith)
  case le_maximum => exact hhigh.2
  case percentile_in_range =>
    intro ordered hne q h0 h1
    exact ⟨_, percentile_eq_ok hne h0 h1⟩
  case shortcut_exact =>
    rw [hreturned, bootstrapInterval_eq_ok hv h.differences_ne_nil]
  case never_inverted =>
    intro metric kind dropped
    cases hblank : PyText.isBlank metric with
    | true =>
        rw [metricEvidence_of_blank hv h.length_eq hblank]
        simp [PyError.domainValidation]
    | false =>
        obtain ⟨ev, hok, _⟩ :=
          metricEvidence_of_named rt hv h.length_eq hblank kind dropped
        rw [hok]
        simp
  case evidence =>
    intro metric kind dropped ev hev
    have hnamed := named_of_metricEvidence_eq_ok hv h.length_eq hev
    obtain ⟨ev', hok, hends, _, _, hexcludes⟩ :=
      metricEvidence_of_named rt hv h.length_eq hnamed kind dropped
    rw [hok] at hev
    cases hev
    rw [hci] at hends hexcludes
    have henough : ¬(differences baseline candidate).length < minPairsForCi :=
      not_lt.mpr h.length_differences
    obtain ⟨hl, hh⟩ := Prod.mk.inj hends
    refine ⟨hl, hh, ?_⟩
    rw [hexcludes]
    simp only [excludesZero, henough, decide_false, Bool.not_false, Bool.true_and,
      decide_eq_true_eq, Set.mem_Icc, not_and_or, not_le]

/-- Three observations of each role. -/
theorem comparable_three : Comparable [0, 0, 0] [1, 2, 3] := ⟨rfl, le_refl 3⟩

/-- The defaults at every seed make a sound interval of three differences. -/
theorem pairedBootstrapCi_sound_three :
    ∃ low high, IntervalSound (offlineRuntime 0) { BootstrapOptions.default with seed := 1 }
      [0, 0, 0] [1, 2, 3] low high :=
  pairedBootstrapCi_sound (default_valid 1) comparable_three

/-! ### Exchanged roles -/

theorem differences_swap (baseline candidate : List ℚ) :
    differences candidate baseline = (differences baseline candidate).map (-1 * ·) := by
  unfold differences
  rw [List.map_map, ← List.zip_swap, List.map_map]
  apply List.map_congr_left
  rintro ⟨b, c⟩ _
  show b - c = -1 * (c - b)
  ring

/-- Every estimate of the opposite differences is the opposite estimate. -/
theorem estimate_neg (seed : ℤ) (diffs : List ℚ) (r : ℕ) :
    estimate rt seed (diffs.map (-1 * ·)) r = -1 * estimate rt seed diffs r := by
  have hentry : ∀ i, (diffs.map (-1 * ·)).getD i 0 = -1 * diffs.getD i 0 := by
    intro i
    have h := Interpolation.entry_map_mul (-1) diffs (i : ℤ)
    simpa only [Interpolation.entry, Int.toNat_natCast] using h
  unfold estimate
  rw [List.length_map, ← mul_div_assoc, ← List.sum_map_mul_left]
  simp only [hentry]

/-- The estimates of the opposite differences are the opposite estimates, from the other end. -/
theorem orderedEstimates_neg (diffs : List ℚ) :
    orderedEstimates rt options (diffs.map (-1 * ·))
      = ((orderedEstimates rt options diffs).map (-1 * ·)).reverse := by
  have hantitone : Antitone fun x : ℚ => -1 * x := fun a b hab => by
    show -1 * b ≤ -1 * a
    linarith
  unfold orderedEstimates
  rw [← Sorting.sorted_map_antitone hantitone, List.map_map]
  congr 1
  exact List.map_congr_left fun r _ => estimate_neg options.seed diffs r

/-- A quantile of the opposite differences is the opposite of the complementary quantile. -/
theorem bootstrapBound_neg (hv : options.Valid) (diffs : List ℚ) {q : ℚ} (h0 : 0 ≤ q)
    (h1 : q ≤ 1) :
    bootstrapBound rt options (diffs.map (-1 * ·)) q
      = -bootstrapBound rt options diffs (1 - q) := by
  have hpos : 1 ≤ options.resamples.toNat := by
    have := hv.resamples_pos
    omega
  have hlen : ((orderedEstimates rt options diffs).map (-1 * ·)).length
      = options.resamples.toNat := by
    rw [List.length_map, length_orderedEstimates]
  obtain ⟨hlow, hhigh⟩ := position_in_range hpos h0 h1
  rw [hv.cast_resamples] at hlow hhigh
  have hmirror : (options.resamples : ℚ) - 1 - q * (options.resamples - 1)
      = (1 - q) * (options.resamples - 1) := by ring
  unfold bootstrapBound
  rw [orderedEstimates_neg, Interpolation.value_reverse hlow (by rw [hlen]; exact hhigh), hlen,
    hv.cast_resamples, hmirror, Interpolation.value_map_mul]
  ring

/-- The interval of the exchanged roles is the interval mirrored at zero, and so is the evidence:
an adverse change measured one way is the same change in favour measured the other way. -/
theorem pairedBootstrapCi_swap {baseline candidate : List ℚ} (hv : options.Valid)
    (h : Comparable baseline candidate) :
    ∃ low high, pairedBootstrapCi rt options baseline candidate = .ok (some low, some high) ∧
      pairedBootstrapCi rt options candidate baseline = .ok (some (-high), some (-low)) ∧
      ∀ metric kind dropped ev, metricEvidence rt options metric kind baseline candidate dropped
        = .ok ev → ∃ ev', metricEvidence rt options metric kind candidate baseline dropped
          = .ok ev' ∧ ev'.delta = -ev.delta ∧ ev'.ciLow = some (-high) ∧
            ev'.ciHigh = some (-low) := by
  have htail := hv.tail_pos
  have htail' := hv.tail_le
  have hreturned := h.pairedBootstrapCi_eq rt hv
  have hswapped := h.symm.pairedBootstrapCi_eq rt hv
  rw [differences_swap, bootstrapBound_neg hv _ htail.le (by linarith),
    bootstrapBound_neg hv _ (by linarith) (by linarith), sub_sub_cancel] at hswapped
  refine ⟨_, _, hreturned, hswapped, ?_⟩
  intro metric kind dropped ev hev
  have hnamed := named_of_metricEvidence_eq_ok hv h.length_eq hev
  obtain ⟨ev₁, hok, _, hdelta, _⟩ :=
    metricEvidence_of_named rt hv h.length_eq hnamed kind dropped
  obtain ⟨ev₂, hok', hends, hdelta', _⟩ :=
    metricEvidence_of_named rt hv h.symm.length_eq hnamed kind dropped
  rw [hok] at hev
  cases hev
  rw [pairedBootstrapCi_eq_ok hv h.symm.length_eq] at hswapped
  rw [Except.ok.inj hswapped] at hends
  obtain ⟨hl, hh⟩ := Prod.mk.inj hends
  exact ⟨ev₂, hok', by rw [hdelta, hdelta']; ring, hl, hh⟩

/-- Three differences and their opposites. -/
theorem pairedBootstrapCi_swap_three :
    ∃ low high, pairedBootstrapCi (offlineRuntime 0) { BootstrapOptions.default with seed := 1 }
        [0, 0, 0] [1, 2, 3] = .ok (some low, some high) ∧
      pairedBootstrapCi (offlineRuntime 0) { BootstrapOptions.default with seed := 1 }
        [1, 2, 3] [0, 0, 0] = .ok (some (-high), some (-low)) := by
  obtain ⟨low, high, hreturned, hswapped, _⟩ :=
    @pairedBootstrapCi_swap (offlineRuntime 0) _ _ _ (default_valid 1) comparable_three
  exact ⟨low, high, hreturned, hswapped⟩

/-! ### Nested levels -/

/-- The same call at another confidence level. -/
def BootstrapOptions.atLevel (options : BootstrapOptions) (level : ℚ) : BootstrapOptions :=
  { options with confidenceLevel := level }

/-- Of two intervals with one reference, the narrower confirms what the wider confirms. -/
theorem ciConfirmsRegression_of_nested {narrow wide : MetricEvidence}
    {low high low' high' : ℚ} (hlow : narrow.ciLow = some low) (hhigh : narrow.ciHigh = some high)
    (hlow' : wide.ciLow = some low') (hhigh' : wide.ciHigh = some high')
    (hmean : narrow.baseline.mean = wide.baseline.mean) (hl : low' ≤ low) (hh : high ≤ high')
    {direction : Direction} {threshold : Option ℚ}
    (h : ciConfirmsRegression wide direction threshold = true) :
    ciConfirmsRegression narrow direction threshold = true := by
  unfold ciConfirmsRegression at h ⊢
  rw [hlow', hhigh'] at h
  rw [hlow, hhigh]
  cases threshold with
  | none => exact h
  | some t =>
      dsimp only at h ⊢
      rw [hmean]
      -- The boundary is the same, and the end that is compared with it has moved inwards.
      cases direction with
      | higherIsBetter => exact decide_eq_true (lt_of_le_of_lt hh (of_decide_eq_true h))
      | lowerIsBetter => exact decide_eq_true (lt_of_lt_of_le (of_decide_eq_true h) hl)

/-- The interval of a lower level lies within the interval of a higher level, and the gate
confirms at the lower level every regression that it confirms at the higher. -/
theorem pairedBootstrapCi_nested {baseline candidate : List ℚ} {level level' : ℚ}
    (hpos : 0 < level) (hle : level ≤ level') (hlt : level' < 1)
    (hresamples : 1 ≤ options.resamples) (h : Comparable baseline candidate) :
    ∃ low high low' high',
      pairedBootstrapCi rt (options.atLevel level) baseline candidate
        = .ok (some low, some high) ∧
      pairedBootstrapCi rt (options.atLevel level') baseline candidate
        = .ok (some low', some high') ∧
      low' ≤ low ∧ high ≤ high' ∧
      ∀ metric kind dropped ev ev',
        metricEvidence rt (options.atLevel level) metric kind baseline candidate dropped
          = .ok ev →
        metricEvidence rt (options.atLevel level') metric kind baseline candidate dropped
          = .ok ev' →
        ∀ direction threshold, ciConfirmsRegression ev' direction threshold = true →
          ciConfirmsRegression ev direction threshold = true := by
  have hv : (options.atLevel level).Valid := ⟨hpos, hle.trans_lt hlt, hresamples⟩
  have hv' : (options.atLevel level').Valid := ⟨hpos.trans_le hle, hlt, hresamples⟩
  -- Both levels read quantiles of the same estimates, the higher one further out.
  have htail : (options.atLevel level').tail ≤ (options.atLevel level).tail := by
    show (1 - level') / 2 ≤ (1 - level) / 2
    linarith
  have htail_pos := hv'.tail_pos
  have htail_le := hv.tail_le
  have hlow : bootstrapBound rt (options.atLevel level') (differences baseline candidate)
      (options.atLevel level').tail
      ≤ bootstrapBound rt (options.atLevel level) (differences baseline candidate)
          (options.atLevel level).tail :=
    bootstrapBound_le_of_le hv _ htail_pos.le htail (by linarith)
  have hhigh : bootstrapBound rt (options.atLevel level) (differences baseline candidate)
      (1 - (options.atLevel level).tail)
      ≤ bootstrapBound rt (options.atLevel level') (differences baseline candidate)
          (1 - (options.atLevel level').tail) :=
    bootstrapBound_le_of_le hv _ (by linarith) (by linarith) (by linarith)
  have hreturned := h.pairedBootstrapCi_eq rt hv
  have hreturned' := h.pairedBootstrapCi_eq rt hv'
  refine ⟨_, _, _, _, hreturned, hreturned', hlow, hhigh, ?_⟩
  intro metric kind dropped ev ev' hev hev' direction threshold hconfirms
  have hnamed := named_of_metricEvidence_eq_ok hv h.length_eq hev
  obtain ⟨ev₁, hok, hends, _, hmean, _⟩ :=
    metricEvidence_of_named rt hv h.length_eq hnamed kind dropped
  obtain ⟨ev₂, hok', hends', _, hmean', _⟩ :=
    metricEvidence_of_named rt hv' h.length_eq hnamed kind dropped
  rw [hok] at hev
  rw [hok'] at hev'
  cases hev
  cases hev'
  rw [pairedBootstrapCi_eq_ok hv h.length_eq] at hreturned
  rw [pairedBootstrapCi_eq_ok hv' h.length_eq] at hreturned'
  rw [Except.ok.inj hreturned] at hends
  rw [Except.ok.inj hreturned'] at hends'
  obtain ⟨hl, hh⟩ := Prod.mk.inj hends
  obtain ⟨hl', hh'⟩ := Prod.mk.inj hends'
  exact ciConfirmsRegression_of_nested hl hh hl' hh' (hmean.trans hmean'.symm) hlow hhigh
    hconfirms

/-- The levels `0.5` and `0.95` on three differences. -/
theorem pairedBootstrapCi_nested_three :
    ∃ low high low' high',
      pairedBootstrapCi (offlineRuntime 0) (BootstrapOptions.default.atLevel (1 / 2))
        [0, 0, 0] [1, 2, 3] = .ok (some low, some high) ∧
      pairedBootstrapCi (offlineRuntime 0) (BootstrapOptions.default.atLevel (19 / 20))
        [0, 0, 0] [1, 2, 3] = .ok (some low', some high') ∧
      low' ≤ low ∧ high ≤ high' := by
  obtain ⟨low, high, low', high', hreturned, hreturned', hlow, hhigh, _⟩ :=
    @pairedBootstrapCi_nested (offlineRuntime 0) BootstrapOptions.default _ _ (1 / 2) (19 / 20)
      (by norm_num) (by norm_num) (by norm_num) (default_valid 0).resamples_pos comparable_three
  exact ⟨low, high, low', high', hreturned, hreturned', hlow, hhigh⟩

end EvalOps
