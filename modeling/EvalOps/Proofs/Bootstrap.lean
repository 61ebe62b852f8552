import EvalOps.Stats
import Mathlib.Algebra.Order.BigOperators.Group.List

/-!
# `EvalOps.Proofs.Bootstrap`: the bootstrap interval

`pairedBootstrapCi_eq_ok` is the principal equation: on two series of one length the interval is
`bootstrapCi` of their differences, a function without exceptions and without the shortcut for
equal differences. The shortcut returns what the resampling returns.

* `bootstrapBound_le_of_le`: the two ends are in order.
* `bootstrapBound_mono`: both ends are monotone in the differences.
-/

set_option autoImplicit false

namespace EvalOps

/-- The options that `metric_evidence` accepts and that leave at least one resample. -/
structure BootstrapOptions.Valid (options : BootstrapOptions) : Prop where
  confidence_pos : 0 < options.confidenceLevel
  confidence_lt_one : options.confidenceLevel < 1
  resamples_pos : 1 ≤ options.resamples

/-- The defaults are valid, for every seed. -/
theorem default_valid (seed : ℤ) :
    BootstrapOptions.Valid { BootstrapOptions.default with seed } where
  confidence_pos := by norm_num [BootstrapOptions.default]
  confidence_lt_one := by norm_num [BootstrapOptions.default]
  resamples_pos := by norm_num [BootstrapOptions.default]

/-- The mean of the `r`-th resample. -/
def estimate (rt : Runtime) (seed : ℤ) (diffs : List ℚ) (r : ℕ) : ℚ :=
  ((List.range diffs.length).map fun j =>
    diffs.getD (rt.randrange seed diffs.length (r * diffs.length + j)) 0).sum / diffs.length

/-- The estimates of all resamples, ordered. -/
def orderedEstimates (rt : Runtime) (options : BootstrapOptions) (diffs : List ℚ) : List ℚ :=
  Sorting.sorted ((List.range options.resamples.toNat).map (estimate rt options.seed diffs))

/-- The `q`-quantile of the estimates. -/
def bootstrapBound (rt : Runtime) (options : BootstrapOptions) (diffs : List ℚ) (q : ℚ) : ℚ :=
  Interpolation.value (orderedEstimates rt options diffs) (q * ((options.resamples : ℚ) - 1))

/-- `tail`: the probability left out on each side of the interval. -/
def BootstrapOptions.tail (options : BootstrapOptions) : ℚ := (1 - options.confidenceLevel) / 2

/-- The interval of the differences, absent when there are too few. -/
def bootstrapCi (rt : Runtime) (options : BootstrapOptions) (diffs : List ℚ) :
    Option ℚ × Option ℚ :=
  if diffs.length < minPairsForCi then (none, none)
  else
    (some (bootstrapBound rt options diffs options.tail),
      some (bootstrapBound rt options diffs (1 - options.tail)))

variable {rt : Runtime} {options : BootstrapOptions}

theorem BootstrapOptions.Valid.tail_pos (h : options.Valid) : 0 < options.tail := by
  have := h.confidence_lt_one
  unfold BootstrapOptions.tail
  linarith

theorem BootstrapOptions.Valid.tail_le (h : options.Valid) : options.tail ≤ 1 - options.tail := by
  have := h.confidence_pos
  unfold BootstrapOptions.tail
  linarith

theorem BootstrapOptions.Valid.cast_resamples (h : options.Valid) :
    ((options.resamples.toNat : ℕ) : ℚ) = options.resamples := by
  have hnat : ((options.resamples.toNat : ℕ) : ℤ) = options.resamples :=
    Int.toNat_of_nonneg (by have := h.resamples_pos; omega)
  exact_mod_cast congrArg (Int.cast (R := ℚ)) hnat

theorem length_orderedEstimates (diffs : List ℚ) :
    (orderedEstimates rt options diffs).length = options.resamples.toNat := by
  simp [orderedEstimates]

/-! ### The code's resampling -/

/-- A subscript in range is the entry. -/
theorem pyIndex_eq_getD {xs : List ℚ} {i : ℤ} (h0 : 0 ≤ i) (hi : i < xs.length) :
    pyIndex xs i = .ok (xs.getD i.toNat 0) := by
  have hlt : i.toNat < xs.length := by omega
  rw [pyIndex_of_lt h0 hi, List.getD_eq_getElem _ _ hlt, List.get_eq_getElem]

/-- One resample returns its estimate. -/
theorem resample_eq_ok (seed : ℤ) {diffs : List ℚ} (hne : diffs ≠ []) (r : ℕ) :
    resample rt seed diffs r = .ok (estimate rt seed diffs r) := by
  have hpos : 0 < diffs.length := List.length_pos_iff.mpr hne
  unfold resample estimate
  dsimp only
  rw [ExceptRules.foldlM_eq_ok (g := fun total j =>
    total + diffs.getD (rt.randrange seed diffs.length (r * diffs.length + j)) 0)]
  · rw [ExceptRules.ok_bind, ExceptRules.pure_eq_ok, ← List.foldl_map (g := (· + ·)),
      ← List.sum_eq_foldl]
  · intro total j _
    have hlt := rt.randrange_lt seed diffs.length (r * diffs.length + j) hpos
    rw [pyIndex_eq_getD (by omega) (by exact_mod_cast hlt)]
    simp

/-- A quantile position lies within the list. -/
theorem position_in_range {n : ℕ} {q : ℚ} (hn : 1 ≤ n) (h0 : 0 ≤ q) (h1 : q ≤ 1) :
    0 ≤ q * ((n : ℚ) - 1) ∧ ⌈q * ((n : ℚ) - 1)⌉ < (n : ℤ) := by
  have hcast : (1 : ℚ) ≤ n := by exact_mod_cast hn
  constructor
  · exact mul_nonneg h0 (by linarith)
  · have hle : q * ((n : ℚ) - 1) ≤ ((n - 1 : ℤ) : ℚ) := by
      push_cast
      nlinarith
    have := Int.ceil_le.mpr hle
    omega

/-- `_percentile` is interpolation. -/
theorem percentile_eq_ok {ordered : List ℚ} {q : ℚ} (hne : ordered ≠ []) (h0 : 0 ≤ q)
    (h1 : q ≤ 1) :
    percentile ordered q
      = .ok (Interpolation.value ordered (q * ((ordered.length : ℚ) - 1))) := by
  have hlen : 1 ≤ ordered.length := List.length_pos_iff.mpr hne
  obtain ⟨hpos, hceil⟩ := position_in_range hlen h0 h1
  have hfloor : 0 ≤ ⌊q * ((ordered.length : ℚ) - 1)⌋ := Int.floor_nonneg.mpr hpos
  have hle := Int.floor_le_ceil (q * ((ordered.length : ℚ) - 1))
  unfold percentile
  split
  · -- a single estimate
    rename_i hone
    rw [pyIndex_eq_getD (le_refl 0) (by omega)]
    simp [Interpolation.value, Interpolation.entry, hone]
  · dsimp only
    split
    · -- the position is a whole number
      rename_i heq
      rw [pyIndex_eq_getD hfloor (by omega)]
      simp [Interpolation.value, Interpolation.entry, heq]
    · rw [pyIndex_eq_getD hfloor (by omega), pyIndex_eq_getD (by omega) hceil]
      rfl

/-- The resampling returns the two bounds. -/
theorem bootstrapInterval_eq_ok (hv : options.Valid) {diffs : List ℚ} (hne : diffs ≠ []) :
    bootstrapInterval rt options diffs
      = .ok (some (bootstrapBound rt options diffs options.tail),
          some (bootstrapBound rt options diffs (1 - options.tail))) := by
  have hlen : (orderedEstimates rt options diffs).length = options.resamples.toNat :=
    length_orderedEstimates diffs
  have hestimates : orderedEstimates rt options diffs ≠ [] := by
    rw [← List.length_pos_iff, hlen]
    have := hv.resamples_pos
    omega
  have htail := hv.tail_pos
  have htail' := hv.tail_le
  have hbound : ∀ q, 0 ≤ q → q ≤ 1 → percentile (orderedEstimates rt options diffs) q
      = .ok (bootstrapBound rt options diffs q) := by
    intro q h0 h1
    rw [percentile_eq_ok hestimates h0 h1, hlen, hv.cast_resamples]
    rfl
  unfold bootstrapInterval
  rw [ExceptRules.mapM_eq_ok_map fun r _ => resample_eq_ok options.seed hne r,
    ExceptRules.ok_bind]
  -- The code sorts the estimates that it has just returned.
  change (do
    let low ← percentile (orderedEstimates rt options diffs) options.tail
    let high ← percentile (orderedEstimates rt options diffs) (1 - options.tail)
    pure (some low, some high)) = _
  rw [hbound _ htail.le (by linarith), hbound _ (by linarith) (by linarith)]
  rfl

/-! ### Properties of the interval -/

/-- Every estimate of equal differences is their common value. -/
theorem estimate_replicate (seed : ℤ) {n : ℕ} (hn : 0 < n) (d : ℚ) (r : ℕ) :
    estimate rt seed (List.replicate n d) r = d := by
  -- Whatever is drawn, the entry is `d`.
  have hentry : ∀ j ∈ List.range n,
      (List.replicate n d).getD (rt.randrange seed n (r * n + j)) 0 = d := by
    intro j _
    have hlt := rt.randrange_lt seed n (r * n + j) hn
    rw [List.getD_eq_getElem _ _ (by simpa using hlt), List.getElem_replicate]
  have hcast : (n : ℚ) ≠ 0 := by exact_mod_cast hn.ne'
  unfold estimate
  rw [List.length_replicate, List.map_congr_left hentry, List.map_const', List.sum_replicate,
    List.length_range, nsmul_eq_mul, mul_div_cancel_left₀ d hcast]

/-- Estimates that are all equal have their common value as every bound. -/
theorem bootstrapBound_of_estimates (hv : options.Valid) {diffs : List ℚ} {d q : ℚ}
    (h0 : 0 ≤ q) (h1 : q ≤ 1) (h : ∀ r, estimate rt options.seed diffs r = d) :
    bootstrapBound rt options diffs q = d := by
  have hpos : 1 ≤ options.resamples.toNat := by
    have := hv.resamples_pos
    omega
  have hlist : orderedEstimates rt options diffs
      = List.replicate options.resamples.toNat d := by
    unfold orderedEstimates
    rw [List.map_congr_left fun r _ => h r, List.map_const', List.length_range]
    exact Sorting.sorted_of_pairwise (List.pairwise_replicate_of_refl (R := (· ≤ ·)))
  obtain ⟨hlow, hhigh⟩ := position_in_range hpos h0 h1
  unfold bootstrapBound
  rw [hlist, ← hv.cast_resamples]
  exact Interpolation.value_replicate hlow hhigh

/-- The two ends of the interval are in order. -/
theorem bootstrapBound_le_of_le (hv : options.Valid) (diffs : List ℚ) {p q : ℚ} (h0 : 0 ≤ p)
    (hpq : p ≤ q) (h1 : q ≤ 1) :
    bootstrapBound rt options diffs p ≤ bootstrapBound rt options diffs q := by
  have hpos : 1 ≤ options.resamples.toNat := by
    have := hv.resamples_pos
    omega
  have hcast : (1 : ℚ) ≤ options.resamples := by exact_mod_cast hv.resamples_pos
  have hq := (position_in_range hpos (h0.trans hpq) h1).2
  rw [hv.cast_resamples] at hq
  have hordered : (orderedEstimates rt options diffs).Pairwise (· ≤ ·) :=
    Sorting.sorted_pairwise _
  apply Interpolation.value_le_value hordered
  · exact mul_nonneg h0 (by linarith)
  · exact mul_le_mul_of_nonneg_right hpq (by linarith)
  · rw [length_orderedEstimates]
    exact hq

/-- Pointwise smaller differences have smaller estimates. -/
theorem estimate_mono (seed : ℤ) {diffs diffs' : List ℚ}
    (h : List.Forall₂ (· ≤ ·) diffs diffs') (r : ℕ) :
    estimate rt seed diffs r ≤ estimate rt seed diffs' r := by
  have hentry : ∀ i, diffs.getD i 0 ≤ diffs'.getD i 0 := fun i => by
    simpa [Interpolation.entry] using Interpolation.entry_mono h i
  unfold estimate
  rw [h.length_eq]
  apply div_le_div_of_nonneg_right _ (Nat.cast_nonneg _)
  exact List.sum_le_sum fun j _ => hentry _

/-- Pointwise smaller differences have smaller bounds. -/
theorem bootstrapBound_mono (rt : Runtime) (options : BootstrapOptions) {diffs diffs' : List ℚ}
    (h : List.Forall₂ (· ≤ ·) diffs diffs') (q : ℚ) :
    bootstrapBound rt options diffs q ≤ bootstrapBound rt options diffs' q := by
  apply Interpolation.value_mono
  apply Sorting.sorted_mono
  rw [List.forall₂_map_left_iff, List.forall₂_map_right_iff, List.forall₂_same]
  exact fun r _ => estimate_mono options.seed h r

/-! ### The principal equation -/

/-- `paired_bootstrap_ci` on two series of one length. -/
theorem pairedBootstrapCi_eq_ok (hv : options.Valid) {baseline candidate : List ℚ}
    (hlen : baseline.length = candidate.length) :
    pairedBootstrapCi rt options baseline candidate
      = .ok (bootstrapCi rt options (differences baseline candidate)) := by
  have hdiffs : (differences baseline candidate).length = baseline.length := by
    simp [differences, hlen]
  have htail := hv.tail_pos
  have htail' := hv.tail_le
  unfold pairedBootstrapCi bootstrapCi
  simp only [hv.confidence_pos, hv.confidence_lt_one, and_self, not_true_eq_false, if_false,
    hlen.symm, ne_eq, hdiffs]
  split
  · rfl
  · rename_i hn
    cases hd : differences baseline candidate with
    | nil => simp [hd, minPairsForCi] at hdiffs hn; omega
    | cons first rest =>
        dsimp only
        split
        · -- The shortcut: the differences are copies of the first.
          rename_i hall
          have hrep : first :: rest = List.replicate (first :: rest).length first :=
            List.eq_replicate_of_mem (by simpa using hall)
          have hbound : ∀ q, 0 ≤ q → q ≤ 1 →
              bootstrapBound rt options (first :: rest) q = first := by
            intro q h0 h1
            apply bootstrapBound_of_estimates hv h0 h1
            intro r
            rw [hrep]
            exact estimate_replicate options.seed (by simp) first r
          rw [hbound _ htail.le (by linarith), hbound _ (by linarith) (by linarith)]
          rfl
        · exact bootstrapInterval_eq_ok hv (List.cons_ne_nil first rest)

end EvalOps
