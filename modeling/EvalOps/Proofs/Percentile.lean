import EvalOps.Proofs.Latency

/-!
# `EvalOps.Proofs.Percentile`: the nearest-rank percentile

`_latency_p95` reads the sorted latencies at `ceil(0.95 * n) - 1`. The index is in range
(`rank_mem`), and what stands there is the least latency that 95% of the latencies do not exceed
(`nearestRank_isLeast`). Both follow from the order statistics of `EvalOps.Lib.Sorting`.
-/

set_option autoImplicit false

namespace EvalOps

/-- The rank of the percentile among `n` observations. -/
def percentileRank (n : ℕ) : ℤ := ⌈(19 / 20 : ℚ) * n⌉

/-- The index of the percentile is in range. -/
theorem rank_mem {n : ℕ} (hn : 0 < n) : 0 ≤ percentileRank n - 1 ∧ percentileRank n - 1 < n := by
  have hpos : (0 : ℚ) < n := by exact_mod_cast hn
  have hlow : 1 ≤ percentileRank n := Int.one_le_ceil_iff.mpr (by linarith)
  have hhigh : percentileRank n ≤ (n : ℤ) := Int.ceil_le.mpr (by push_cast; linarith)
  omega

/-- A count reaches 95% of the observations exactly when it goes beyond the index. -/
theorem percentage_le_iff {n : ℕ} (hn : 0 < n) (count : ℕ) :
    (19 / 20 : ℚ) * n ≤ count ↔ (percentileRank n - 1).toNat < count := by
  have hlow := (rank_mem hn).1
  have hceil : percentileRank n ≤ count ↔ (19 / 20 : ℚ) * n ≤ count := by
    rw [percentileRank, Int.ceil_le]
    norm_cast
  rw [← hceil]
  omega

/-- The percentile is the least observation that at least 95% of the observations do not exceed. -/
theorem nearestRank_isLeast {xs : List ℚ} (hne : xs ≠ []) :
    IsLeast {v | v ∈ xs ∧ (19 / 20 : ℚ) * xs.length ≤ (xs.countP fun x => decide (x ≤ v) : ℕ)}
      (nearestRank xs) := by
  have hpos : 0 < xs.length := List.length_pos_iff.mpr hne
  have hrank := rank_mem hpos
  have hlt : (percentileRank xs.length - 1).toNat < (Sorting.sorted xs).length := by
    rw [Sorting.length_sorted]
    omega
  have hentry : nearestRank xs = (Sorting.sorted xs)[(percentileRank xs.length - 1).toNat] := by
    show (Sorting.sorted xs).getD (percentileRank xs.length - 1).toNat 0 = _
    rw [List.getD_eq_getElem _ _ hlt]
  simp only [percentage_le_iff hpos]
  rw [hentry]
  exact Sorting.isLeast_getElem_sorted xs hlt

/-- Raising observations does not lower the percentile. -/
theorem nearestRank_mono {xs ys : List ℚ} (h : List.Forall₂ (· ≤ ·) xs ys) :
    nearestRank xs ≤ nearestRank ys := by
  unfold nearestRank
  rw [h.length_eq]
  exact Interpolation.entry_mono (Sorting.sorted_mono h) _

/-- The latency percentile of runs of which some succeeded: its index is in range, it is the least
observed latency that at least 95% of the latencies do not exceed, it does not depend on the order
of the runs, and it does not fall when latencies rise. -/
theorem latencyP95_is_nearest_rank {runs : List EvaluationRun}
    (hne : successfulLatencies runs ≠ []) :
    (0 ≤ ⌈(19 / 20 : ℚ) * (successfulLatencies runs).length⌉ - 1 ∧
      ⌈(19 / 20 : ℚ) * (successfulLatencies runs).length⌉ - 1
        < (successfulLatencies runs).length) ∧
    ∃ v, latencyP95 runs = .ok v ∧
      IsLeast {v | v ∈ successfulLatencies runs ∧
        (19 / 20 : ℚ) * (successfulLatencies runs).length
          ≤ ((successfulLatencies runs).countP fun x => decide (x ≤ v) : ℕ)} v ∧
      (∀ reordered : List EvaluationRun, reordered.Perm runs → latencyP95 reordered = .ok v) ∧
      ∀ raised : List EvaluationRun,
        List.Forall₂ (· ≤ ·) (successfulLatencies runs) (successfulLatencies raised) →
          ∃ v', latencyP95 raised = .ok v' ∧ v ≤ v' := by
  have hvalue : ∀ rs, latencyP95 rs = .ok (nearestRank (successfulLatencies rs)) := by
    intro rs
    rw [latencyP95_eq_ok, latencyP95Value_eq]
  refine ⟨rank_mem (List.length_pos_iff.mpr hne), _, hvalue runs, nearestRank_isLeast hne, ?_, ?_⟩
  · intro reordered hperm
    have hlatencies : (successfulLatencies reordered).Perm (successfulLatencies runs) :=
      (hperm.filter _).map _
    rw [hvalue, nearestRank_perm hlatencies]
  · intro raised hraised
    exact ⟨_, hvalue raised, nearestRank_mono hraised⟩

/-- A successful run with a latency. -/
def timedRun (latency : ℚ) (h : 0 ≤ latency) : EvaluationRun where
  experimentId := offlineId 0
  systemVersionId := offlineId 0
  caseId := offlineId 0
  repeatIndex := 0
  output := ""
  usage := { UsageMetrics.zero with latencyMs := latency, latencyMs_nonneg := h }
  error := none
  retrieval := []
  toolCalls := []
  id := offlineId 0
  createdAt := 0

/-- A slow run and a fast one. -/
def twoRuns : List EvaluationRun := [timedRun 30 (by norm_num), timedRun 20 (by norm_num)]

/-- The percentile of two runs is one of their latencies. -/
theorem latencyP95_of_two_runs :
    ∃ v, latencyP95 twoRuns = .ok v ∧
      IsLeast {v | v ∈ successfulLatencies twoRuns ∧
        (19 / 20 : ℚ) * (successfulLatencies twoRuns).length
          ≤ ((successfulLatencies twoRuns).countP fun x => decide (x ≤ v) : ℕ)} v := by
  have hlatencies : successfulLatencies twoRuns = [30, 20] := rfl
  have hne : successfulLatencies twoRuns ≠ [] := by
    rw [hlatencies]
    simp
  obtain ⟨_, v, hv, hleast, _⟩ := latencyP95_is_nearest_rank hne
  exact ⟨v, hv, hleast⟩

end EvalOps
