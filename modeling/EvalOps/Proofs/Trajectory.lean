import EvalOps.AgentEvaluators
import EvalOps.Lib.Subsequences
import Mathlib.Tactic.FieldSimp

/-!
# `EvalOps.Proofs.Trajectory`: adherence to the expected order

`lcsLen_eq_ok`: `_lcs_len` returns the length of a longest common subsequence. The loop keeps one
row of the dynamic program, and every entry of the row is an optimum (`Subsequences.IsRow`).

`trajectory_spec` states what follows for the score of `ToolTrajectory`.
-/

set_option autoImplicit false

namespace EvalOps

open Subsequences

section

variable {α : Type} [DecidableEq α]

/-! ### The dynamic program -/

/-- A subscript of a list of numbers, in range. -/
theorem pyIndex_of_eq {xs : List ℕ} {i : ℤ} {n : ℕ} (hi : i = n) (hn : n < xs.length) :
    pyIndex xs i = .ok xs[n] := by
  subst hi
  rw [pyIndex_of_lt (by omega) (by exact_mod_cast hn)]
  simp

/-- The subscript `-1` is the last entry. -/
theorem pyIndex_last {xs : List ℕ} {n : ℕ} (hlen : xs.length = n + 1) :
    pyIndex xs (-1) = .ok xs[n] := by
  have hposition : (-1 : ℤ) + xs.length = n := by omega
  unfold pyIndex
  simp only [show (-1 : ℤ) < 0 by decide, if_true, hposition]
  rw [if_neg (by omega), Int.toNat_natCast, List.getElem?_eq_getElem (by omega)]
  rfl

/-- The inner loop computes the row of one more element. -/
theorem lcsRow_eq_ok {a b : List α} {prev : List ℕ} (hprev : IsRow a b prev)
    (hlen : prev.length = b.length + 1) (x : α) :
    ∃ curr, lcsRow b prev x = .ok curr ∧ IsRow (a ++ [x]) b curr ∧
      curr.length = b.length + 1 := by
  -- After `done` has been consumed, the row has an entry for each of its initial parts.
  have loop : ∀ (rest done : List α) (curr : List ℕ), b = done ++ rest →
      curr.length = done.length + 1 → IsRow (a ++ [x]) b curr →
      ∃ curr', (rest.zipIdx (done.length + 1)).foldlM (fun (curr : List ℕ) (yj : α × ℕ) => do
          if x = yj.1 then pure (curr ++ [(← pyIndex prev ((yj.2 : ℤ) - 1)) + 1])
          else pure (curr ++
            [max (← pyIndex prev yj.2) (← pyIndex curr ((yj.2 : ℤ) - 1))])) curr
          = (.ok curr' : Py (List ℕ)) ∧ IsRow (a ++ [x]) b curr' ∧
            curr'.length = b.length + 1 := by
    intro rest
    induction rest with
    | nil =>
        intro done curr hb hcurr hrow
        rw [List.append_nil] at hb
        exact ⟨curr, rfl, hrow, by rw [hb, hcurr]⟩
    | cons y rest ih =>
        intro done curr hb hcurr hrow
        have hjb : done.length < b.length := by
          rw [hb, List.length_append, List.length_cons]
          omega
        have hy : b[done.length] = y := by
          simp [hb]
        have hprev_left : pyIndex prev (((done.length + 1 : ℕ) : ℤ) - 1)
            = .ok prev[done.length] := pyIndex_of_eq (by omega) (by omega)
        have hprev_up : pyIndex prev ((done.length + 1 : ℕ) : ℤ)
            = .ok prev[done.length + 1] := pyIndex_of_eq rfl (by omega)
        have hcurr_left : pyIndex curr (((done.length + 1 : ℕ) : ℤ) - 1)
            = .ok curr[done.length] := pyIndex_of_eq (by omega) (by omega)
        obtain ⟨curr', hfold, hrow', hlen'⟩ := ih (done ++ [y]) _
          (by rw [List.append_assoc]; exact hb)
          (by simp only [List.length_append, List.length_singleton, hcurr])
          (hprev.extend hlen hrow hcurr hjb hy)
        refine ⟨curr', ?_, hrow', hlen'⟩
        rw [List.length_append, List.length_singleton] at hfold
        rw [List.zipIdx_cons, List.foldlM_cons, ← hfold]
        dsimp only
        rw [hprev_left, hprev_up, hcurr_left]
        by_cases hxy : x = y
        · rw [if_pos hxy, if_pos hxy]
          rfl
        · rw [if_neg hxy, if_neg hxy]
          rfl
  exact loop b [] [0] rfl rfl (isRow_zero (a ++ [x]) b)

/-- `_lcs_len` never indexes out of range and returns the length of a longest common
subsequence. -/
theorem lcsLen_eq_ok (a b : List α) :
    ∃ n, lcsLen a b = .ok n ∧ IsGreatest (commonLengths a b) n := by
  -- After `done` has been consumed, the row is the row of `done`.
  have loop : ∀ (rest done : List α) (row : List ℕ), IsRow done b row →
      row.length = b.length + 1 → ∃ last, rest.foldlM (lcsRow b) row = .ok last ∧
        IsRow (done ++ rest) b last ∧ last.length = b.length + 1 := by
    intro rest
    induction rest with
    | nil =>
        intro done row hrow hlen
        exact ⟨row, rfl, by rwa [List.append_nil], hlen⟩
    | cons x rest ih =>
        intro done row hrow hlen
        obtain ⟨curr, hcurr, hrow', hlen'⟩ := lcsRow_eq_ok hrow hlen x
        obtain ⟨last, hlast, hrow'', hlen''⟩ := ih (done ++ [x]) curr hrow' hlen'
        rw [List.append_assoc] at hrow''
        exact ⟨last, by rw [List.foldlM_cons, hcurr]; exact hlast, hrow'', hlen''⟩
  unfold lcsLen
  cases a with
  | nil => exact ⟨0, rfl, isGreatest_nil_left b⟩
  | cons x a =>
      cases b with
      | nil => exact ⟨0, rfl, isGreatest_nil_right (x :: a)⟩
      | cons y b =>
          obtain ⟨last, hlast, hrow, hlen⟩ :=
            loop (x :: a) [] (List.replicate ((y :: b).length + 1) 0) (isRow_nil (y :: b))
              (by rw [List.length_replicate])
          have hgreatest := hrow.entry (y :: b).length (by omega)
          rw [List.take_length] at hgreatest
          refine ⟨_, ?_, hgreatest⟩
          simp only [List.isEmpty_cons, Bool.or_self, Bool.false_eq_true, if_false]
          rw [hlast, ExceptRules.ok_bind, pyIndex_last hlen]

/-- One more element on the right adds at most one, and takes nothing away. -/
theorem lcsLen_snoc {a b : List α} {n : ℕ} (h : lcsLen a b = .ok n) (y : α) :
    ∃ n', lcsLen a (b ++ [y]) = .ok n' ∧ n ≤ n' ∧ n' ≤ n + 1 := by
  obtain ⟨m, hm, hgreatest⟩ := lcsLen_eq_ok a b
  obtain ⟨n', hn', hgreatest'⟩ := lcsLen_eq_ok a (b ++ [y])
  rw [h] at hm
  cases hm
  refine ⟨n', hn', ?_, le_succ_of_snoc hgreatest hgreatest'.1⟩
  exact hgreatest'.2 (commonLengths_subset (List.sublist_append_left b [y]) hgreatest.1)

/-! ### The score -/

/-- What the score of two sequences says about them. -/
structure TrajectoryLaws (a b : List α) (s : ℚ) : Prop where
  returned : trajectoryScore a b = .ok s
  symmetric : trajectoryScore b a = .ok s
  nonneg : 0 ≤ s
  le_one : s ≤ 1
  eq_one_iff : s = 1 ↔ a = b
  eq_zero_iff : a ≠ [] ∨ b ≠ [] → (s = 0 ↔ ∀ x ∈ a, x ∉ b)

/-- The score of two sequences from the length of a longest common subsequence. -/
theorem trajectoryScore_eq {a b : List α} {n : ℕ} (h : IsGreatest (commonLengths a b) n) :
    trajectoryScore a b = .ok (if a.length + b.length ≠ 0 then
      (2 * n : ℕ) / ((a.length + b.length : ℕ) : ℚ) else 1) := by
  obtain ⟨m, hm, hgreatest⟩ := lcsLen_eq_ok a b
  have hmn : m = n := hgreatest.unique h
  unfold trajectoryScore
  rw [hm, hmn]
  dsimp only
  split
  · rfl
  · rfl

/-- The laws of the score. -/
theorem trajectoryLaws (a b : List α) : ∃ s, TrajectoryLaws a b s := by
  obtain ⟨n, _, hgreatest⟩ := lcsLen_eq_ok a b
  have hscore := trajectoryScore_eq hgreatest
  have hswapped := trajectoryScore_eq (commonLengths_comm a b ▸ hgreatest)
  rw [Nat.add_comm] at hswapped
  by_cases hdenom : a.length + b.length = 0
  · -- Without any element the score is one, and the two sequences are equal.
    have ha : a = [] := List.length_eq_zero_iff.mp (by omega)
    have hb : b = [] := List.length_eq_zero_iff.mp (by omega)
    rw [if_neg (by simpa using hdenom)] at hscore hswapped
    exact ⟨1, hscore, hswapped, zero_le_one, le_refl 1, by simp [ha, hb],
      fun hne => absurd hne (by simp [ha, hb])⟩
  · rw [if_pos hdenom] at hscore hswapped
    have hpos : (0 : ℚ) < ((a.length + b.length : ℕ) : ℚ) := by
      exact_mod_cast Nat.pos_of_ne_zero hdenom
    have hleft := le_length_left hgreatest
    have hright := le_length_right hgreatest
    have htwo : 2 * n ≤ a.length + b.length := by omega
    refine ⟨_, hscore, hswapped, ?_, ?_, ?_, fun _ => ?_⟩
    · exact div_nonneg (Nat.cast_nonneg _) hpos.le
    · rw [div_le_one hpos]
      exact_mod_cast htwo
    · rw [div_eq_one_iff_eq hpos.ne', Nat.cast_inj]
      exact two_mul_eq_iff hgreatest
    · rw [div_eq_zero_iff, or_iff_left hpos.ne', Nat.cast_eq_zero, ← eq_zero_iff hgreatest]
      omega

/-- `_lcs_len` is the length of a longest common subsequence, with what follows for the score of
`ToolTrajectory`: it lies between zero and one, is symmetric, is one for equal sequences alone and
zero for disjoint ones alone, and one more observed call changes the length by at most one,
upwards. -/
theorem lcsLen_trajectory_spec (a b : List α) :
    (∃ n s, lcsLen a b = .ok n ∧ IsGreatest (commonLengths a b) n ∧ TrajectoryLaws a b s ∧
      ∀ y, ∃ n', lcsLen a (b ++ [y]) = .ok n' ∧ n ≤ n' ∧ n' ≤ n + 1) ∧
    ∀ (evaluator : ToolTrajectory) (run : EvaluationRun) (reference : DatasetCase), ∃ s,
      TrajectoryLaws (reference.expectedToolCalls.map ExpectedToolCall.name)
        (run.toolCalls.map ToolCall.name) s ∧
      evaluator.evaluate run reference
        = (do
          let _ ← expectedCalls reference evaluator.name
          evaluator.scored .deterministic s) := by
  constructor
  · obtain ⟨n, hn, hgreatest⟩ := lcsLen_eq_ok a b
    obtain ⟨s, hs⟩ := trajectoryLaws a b
    exact ⟨n, s, hn, hgreatest, hs, lcsLen_snoc hn⟩
  · intro evaluator run reference
    obtain ⟨s, hs⟩ := trajectoryLaws (reference.expectedToolCalls.map ExpectedToolCall.name)
      (run.toolCalls.map ToolCall.name)
    refine ⟨s, hs, ?_⟩
    unfold ToolTrajectory.evaluate expectedCalls
    split
    · rfl
    · dsimp only
      rw [ExceptRules.pure_eq_ok, ExceptRules.ok_bind, ExceptRules.ok_bind, hs.returned,
        ExceptRules.ok_bind]

end

end EvalOps
