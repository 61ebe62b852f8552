import Mathlib.Data.List.Basic
import Mathlib.Data.List.Induction

/-!
# `EvalOps.Lib.Runs`: runs of a transition system

A transition system is a step relation `step s a s'` between states, with labelled steps. `Run`
is a sequence of steps. `Run.invariant` carries an invariant along a run, and `Run.relation` a
reflexive and transitive relation between its ends. A system whose steps are a total or partial
function is executed by `foldl` or `runAll`; `Run.of_foldl` and `Run.of_runAll` turn the
execution into a run.
-/

set_option autoImplicit false

/-- A run from a state through labelled steps to a state. -/
inductive Run {σ α : Type} (step : σ → α → σ → Prop) : σ → List α → σ → Prop
  | nil (s : σ) : Run step s [] s
  | cons {s t u : σ} {a : α} {as : List α} : step s a t → Run step t as u →
      Run step s (a :: as) u

namespace Run

variable {σ α : Type} {step step' : σ → α → σ → Prop} {s t u : σ} {as bs : List α}

/-- What holds of the first state and is kept by each step, holds of the last state. -/
theorem invariant {I : σ → Prop} (hstep : ∀ s a t, I s → step s a t → I t)
    (hrun : Run step s as t) (hs : I s) : I t := by
  induction hrun with
  | nil s => exact hs
  | cons hst _ ih => exact ih (hstep _ _ _ hs hst)

/-- What each step from an invariant state relates, and what composes, relates the ends. -/
theorem relation {I : σ → Prop} {R : σ → σ → Prop} (hI : ∀ s a t, I s → step s a t → I t)
    (hrefl : ∀ s, R s s) (htrans : ∀ s t u, R s t → R t u → R s u)
    (hstep : ∀ s a t, I s → step s a t → R s t) (hrun : Run step s as t) (hs : I s) :
    R s t := by
  induction hrun with
  | nil s => exact hrefl s
  | cons hst _ ih => exact htrans _ _ _ (hstep _ _ _ hs hst) (ih (hI _ _ _ hs hst))

/-- Runs compose. -/
theorem append (hst : Run step s as t) (htu : Run step t bs u) : Run step s (as ++ bs) u := by
  induction hst with
  | nil s => exact htu
  | cons h _ ih => exact cons h (ih htu)

/-- A run of steps that are also steps of another system. -/
theorem imp (h : ∀ s a t, step s a t → step' s a t) (hrun : Run step s as t) :
    Run step' s as t := by
  induction hrun with
  | nil s => exact nil s
  | cons hst _ ih => exact cons (h _ _ _ hst) ih

/-- The execution of a total step function is a run. -/
theorem of_foldl (f : σ → α → σ) (s : σ) (as : List α) :
    Run (fun s a t => f s a = t) s as (as.foldl f s) := by
  induction as generalizing s with
  | nil => exact nil s
  | cons a as ih => exact cons rfl (ih (f s a))

/-- An invariant that a step keeps exactly under a condition holds in every state of an execution
exactly when every step meets the condition. -/
theorem foldl_invariant_iff {I : σ → Prop} {C : σ → α → Prop} {f : σ → α → σ}
    (hstep : ∀ s a, I s → (I (f s a) ↔ C s a)) (hs : I s) (as : List α) :
    (∀ before after, as = before ++ after → I (before.foldl f s)) ↔
      ∀ before a after, as = before ++ a :: after → C (before.foldl f s) a := by
  constructor
  · rintro h before a after rfl
    have hbefore := h before (a :: after) rfl
    have hafter := h (before ++ [a]) after (by simp)
    rw [List.foldl_append] at hafter
    exact (hstep _ _ hbefore).mp hafter
  · intro h before after heq
    -- The steps made so far, from the last one back.
    induction before using List.reverseRecOn generalizing after with
    | nil => exact hs
    | append_singleton before a ih =>
        rw [List.append_assoc] at heq
        rw [List.foldl_append]
        exact (hstep _ _ (ih _ heq)).mpr (h before a after heq)

/-- The execution of a partial step function. -/
def runAll (f : σ → α → Option σ) : σ → List α → Option σ
  | s, [] => some s
  | s, a :: as => (f s a).bind fun t => runAll f t as

/-- An execution is a run. -/
theorem of_runAll {f : σ → α → Option σ} (h : runAll f s as = some t) :
    Run (fun s a t => f s a = some t) s as t := by
  induction as generalizing s with
  | nil =>
      cases h
      exact nil _
  | cons a as ih =>
      obtain ⟨u, hu, hrest⟩ := Option.bind_eq_some_iff.mp h
      exact cons hu (ih hrest)

end Run
