import EvalOps.Lib.ExceptRules

/-!
# `EvalOps.Lib.Raises`: what a computation may raise

`Raises P x` says that every error of `x` satisfies `P`. It is kept by everything that computations
are built from, so the errors of a long sequence are those of its parts.
-/

set_option autoImplicit false

/-- Every error of the computation satisfies `P`. -/
def Raises {ε α : Type} (P : ε → Prop) (x : Except ε α) : Prop := ∀ e, x = Except.error e → P e

namespace Raises

variable {ε α β : Type} {P Q : ε → Prop}

theorem pure (a : α) : Raises P (Pure.pure a : Except ε α) := nofun

theorem ok (a : α) : Raises P (Except.ok a : Except ε α) := nofun

theorem error {e : ε} (h : P e) : Raises P (Except.error e : Except ε α) := by
  intro e' he
  cases he
  exact h

theorem throw {e : ε} (h : P e) : Raises P (MonadExcept.throw e : Except ε α) := error h

theorem mono {x : Except ε α} (h : Raises P x) (hPQ : ∀ e, P e → Q e) : Raises Q x :=
  fun e he => hPQ e (h e he)

theorem bind {x : Except ε α} {f : α → Except ε β} (hx : Raises P x) (hf : ∀ a, Raises P (f a)) :
    Raises P (x >>= f) := by
  cases x with
  | error e =>
      intro e' he
      cases he
      exact hx e rfl
  | ok a => exact hf a

theorem map {x : Except ε α} (h : Raises P x) (f : α → β) : Raises P (x.map f) :=
  fun e he => h e (ExceptRules.map_eq_error.mp he)

theorem ite {p : Prop} [Decidable p] {x y : Except ε α} (hx : Raises P x) (hy : Raises P y) :
    Raises P (if p then x else y) := by
  split
  · exact hx
  · exact hy

/-- The errors of a loop are those of its turns. -/
theorem mapM {f : α → Except ε β} {xs : List α} (h : ∀ x ∈ xs, Raises P (f x)) :
    Raises P (xs.mapM f) := by
  induction xs with
  | nil => exact pure []
  | cons x xs ih =>
      rw [List.mapM_cons]
      exact (h x List.mem_cons_self).bind fun _ =>
        (ih fun y hy => h y (List.mem_cons_of_mem x hy)).bind fun _ => pure _

theorem forM {f : α → Except ε PUnit} {xs : List α} (h : ∀ x ∈ xs, Raises P (f x)) :
    Raises P (xs.forM f) := by
  induction xs with
  | nil => exact pure _
  | cons x xs ih =>
      rw [List.forM]
      exact (h x List.mem_cons_self).bind fun _ => ih fun y hy => h y (List.mem_cons_of_mem x hy)

theorem foldlM {f : β → α → Except ε β} {xs : List α} (h : ∀ b, ∀ x ∈ xs, Raises P (f b x))
    (b : β) : Raises P (xs.foldlM f b) := by
  induction xs generalizing b with
  | nil => exact pure b
  | cons x xs ih =>
      rw [List.foldlM_cons]
      exact (h b x List.mem_cons_self).bind fun b' =>
        ih (fun b y hy => h b y (List.mem_cons_of_mem x hy)) b'

end Raises
