import EvalOps.Lib.ExceptRules

/-!
# `EvalOps.Lib.Yields`: what a computation returns

`Yields P x` says that `x` returns, and that its result satisfies `P`. It is total correctness, and
`Raises` is about the errors alone. Each rule is an equivalence, so what a long computation needs is
read off its parts.
-/

set_option autoImplicit false

/-- The computation returns a result that satisfies `P`. -/
def Yields {ε α : Type} (P : α → Prop) (x : Except ε α) : Prop := ∃ a, x = Except.ok a ∧ P a

namespace Yields

variable {ε α β : Type} {P Q : α → Prop} {R : β → Prop}

@[simp] theorem ok_iff {a : α} : Yields P (Except.ok a : Except ε α) ↔ P a := by
  simp [Yields]

@[simp] theorem pure_iff {a : α} : Yields P (pure a : Except ε α) ↔ P a := ok_iff

@[simp] theorem error_iff {e : ε} : Yields P (Except.error e : Except ε α) ↔ False := by
  simp [Yields]

@[simp] theorem throw_iff {e : ε} : Yields P (throw e : Except ε α) ↔ False := error_iff

theorem congr {x : Except ε α} (h : ∀ a, P a ↔ Q a) : Yields P x ↔ Yields Q x := by
  unfold Yields
  simp only [h]

/-- A sequence needs its first part, and then its rest. -/
theorem bind_iff {x : Except ε α} {f : α → Except ε β} :
    Yields R (x >>= f) ↔ Yields (fun a => Yields R (f a)) x := by
  cases x with
  | error e => simp
  | ok a => simp

/-- What does not depend on the result stands beside it. -/
theorem and_iff {x : Except ε α} {p : Prop} :
    Yields (fun a => P a ∧ p) x ↔ Yields P x ∧ p := by
  cases x with
  | error e => simp
  | ok a => simp

theorem const_and_iff {x : Except ε α} {p : Prop} :
    Yields (fun a => p ∧ P a) x ↔ p ∧ Yields P x := by
  cases x with
  | error e => simp
  | ok a => simp

/-- A computation in front whose result only matters by itself. -/
theorem bind_and_iff {x : Except ε α} {f : α → Except ε β} {p : Prop}
    (h : ∀ a, Yields R (f a) ↔ P a ∧ p) : Yields R (x >>= f) ↔ Yields P x ∧ p := by
  rw [bind_iff, congr h, and_iff]

/-- A loop needs each of its turns. -/
theorem mapM_iff {f : α → Except ε β} {xs : List α} :
    Yields (fun ys => ∀ y ∈ ys, R y) (xs.mapM f) ↔ ∀ x ∈ xs, Yields R (f x) := by
  induction xs with
  | nil => simp
  | cons x xs ih =>
      rw [List.mapM_cons, List.forall_mem_cons, ← ih]
      refine bind_and_iff fun y => ?_
      rw [and_comm]
      refine bind_and_iff fun ys => ?_
      rw [pure_iff, List.forall_mem_cons, and_comm]

end Yields
