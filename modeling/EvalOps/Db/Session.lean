import EvalOps.Domain.Errors
import EvalOps.Lib.EffectRules

/-!
# `EvalOps.Db.Session`: the unit of work

`db/session.py`. A transaction is a program over the tables as the transaction sees them. The
program `unitOfWork` commits it on a clean exit and rolls it back on any exception. The commit is
the outside, and may raise.
-/

set_option autoImplicit false

namespace EvalOps

/-- A transaction over some tables. -/
abbrev Tx (σ α : Type) := Effect σ PyError α

/-- `unit_of_work(factory)` around a body. -/
def unitOfWork {σ α : Type} (commit : Py Unit) (body : Tx σ α) : Tx σ α := do
  let committed ← get
  tryCatch
    (do
      let a ← body
      Effect.lift commit
      pure a)
    (fun exc => do
      set committed
      throw exc)

/-- What a unit of work returns, and the tables it leaves. -/
theorem exec_unitOfWork {σ α : Type} (commit : Py Unit) (body : Tx σ α) (s : σ) :
    Effect.exec (unitOfWork commit body) s =
      match Effect.exec body s, commit with
      | (.ok a, t), .ok () => (.ok a, t)
      | (.ok _, _), .error e => (.error e, s)
      | (.error e, _), _ => (.error e, s) := by
  unfold unitOfWork
  simp only [Effect.exec_bind, Effect.exec_get, Effect.exec_tryCatch]
  rcases Effect.exec body s with ⟨result, t⟩
  cases result with
  | error e => rfl
  | ok a => cases commit <;> rfl

/-- A unit of work that returns has committed what its body did. -/
theorem exec_unitOfWork_eq_ok {σ α : Type} {commit : Py Unit} {body : Tx σ α} {s t : σ} {a : α} :
    Effect.exec (unitOfWork commit body) s = (.ok a, t) ↔
      Effect.exec body s = (.ok a, t) ∧ commit = .ok () := by
  rw [exec_unitOfWork]
  rcases Effect.exec body s with ⟨result, u⟩
  cases result <;> cases commit <;> simp

/-- A unit of work that raises leaves the tables as they were. -/
theorem eq_of_exec_unitOfWork_eq_error {σ α : Type} {commit : Py Unit} {body : Tx σ α} {s t : σ}
    {e : PyError} (h : Effect.exec (unitOfWork commit body) s = (.error e, t)) : t = s := by
  rw [exec_unitOfWork] at h
  split at h
  · exact nomatch h
  · exact (Prod.mk.inj h).2.symm
  · exact (Prod.mk.inj h).2.symm

end EvalOps
