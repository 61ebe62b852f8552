import EvalOps.Lib.EffectRules

/-!
# `EvalOps.Lib.Programs`: programs that call the outside step by step

`Program Op Answer ε α` is a program that calls operations, goes on with each answer, and returns
or raises. What is left of a program between two calls is a program again, so a scheduler can
interleave many of them. `Program.interpret` runs a program to its end, under a handler of the
operations.

`Program.Safe` is a weakest precondition over a tracked state: an invariant holds at every point
between two calls, and a postcondition at the end, whatever the answers are that a relation `post`
allows. `Safe.bind`, `Safe.op` and `Safe.forM` are its rules.
-/

set_option autoImplicit false

/-- A program that calls operations one at a time, and returns or raises. -/
inductive Program (Op : Type) (Answer : Op → Type) (ε α : Type) : Type
  | done (a : α)
  | raise (e : ε)
  | call (op : Op) (next : Answer op → Program Op Answer ε α)

namespace Program

variable {Op : Type} {Answer : Op → Type} {ε α β σ : Type}

/-- Sequencing. -/
def bind (p : Program Op Answer ε α) (f : α → Program Op Answer ε β) : Program Op Answer ε β :=
  match p with
  | done a => f a
  | raise e => raise e
  | call op next => call op fun answer => (next answer).bind f

instance : Monad (Program Op Answer ε) where
  pure := done
  bind := bind

/-- One call. -/
def op (o : Op) : Program Op Answer ε (Answer o) := call o done

/-- A pure computation that may raise. -/
def ofExcept (x : Except ε α) : Program Op Answer ε α :=
  match x with
  | .ok a => done a
  | .error e => raise e

/-! ### Running to the end -/

/-- Runs a program, with a handler of its operations. -/
def interpret (handle : (o : Op) → Effect σ ε (Answer o)) :
    Program Op Answer ε α → Effect σ ε α
  | done a => pure a
  | raise e => throw e
  | call o next => handle o >>= fun answer => (next answer).interpret handle

variable {handle : (o : Op) → Effect σ ε (Answer o)}

@[simp] theorem interpret_pure (a : α) :
    interpret handle (pure a : Program Op Answer ε α) = pure a := rfl

@[simp] theorem interpret_raise (e : ε) :
    interpret handle (raise e : Program Op Answer ε α) = throw e := rfl

@[simp] theorem interpret_op (o : Op) : interpret handle (op o) = handle o := by
  change (handle o >>= pure) = handle o
  exact bind_pure (handle o)

@[simp] theorem interpret_ofExcept (x : Except ε α) :
    interpret handle (ofExcept x) = Effect.lift x := by
  cases x <;> rfl

/-- The handler goes through a sequence. -/
@[simp] theorem interpret_bind (p : Program Op Answer ε α) (f : α → Program Op Answer ε β) :
    interpret handle (p >>= f) = interpret handle p >>= fun a => interpret handle (f a) := by
  induction p with
  | done a => rfl
  | raise e => rfl
  | call o next ih =>
      change (handle o >>= fun answer => interpret handle (next answer >>= f)) =
        (handle o >>= fun answer => interpret handle (next answer)) >>= _
      rw [bind_assoc]
      exact congrArg _ (funext ih)

/-- The handler goes through a loop. -/
theorem interpret_forM (xs : List β) (f : β → Program Op Answer ε PUnit) :
    interpret handle (xs.forM f) = xs.forM fun x => interpret handle (f x) := by
  induction xs with
  | nil => rfl
  | cons x xs ih =>
      change interpret handle (f x >>= fun _ => xs.forM f) = _
      rw [interpret_bind]
      exact congrArg _ (funext fun _ => ih)

/-! ### Weakest preconditions -/

/-- At every point the invariant holds, and at the end the postcondition. -/
def Safe (post : (o : Op) → σ → Answer o → σ → Prop) (I : σ → Prop) :
    Program Op Answer ε α → (α → σ → Prop) → σ → Prop
  | done a, Q, s => I s ∧ Q a s
  | raise _, _, s => I s
  | call o next, Q, s => I s ∧ ∀ answer t, post o s answer t → Safe post I (next answer) Q t

variable {post : (o : Op) → σ → Answer o → σ → Prop} {I : σ → Prop} {Q : α → σ → Prop}
  {R : β → σ → Prop} {s t : σ}

theorem Safe.invariant {p : Program Op Answer ε α} (h : Safe post I p Q s) : I s := by
  cases p with
  | done a => exact h.1
  | raise e => exact h
  | call o next => exact h.1

/-- A weaker postcondition. -/
theorem Safe.mono {p : Program Op Answer ε α} {Q' : α → σ → Prop}
    (hQ : ∀ a t, Q a t → Q' a t) (h : Safe post I p Q s) : Safe post I p Q' s := by
  induction p generalizing s with
  | done a => exact ⟨h.1, hQ a s h.2⟩
  | raise e => exact h
  | call o next ih => exact ⟨h.1, fun answer t hpost => ih answer (h.2 answer t hpost)⟩

/-- What is left after an answer is safe again. -/
theorem Safe.answer {o : Op} {next : Answer o → Program Op Answer ε α} {answer : Answer o}
    (h : Safe post I (call o next) Q s) (hpost : post o s answer t) :
    Safe post I (next answer) Q t := h.2 answer t hpost

theorem Safe.op {o : Op} {Q : Answer o → σ → Prop} (hI : I s)
    (h : ∀ answer t, post o s answer t → I t ∧ Q answer t) :
    Safe post I (op o : Program Op Answer ε (Answer o)) Q s := ⟨hI, h⟩

theorem Safe.ofExcept {x : Except ε α} (hI : I s) (h : ∀ a, x = .ok a → Q a s) :
    Safe post I (ofExcept x : Program Op Answer ε α) Q s := by
  cases x with
  | ok a => exact ⟨hI, h a rfl⟩
  | error e => exact hI

/-- A sequence is safe when its first part ends where its rest is safe. -/
theorem Safe.bind {p : Program Op Answer ε α} {f : α → Program Op Answer ε β}
    (h : Safe post I p (fun a t => Safe post I (f a) R t) s) : Safe post I (p >>= f) R s := by
  induction p generalizing s with
  | done a => exact h.2
  | raise e => exact h
  | call o next ih => exact ⟨h.1, fun answer t hpost => ih answer (h.2 answer t hpost)⟩

/-- A loop is safe when each turn keeps a property of the elements that are left. -/
theorem Safe.forM {f : β → Program Op Answer ε PUnit} {J : List β → σ → Prop} {xs : List β}
    (hI : ∀ s, J [] s → I s)
    (hturn : ∀ x xs s, J (x :: xs) s → Safe post I (f x) (fun _ t => J xs t) s) (h : J xs s) :
    Safe post I (xs.forM f) (fun _ t => J [] t) s := by
  induction xs generalizing s with
  | nil => exact ⟨hI s h, h⟩
  | cons x xs ih =>
      change Safe post I (f x >>= fun _ => xs.forM f) _ s
      exact ((hturn x xs s h).mono fun _ _ hrest => ih hrest).bind

end Program
