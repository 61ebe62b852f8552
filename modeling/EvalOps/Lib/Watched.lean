import EvalOps.Lib.EffectRules

/-!
# `EvalOps.Lib.Watched`: programs that report on themselves

A watched program runs over a state, has a context in scope, and emits lines that may read the
context. `within` changes the context for one block and restores it however the block ends.

* `Watched.Erases`: without its lines and its context, a watched program is a given program over
  the state, and it leaves the context as it was. There is one rule for each way to build a program.
* `Watched.Emits`: every line that a program emits has a property, and the context stays. Again with
  one rule for each way to build a program.
-/

set_option autoImplicit false

/-- A state, the context in scope, and the lines emitted so far. -/
structure Watched (σ χ ω : Type) where
  state : σ
  context : χ
  emitted : List ω

namespace Watched

open Effect

variable {σ χ ω ε α β : Type}

/-- A program over the state alone. -/
def onState (x : Effect σ ε α) : Effect (Watched σ χ ω) ε α := do
  let w ← get
  let ran := exec x w.state
  set { w with state := ran.2 }
  lift ran.1

/-- Emits some lines, which may read the context. -/
def emit (lines : χ → List ω) : Effect (Watched σ χ ω) ε Unit := do
  let w ← get
  set { w with emitted := w.emitted ++ lines w.context }

/-- The context in scope. -/
def scope : Effect (Watched σ χ ω) ε χ := do
  let w ← get
  pure w.context

/-- Puts a context in scope. -/
def enter (context : χ) : Effect (Watched σ χ ω) ε Unit := do
  let w ← get
  set { w with context }

/-- Runs a block in a changed context, and restores the context when the block returns or raises.
-/
def within (change : χ → χ) (body : Effect (Watched σ χ ω) ε α) : Effect (Watched σ χ ω) ε α := do
  let outer ← scope
  enter (change outer)
  let a ← tryCatch body fun e => do
    enter outer
    throw e
  enter outer
  pure a

@[simp] theorem exec_onState (x : Effect σ ε α) (w : Watched σ χ ω) :
    exec (onState x) w = ((exec x w.state).1, { w with state := (exec x w.state).2 }) := by
  simp only [onState, exec_bind, exec_get, exec_set, exec_lift]

@[simp] theorem exec_emit (lines : χ → List ω) (w : Watched σ χ ω) :
    exec (emit lines : Effect (Watched σ χ ω) ε Unit) w
      = (.ok (), { w with emitted := w.emitted ++ lines w.context }) := rfl

@[simp] theorem exec_scope (w : Watched σ χ ω) :
    exec (scope : Effect (Watched σ χ ω) ε χ) w = (.ok w.context, w) := rfl

@[simp] theorem exec_enter (context : χ) (w : Watched σ χ ω) :
    exec (enter context : Effect (Watched σ χ ω) ε Unit) w = (.ok (), { w with context }) := rfl

/-- A block in a changed context. -/
theorem exec_within (change : χ → χ) (body : Effect (Watched σ χ ω) ε α) (w : Watched σ χ ω) :
    exec (within change body) w
      = ((exec body { w with context := change w.context }).1,
          { (exec body { w with context := change w.context }).2 with context := w.context }) := by
  simp only [within, exec_bind, exec_scope, exec_enter, exec_tryCatch]
  rcases exec body { w with context := change w.context } with ⟨result, w'⟩
  cases result <;> rfl

/-- From `w`, the watched program does to the state what the other program does, returns or raises
the same, and leaves the context as it was. -/
structure Erases (w : Watched σ χ ω) (x : Effect (Watched σ χ ω) ε α) (y : Effect σ ε α) :
    Prop where
  result : (exec x w).1 = (exec y w.state).1
  state : (exec x w).2.state = (exec y w.state).2
  context : (exec x w).2.context = w.context

section Rules

variable {w : Watched σ χ ω} {x : Effect (Watched σ χ ω) ε α} {y : Effect σ ε α}

theorem erases_pure (a : α) : Erases w (pure a) (pure a : Effect σ ε α) := ⟨rfl, rfl, rfl⟩

theorem erases_throw (e : ε) : Erases w (throw e) (throw e : Effect σ ε α) := ⟨rfl, rfl, rfl⟩

theorem erases_lift (r : Except ε α) : Erases w (lift r) (lift r : Effect σ ε α) :=
  ⟨rfl, rfl, rfl⟩

theorem erases_onState (y : Effect σ ε α) : Erases w (onState y) y := by
  constructor <;> simp only [exec_onState]

/-- In sequence. The second program starts where the first has left the state, in the same context.
-/
theorem Erases.bind {f : α → Effect (Watched σ χ ω) ε β} {g : α → Effect σ ε β}
    (hx : Erases w x y)
    (hf : ∀ a w', exec x w = (.ok a, w') → w'.context = w.context → Erases w' (f a) (g a)) :
    Erases w (x >>= f) (y >>= g) := by
  have hresult := hx.result
  have hstate := hx.state
  have hcontext := hx.context
  rcases hrun : exec x w with ⟨result, w'⟩
  rcases hplain : exec y w.state with ⟨result', s'⟩
  rw [hrun, hplain] at hresult hstate
  rw [hrun] at hcontext
  dsimp only at hresult hstate hcontext
  subst hresult hstate
  cases result with
  | error e => constructor <;> simp only [exec_bind, hrun, hplain, hcontext]
  | ok a =>
      have hnext := hf a w' hrun hcontext
      constructor
      · simp only [exec_bind, hrun, hplain]
        exact hnext.result
      · simp only [exec_bind, hrun, hplain]
        exact hnext.state
      · simp only [exec_bind, hrun]
        exact hnext.context.trans hcontext

/-- Emitting lines first makes no difference. -/
theorem erases_emit_bind {lines : χ → List ω}
    (hx : ∀ w', w'.context = w.context → w'.state = w.state → Erases w' x y) :
    Erases w (emit lines >>= fun _ => x) y := by
  have h := hx { w with emitted := w.emitted ++ lines w.context } rfl rfl
  constructor
  · simp only [exec_bind, exec_emit]
    exact h.result
  · simp only [exec_bind, exec_emit]
    exact h.state
  · simp only [exec_bind, exec_emit]
    exact h.context

/-- A handler. -/
theorem Erases.tryCatch {handler : ε → Effect (Watched σ χ ω) ε α} {handler' : ε → Effect σ ε α}
    (hx : Erases w x y)
    (hhandler : ∀ e w', exec x w = (.error e, w') → w'.context = w.context →
      Erases w' (handler e) (handler' e)) :
    Erases w (MonadExcept.tryCatch x handler) (MonadExcept.tryCatch y handler') := by
  have hresult := hx.result
  have hstate := hx.state
  have hcontext := hx.context
  rcases hrun : exec x w with ⟨result, w'⟩
  rcases hplain : exec y w.state with ⟨result', s'⟩
  rw [hrun, hplain] at hresult hstate
  rw [hrun] at hcontext
  dsimp only at hresult hstate hcontext
  subst hresult hstate
  cases result with
  | ok a => constructor <;> simp only [exec_tryCatch, hrun, hplain, hcontext]
  | error e =>
      have hnext := hhandler e w' hrun hcontext
      constructor
      · simp only [exec_tryCatch, hrun, hplain]
        exact hnext.result
      · simp only [exec_tryCatch, hrun, hplain]
        exact hnext.state
      · simp only [exec_tryCatch, hrun]
        exact hnext.context.trans hcontext

/-- A handler for some exceptions, which lets the others pass. -/
theorem Erases.orThrow {p : Prop} [Decidable p] {e : ε} (hx : Erases w x y) :
    Erases w (if p then x else throw e) (if p then y else throw e) := by
  by_cases h : p
  · rw [if_pos h, if_pos h]
    exact hx
  · rw [if_neg h, if_neg h]
    exact erases_throw e

/-- A handler that raises its exception again, behind some lines, makes no difference. -/
theorem Erases.rethrow {handler : ε → Effect (Watched σ χ ω) ε α} (hx : Erases w x y)
    (hhandler : ∀ e w', w'.context = w.context →
      Erases w' (handler e) (throw e : Effect σ ε α)) :
    Erases w (MonadExcept.tryCatch x handler) y := by
  have h := Erases.tryCatch hx fun e w' _ hcontext => hhandler e w' hcontext
  have hplain : exec (MonadExcept.tryCatch y fun e => throw e) w.state = exec y w.state := by
    rw [exec_tryCatch]
    rcases exec y w.state with ⟨result, s⟩
    cases result <;> rfl
  constructor
  · rw [h.result, hplain]
  · rw [h.state, hplain]
  · exact h.context

/-- A loop, turn by turn. -/
theorem Erases.mapM {f : α → Effect (Watched σ χ ω) ε β} {g : α → Effect σ ε β}
    (hf : ∀ a w', Erases w' (f a) (g a)) (items : List α) :
    Erases w (items.mapM f) (items.mapM g) := by
  induction items generalizing w with
  | nil => exact erases_pure _
  | cons a items ih =>
      rw [List.mapM_cons, List.mapM_cons]
      exact Erases.bind (hf a w) fun _ _ _ _ =>
        Erases.bind ih fun _ _ _ _ => erases_pure _

/-- A block in a changed context. -/
theorem erases_within {change : χ → χ}
    (hx : Erases { w with context := change w.context } x y) : Erases w (within change x) y := by
  constructor
  · simp only [exec_within]
    exact hx.result
  · simp only [exec_within]
    exact hx.state
  · simp only [exec_within]

end Rules

/-! ### What is emitted -/

/-- From `w`, every line that the program emits has the property, and the context stays. -/
structure Emits (P : ω → Prop) (w : Watched σ χ ω) (x : Effect (Watched σ χ ω) ε α) : Prop where
  context : (exec x w).2.context = w.context
  lines : ∃ new, (exec x w).2.emitted = w.emitted ++ new ∧ ∀ line ∈ new, P line

section Lines

variable {P : ω → Prop} {w : Watched σ χ ω} {x : Effect (Watched σ χ ω) ε α}

/-- A program that emits nothing. -/
theorem emits_nothing (hcontext : (exec x w).2.context = w.context)
    (hemitted : (exec x w).2.emitted = w.emitted) : Emits P w x :=
  ⟨hcontext, [], by rw [hemitted, List.append_nil], fun _ h => absurd h List.not_mem_nil⟩

theorem emits_pure (a : α) : Emits P w (pure a : Effect (Watched σ χ ω) ε α) :=
  emits_nothing rfl rfl

theorem emits_throw (e : ε) : Emits P w (throw e : Effect (Watched σ χ ω) ε α) :=
  emits_nothing rfl rfl

theorem emits_lift (r : Except ε α) : Emits P w (lift r : Effect (Watched σ χ ω) ε α) :=
  emits_nothing rfl rfl

theorem emits_onState (y : Effect σ ε α) : Emits P w (onState y) :=
  emits_nothing (by simp only [exec_onState]) (by simp only [exec_onState])

theorem emits_emit {lines : χ → List ω} (h : ∀ line ∈ lines w.context, P line) :
    Emits P w (emit lines : Effect (Watched σ χ ω) ε Unit) :=
  ⟨rfl, lines w.context, rfl, h⟩

theorem emits_scope_bind {f : χ → Effect (Watched σ χ ω) ε α} (h : Emits P w (f w.context)) :
    Emits P w (scope >>= f) :=
  ⟨h.context, h.lines⟩

/-- Two parts, one behind the other. -/
theorem Emits.append {w' : Watched σ χ ω} {y : Effect (Watched σ χ ω) ε β}
    (hx : (exec x w).2 = w') (h : Emits P w x) (h' : Emits P w' y) :
    ∃ new, (exec y w').2.emitted = w.emitted ++ new ∧ ∀ line ∈ new, P line := by
  subst hx
  obtain ⟨front, hfront, hP⟩ := h.lines
  obtain ⟨back, hback, hP'⟩ := h'.lines
  refine ⟨front ++ back, by rw [hback, hfront, List.append_assoc], fun line hline => ?_⟩
  rcases List.mem_append.mp hline with hline | hline
  · exact hP line hline
  · exact hP' line hline

theorem Emits.bind {f : α → Effect (Watched σ χ ω) ε β} (hx : Emits P w x)
    (hf : ∀ a w', exec x w = (.ok a, w') → w'.context = w.context → Emits P w' (f a)) :
    Emits P w (x >>= f) := by
  have hcontext := hx.context
  rcases hrun : exec x w with ⟨result, w'⟩
  rw [hrun] at hcontext
  have hstate : (exec x w).2 = w' := congrArg Prod.snd hrun
  cases result with
  | error e =>
      have hlines := hx.lines
      rw [hrun] at hlines
      constructor <;> simp only [exec_bind, hrun]
      · exact hcontext
      · exact hlines
  | ok a =>
      have hnext := hf a w' hrun hcontext
      have hlines := Emits.append hstate hx hnext
      constructor <;> simp only [exec_bind, hrun]
      · exact hnext.context.trans hcontext
      · exact hlines

theorem Emits.tryCatch {handler : ε → Effect (Watched σ χ ω) ε α} (hx : Emits P w x)
    (hhandler : ∀ e w', exec x w = (.error e, w') → w'.context = w.context →
      Emits P w' (handler e)) : Emits P w (MonadExcept.tryCatch x handler) := by
  have hcontext := hx.context
  rcases hrun : exec x w with ⟨result, w'⟩
  rw [hrun] at hcontext
  have hstate : (exec x w).2 = w' := congrArg Prod.snd hrun
  cases result with
  | ok a =>
      have hlines := hx.lines
      rw [hrun] at hlines
      constructor <;> simp only [exec_tryCatch, hrun]
      · exact hcontext
      · exact hlines
  | error e =>
      have hnext := hhandler e w' hrun hcontext
      have hlines := Emits.append hstate hx hnext
      constructor <;> simp only [exec_tryCatch, hrun]
      · exact hnext.context.trans hcontext
      · exact hlines

theorem emits_within {change : χ → χ} (hx : Emits P { w with context := change w.context } x) :
    Emits P w (within change x) := by
  have hlines := hx.lines
  constructor
  · simp only [exec_within]
  · simp only [exec_within]
    exact hlines

end Lines

end Watched
