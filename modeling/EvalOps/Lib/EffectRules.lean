import EvalOps.Lib.ExceptRules
import Mathlib.Data.List.Range

/-!
# `EvalOps.Lib.EffectRules`: programs that may raise and keep their effects

`Effect σ ε α` is a program over a state `σ` that returns or raises, and keeps the effects it
had when it raises. `Effect.exec` runs it. The state can be a log or a counter of calls to the
outside.

* `Effect.exec_bind`: a sequence stops at the first exception.
* `Effect.mapM_forall₂`: the results of a collecting loop, element by element.
* `Effect.mapM_invariant`: a relation between states that each turn keeps and that composes is
  kept by the loop.
-/

set_option autoImplicit false

/-- A program that may raise, over a state that survives the exception. -/
abbrev Effect (σ ε α : Type) := ExceptT ε (StateM σ) α

namespace Effect

variable {σ ε α β : Type}

/-- Runs a program from a state. -/
def exec (x : Effect σ ε α) (s : σ) : Except ε α × σ := (ExceptT.run x).run s

/-- A pure computation that may raise, as a program without effects. -/
def lift (x : Except ε α) : Effect σ ε α := ExceptT.mk (pure x)

@[simp] theorem exec_pure (a : α) (s : σ) : exec (pure a : Effect σ ε α) s = (.ok a, s) := rfl

@[simp] theorem exec_throw (e : ε) (s : σ) :
    exec (throw e : Effect σ ε α) s = (.error e, s) := rfl

@[simp] theorem exec_get (s : σ) : exec (get : Effect σ ε σ) s = (.ok s, s) := rfl

@[simp] theorem exec_set (s t : σ) : exec (set t : Effect σ ε PUnit) s = (.ok ⟨⟩, t) := rfl

@[simp] theorem exec_lift (x : Except ε α) (s : σ) : exec (lift x) s = (x, s) := rfl

/-- A sequence runs its rest from the state its first part leaves, unless that part raised. -/
theorem exec_bind (x : Effect σ ε α) (f : α → Effect σ ε β) (s : σ) :
    exec (x >>= f) s =
      match exec x s with
      | (.ok a, s') => exec (f a) s'
      | (.error e, s') => (.error e, s') := by
  simp only [exec, ExceptT.run_bind, StateT.run_bind]
  rcases hx : (ExceptT.run x).run s with ⟨r, s'⟩
  cases r <;> rfl

/-- A sequence returns when its first part returns and the rest returns from there. -/
theorem exec_bind_eq_ok {x : Effect σ ε α} {f : α → Effect σ ε β} {s t : σ} {b : β} :
    exec (x >>= f) s = (.ok b, t) ↔
      ∃ a s', exec x s = (.ok a, s') ∧ exec (f a) s' = (.ok b, t) := by
  rw [exec_bind]
  rcases exec x s with ⟨r, s'⟩
  cases r with
  | error e =>
      constructor
      · intro h
        exact nomatch h
      · rintro ⟨a, s'', h, _⟩
        exact nomatch h
  | ok a =>
      constructor
      · intro h
        exact ⟨a, s', rfl, h⟩
      · rintro ⟨a', s'', h, hf⟩
        cases h
        exact hf

/-- A sequence whose first part has no effects. -/
theorem exec_lift_bind_eq_ok {x : Except ε α} {f : α → Effect σ ε β} {s t : σ} {b : β} :
    exec (lift x >>= f) s = (.ok b, t) ↔ ∃ a, x = .ok a ∧ exec (f a) s = (.ok b, t) := by
  rw [exec_bind_eq_ok]
  constructor
  · rintro ⟨a, s', hx, hf⟩
    rw [exec_lift] at hx
    cases hx
    exact ⟨a, rfl, hf⟩
  · rintro ⟨a, rfl, hf⟩
    exact ⟨a, s, rfl, hf⟩

/-- A pure computation may be taken apart before it becomes a program. -/
theorem lift_bind (x : Except ε α) (f : α → Except ε β) :
    (lift (x >>= f) : Effect σ ε β) = lift x >>= fun a => lift (f a) := by
  cases x <;> rfl

/-- A pure loop is a loop of pure computations. -/
theorem lift_forM (f : α → Except ε PUnit) (xs : List α) :
    (lift (xs.forM f) : Effect σ ε PUnit) = xs.forM fun x => lift (f x) := by
  induction xs with
  | nil => rfl
  | cons x xs ih =>
      change lift (f x >>= fun _ => xs.forM f) = _
      rw [lift_bind]
      exact congrArg _ (funext fun _ => ih)

/-- A handler runs from the state that the exception left. -/
theorem exec_tryCatch (x : Effect σ ε α) (handler : ε → Effect σ ε α) (s : σ) :
    exec (tryCatch x handler) s =
      match exec x s with
      | (.ok a, s') => (.ok a, s')
      | (.error e, s') => exec (handler e) s' := by
  simp only [exec, tryCatch, tryCatchThe, MonadExceptOf.tryCatch, ExceptT.tryCatch, ExceptT.run,
    ExceptT.mk, StateT.run_bind]
  rcases hx : StateT.run (m := Id) x s with ⟨r, s'⟩
  cases r <;> rfl

/-- The loop over a nonempty list. -/
theorem exec_mapM_cons_eq_ok {f : α → Effect σ ε β} {x : α} {xs : List α} {s t : σ}
    {ys : List β} :
    exec ((x :: xs).mapM f) s = (.ok ys, t) ↔
      ∃ y s' rest, exec (f x) s = (.ok y, s') ∧ exec (xs.mapM f) s' = (.ok rest, t) ∧
        ys = y :: rest := by
  rw [List.mapM_cons, exec_bind_eq_ok]
  constructor
  · rintro ⟨y, s', hy, htail⟩
    obtain ⟨rest, s'', hrest, hpure⟩ := exec_bind_eq_ok.mp htail
    rw [exec_pure] at hpure
    cases hpure
    exact ⟨y, s', rest, hy, hrest, rfl⟩
  · rintro ⟨y, s', rest, hy, hrest, rfl⟩
    exact ⟨y, s', hy, exec_bind_eq_ok.mpr ⟨rest, t, hrest, rfl⟩⟩

/-- The results of a loop, element by element. -/
theorem mapM_forall₂ {f : α → Effect σ ε β} {R : α → β → Prop}
    (hstep : ∀ x s y t, exec (f x) s = (.ok y, t) → R x y) :
    ∀ {xs : List α} {s t : σ} {ys : List β}, exec (xs.mapM f) s = (.ok ys, t) →
      List.Forall₂ R xs ys := by
  intro xs
  induction xs with
  | nil =>
      intro s t ys h
      rw [List.mapM_nil, exec_pure] at h
      cases h
      exact List.Forall₂.nil
  | cons x xs ih =>
      intro s t ys h
      obtain ⟨y, s', rest, hy, hrest, rfl⟩ := exec_mapM_cons_eq_ok.mp h
      exact List.Forall₂.cons (hstep x s y s' hy) (ih hrest)

/-- A relation between the state before, the state after and the results, which holds of no
results, which each turn establishes and which composes, holds of the loop. -/
theorem mapM_invariant {f : α → Effect σ ε β} {I : σ → σ → List β → Prop}
    (hnil : ∀ s, I s s [])
    (hstep : ∀ x s y t, exec (f x) s = (.ok y, t) → I s t [y])
    (hcomp : ∀ s t u ys zs, I s t ys → I t u zs → I s u (ys ++ zs)) :
    ∀ {xs : List α} {s t : σ} {ys : List β}, exec (xs.mapM f) s = (.ok ys, t) → I s t ys := by
  intro xs
  induction xs with
  | nil =>
      intro s t ys h
      rw [List.mapM_nil, exec_pure] at h
      cases h
      exact hnil s
  | cons x xs ih =>
      intro s t ys h
      obtain ⟨y, s', rest, hy, hrest, rfl⟩ := exec_mapM_cons_eq_ok.mp h
      exact hcomp s s' t [y] rest (hstep x s y s' hy) (ih hrest)

/-- A loop whose turns always return, returns. -/
theorem exec_mapM_isOk {f : α → Effect σ ε β} {xs : List α}
    (h : ∀ x ∈ xs, ∀ s, ∃ y t, exec (f x) s = (.ok y, t)) (s : σ) :
    ∃ ys t, exec (xs.mapM f) s = (.ok ys, t) := by
  induction xs generalizing s with
  | nil => exact ⟨[], s, rfl⟩
  | cons x xs ih =>
      obtain ⟨y, s', hy⟩ := h x List.mem_cons_self s
      obtain ⟨ys, t, hys⟩ := ih (fun x hx => h x (List.mem_cons_of_mem _ hx)) s'
      exact ⟨y :: ys, t, exec_mapM_cons_eq_ok.mpr ⟨y, s', ys, hy, hys, rfl⟩⟩

/-- A loop whose turns each add `d` to a counter while it stays within a bound. -/
theorem exec_mapM_counts {f : α → Effect ℕ ε β} {d bound : ℕ} {xs : List α}
    (h : ∀ x ∈ xs, ∀ k, k + d ≤ bound → ∃ y, exec (f x) k = (.ok y, k + d)) {s : ℕ}
    (hs : s + xs.length * d ≤ bound) :
    ∃ ys, exec (xs.mapM f) s = (.ok ys, s + xs.length * d) := by
  induction xs generalizing s with
  | nil => exact ⟨[], by simp⟩
  | cons x xs ih =>
      rw [List.length_cons, Nat.succ_mul] at hs ⊢
      obtain ⟨y, hy⟩ := h x List.mem_cons_self s (by omega)
      obtain ⟨ys, hys⟩ := ih (fun x hx => h x (List.mem_cons_of_mem _ hx)) (s := s + d) (by omega)
      refine ⟨y :: ys, exec_mapM_cons_eq_ok.mpr ⟨y, s + d, ys, hy, ?_, rfl⟩⟩
      rw [hys]
      congr 1
      omega

/-- A loop whose turn from `k` gives `g x k` and counts one returns exactly when every turn does. -/
theorem exec_mapM_isOk_iff {f : α → Effect ℕ ε β} {g : α → ℕ → Except ε β} {xs : List α}
    (h : ∀ x ∈ xs, ∀ k, exec (f x) k = (g x k, k + 1)) {s : ℕ} :
    (∃ ys t, exec (xs.mapM f) s = (.ok ys, t)) ↔
      ∀ i, ∀ hi : i < xs.length, ∃ y, g xs[i] (s + i) = .ok y := by
  induction xs generalizing s with
  | nil => exact iff_of_true ⟨[], s, rfl⟩ fun i hi => absurd hi (Nat.not_lt_zero i)
  | cons x xs ih =>
      have hfirst := h x List.mem_cons_self s
      have hrest := ih (fun x hx => h x (List.mem_cons_of_mem _ hx)) (s := s + 1)
      constructor
      · rintro ⟨_, t, hall⟩
        obtain ⟨y, s', ys, hy, hys, _⟩ := exec_mapM_cons_eq_ok.mp hall
        rw [hfirst] at hy
        obtain ⟨hok, rfl⟩ := Prod.mk.inj hy
        intro i hi
        cases i with
        | zero => exact ⟨y, hok⟩
        | succ i =>
            have := hrest.mp ⟨ys, t, hys⟩ i (Nat.lt_of_succ_lt_succ hi)
            rwa [Nat.add_assoc, Nat.add_comm 1] at this
      · intro hall
        obtain ⟨y, hy⟩ := hall 0 (Nat.succ_pos _)
        obtain ⟨ys, t, hys⟩ := hrest.mpr fun i hi => by
          rw [Nat.add_assoc, Nat.add_comm 1]
          exact hall (i + 1) (Nat.succ_lt_succ hi)
        refine ⟨y :: ys, t, exec_mapM_cons_eq_ok.mpr ⟨y, s + 1, ys, ?_, hys, rfl⟩⟩
        rw [hfirst]
        exact congrArg (·, s + 1) hy

/-- A sequence raises when its first part raises, or its rest does from there. -/
theorem exec_bind_eq_error {x : Effect σ ε α} {f : α → Effect σ ε β} {s t : σ} {e : ε} :
    exec (x >>= f) s = (.error e, t) ↔
      exec x s = (.error e, t) ∨
        ∃ a s', exec x s = (.ok a, s') ∧ exec (f a) s' = (.error e, t) := by
  rw [exec_bind]
  rcases exec x s with ⟨r, s'⟩
  cases r <;> simp

/-- A sequence whose first part has no effects raises. -/
theorem exec_lift_bind_eq_error {x : Except ε α} {f : α → Effect σ ε β} {s t : σ} {e : ε} :
    exec (lift x >>= f) s = (.error e, t) ↔
      (x = .error e ∧ s = t) ∨ ∃ a, x = .ok a ∧ exec (f a) s = (.error e, t) := by
  rw [exec_bind_eq_error]
  simp

/-- The loop over a nonempty list raises in its first turn, or in a later one. -/
theorem exec_mapM_cons_eq_error {f : α → Effect σ ε β} {x : α} {xs : List α} {s t : σ} {e : ε} :
    exec ((x :: xs).mapM f) s = (.error e, t) ↔
      exec (f x) s = (.error e, t) ∨
        ∃ y s', exec (f x) s = (.ok y, s') ∧ exec (xs.mapM f) s' = (.error e, t) := by
  rw [List.mapM_cons, exec_bind_eq_error]
  refine or_congr Iff.rfl ?_
  constructor
  · rintro ⟨y, s', hy, htail⟩
    rcases exec_bind_eq_error.mp htail with hrest | ⟨_, _, _, hpure⟩
    · exact ⟨y, s', hy, hrest⟩
    · exact nomatch hpure
  · rintro ⟨y, s', hy, hrest⟩
    exact ⟨y, s', hy, exec_bind_eq_error.mpr (Or.inl hrest)⟩

/-- A loop raises in one of its turns, after the turns before it have returned. -/
theorem exec_mapM_eq_error {f : α → Effect σ ε β} {xs : List α} {s t : σ} {e : ε} :
    exec (xs.mapM f) s = (.error e, t) ↔
      ∃ before x after ys s', xs = before ++ x :: after ∧
        exec (before.mapM f) s = (.ok ys, s') ∧ exec (f x) s' = (.error e, t) := by
  induction xs generalizing s with
  | nil => simp
  | cons x xs ih =>
      rw [exec_mapM_cons_eq_error]
      constructor
      · rintro (hx | ⟨y, s', hy, hrest⟩)
        · exact ⟨[], x, xs, [], s, rfl, rfl, hx⟩
        · obtain ⟨before, z, after, ys, s'', rfl, hbefore, hz⟩ := ih.mp hrest
          exact ⟨x :: before, z, after, y :: ys, s'', rfl,
            exec_mapM_cons_eq_ok.mpr ⟨y, s', ys, hy, hbefore, rfl⟩, hz⟩
      · rintro ⟨before, z, after, ys, s', hsplit, hbefore, hz⟩
        cases before with
        | nil =>
            cases hsplit
            rw [List.mapM_nil, exec_pure] at hbefore
            cases hbefore
            exact Or.inl hz
        | cons b before =>
            cases hsplit
            obtain ⟨y, s₁, rest, hy, hrest, rfl⟩ := exec_mapM_cons_eq_ok.mp hbefore
            exact Or.inr ⟨y, s₁, hy, ih.mpr ⟨before, z, after, rest, s', rfl, hrest, hz⟩⟩

end Effect
