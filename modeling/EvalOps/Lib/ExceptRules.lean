import Mathlib.Data.List.Forall2

/-!
# `EvalOps.Lib.ExceptRules`: programs that may raise

Rules for computations in `Except`, where `ok` is a normal return and `error` an exception.
A program that returns is peeled apart with `ExceptRules.bind_eq_ok`, and a loop that collects
results with `ExceptRules.mapM_eq_ok_iff`.
-/

set_option autoImplicit false

namespace ExceptRules

variable {ε α β γ : Type}

@[simp] theorem ok_bind (a : α) (f : α → Except ε β) : (Except.ok a >>= f) = f a := rfl

@[simp] theorem error_bind (e : ε) (f : α → Except ε β) :
    ((Except.error e : Except ε α) >>= f) = Except.error e := rfl

@[simp] theorem pure_eq_ok (a : α) : (pure a : Except ε α) = Except.ok a := rfl

@[simp] theorem throw_eq_error (e : ε) : (throw e : Except ε α) = Except.error e := rfl

/-- A sequence returns when its first part returns and the rest returns from there. -/
theorem bind_eq_ok {x : Except ε α} {f : α → Except ε β} {b : β} :
    (x >>= f) = Except.ok b ↔ ∃ a, x = Except.ok a ∧ f a = Except.ok b := by
  cases x with
  | error e =>
      constructor
      · intro h
        exact nomatch h
      · rintro ⟨a, h, _⟩
        exact nomatch h
  | ok a =>
      constructor
      · intro h
        exact ⟨a, rfl, h⟩
      · rintro ⟨a', h, hf⟩
        cases h
        exact hf

/-- A function of the result of a sequence acts on its last part. -/
theorem map_bind (x : Except ε α) (f : α → Except ε β) (g : β → γ) :
    (x >>= f).map g = x >>= fun a => (f a).map g := by
  cases x <;> rfl

/-- A function of a result returns when the result is there. -/
theorem map_eq_ok {x : Except ε α} {f : α → β} {b : β} :
    x.map f = Except.ok b ↔ ∃ a, x = Except.ok a ∧ f a = b := by
  cases x <;> simp [Except.map]

theorem map_eq_error {x : Except ε α} {f : α → β} {e : ε} :
    x.map f = Except.error e ↔ x = Except.error e := by
  cases x <;> simp [Except.map]

/-- What a computation returns, without its error. -/
theorem toOption_eq_some {x : Except ε α} {a : α} : x.toOption = some a ↔ x = Except.ok a := by
  cases x <;> simp [Except.toOption]

/-- A guard in front of a computation: both must pass. -/
theorem guard_then_eq_ok {p : Prop} [Decidable p] {e : ε} {x : Except ε α} {a : α} :
    (if p then Except.error e else x) = Except.ok a ↔ ¬p ∧ x = Except.ok a := by
  by_cases h : p <;> simp [h]

/-- A collecting loop returns exactly when each element returns, with the results in order. -/
theorem mapM_eq_ok_iff {f : α → Except ε β} {xs : List α} {ys : List β} :
    xs.mapM f = Except.ok ys ↔ List.Forall₂ (fun x y => f x = Except.ok y) xs ys := by
  induction xs generalizing ys with
  | nil =>
      rw [List.mapM_nil, pure_eq_ok, Except.ok.injEq, List.forall₂_nil_left_iff]
      exact eq_comm
  | cons x xs ih =>
      rw [List.mapM_cons, bind_eq_ok]
      constructor
      · rintro ⟨y, hy, htail⟩
        obtain ⟨rest, hrest, hys⟩ := bind_eq_ok.mp htail
        cases hys
        exact List.Forall₂.cons hy (ih.mp hrest)
      · intro h
        cases h with
        | @cons _ y _ rest hy hrest =>
            exact ⟨y, hy, by rw [ih.mpr hrest]; rfl⟩

/-- A collecting loop over a function that always returns. -/
theorem mapM_eq_ok_map {f : α → Except ε β} {g : α → β} {xs : List α}
    (h : ∀ x ∈ xs, f x = Except.ok (g x)) : xs.mapM f = Except.ok (xs.map g) := by
  rw [mapM_eq_ok_iff, List.forall₂_map_right_iff, List.forall₂_same]
  exact h

/-- A collecting loop over encoded values, each of which is decoded again. -/
theorem mapM_decode_eq_ok {encode : α → β} {decode : β → Except ε α} {xs : List α}
    (h : ∀ x ∈ xs, decode (encode x) = Except.ok x) :
    (xs.map encode).mapM decode = Except.ok xs := by
  rw [mapM_eq_ok_iff, List.forall₂_map_left_iff, List.forall₂_same]
  exact h

/-- A collecting loop in which each element returns something with a known image. -/
theorem exists_mapM_eq_ok {f : α → Except ε β} {g : β → γ} {h : α → γ} {xs : List α}
    (hf : ∀ x ∈ xs, ∃ y, f x = Except.ok y ∧ g y = h x) :
    ∃ ys, xs.mapM f = Except.ok ys ∧ ys.map g = xs.map h := by
  induction xs with
  | nil => exact ⟨[], rfl, rfl⟩
  | cons x xs ih =>
      obtain ⟨y, hy, hgy⟩ := hf x List.mem_cons_self
      obtain ⟨ys, hys, hgys⟩ := ih fun x hx => hf x (List.mem_cons_of_mem _ hx)
      refine ⟨y :: ys, ?_, ?_⟩
      · rw [List.mapM_cons, hy, ok_bind, hys]
        rfl
      · rw [List.map_cons, List.map_cons, hgy, hgys]

/-- A collecting loop returns exactly when each element returns. -/
theorem exists_mapM_eq_ok_iff {f : α → Except ε β} {xs : List α} :
    (∃ ys, xs.mapM f = Except.ok ys) ↔ ∀ x ∈ xs, ∃ y, f x = Except.ok y := by
  constructor
  · rintro ⟨ys, h⟩ x hx
    have hall := mapM_eq_ok_iff.mp h
    clear h
    induction hall with
    | nil => exact nomatch hx
    | @cons z y zs ys hz _ ih =>
        rcases List.mem_cons.mp hx with rfl | hx
        · exact ⟨y, hz⟩
        · exact ih hx
  · intro h
    obtain ⟨ys, hys, _⟩ := exists_mapM_eq_ok (g := fun _ => ()) (h := fun _ : α => ())
      fun x hx => (h x hx).imp fun y hy => ⟨hy, rfl⟩
    exact ⟨ys, hys⟩

/-- Collecting loops over functions that agree on the elements. -/
theorem mapM_congr {f g : α → Except ε β} {xs : List α} (h : ∀ x ∈ xs, f x = g x) :
    xs.mapM f = xs.mapM g := by
  induction xs with
  | nil => rfl
  | cons x xs ih =>
      rw [List.mapM_cons, List.mapM_cons, h x List.mem_cons_self,
        ih fun x hx => h x (List.mem_cons_of_mem _ hx)]

/-- A checking loop passes exactly when each element passes. -/
theorem forM_eq_ok_iff {f : α → Except ε Unit} {xs : List α} :
    xs.forM f = Except.ok () ↔ ∀ x ∈ xs, f x = Except.ok () := by
  induction xs with
  | nil => exact ⟨fun _ _ hx => absurd hx List.not_mem_nil, fun _ => rfl⟩
  | cons x xs ih =>
      rw [List.forM, bind_eq_ok, List.forall_mem_cons]
      constructor
      · rintro ⟨_, hx, hrest⟩
        exact ⟨hx, ih.mp hrest⟩
      · rintro ⟨hx, hrest⟩
        exact ⟨(), hx, ih.mpr hrest⟩

/-- A folding loop over a step that always returns. -/
theorem foldlM_eq_ok {f : β → α → Except ε β} {g : β → α → β} {xs : List α}
    (h : ∀ b, ∀ a ∈ xs, f b a = Except.ok (g b a)) (b : β) :
    xs.foldlM f b = Except.ok (xs.foldl g b) := by
  induction xs generalizing b with
  | nil => rfl
  | cons x xs ih =>
      rw [List.foldlM_cons, h b x List.mem_cons_self, ok_bind, List.foldl_cons]
      exact ih (fun b a ha => h b a (List.mem_cons_of_mem x ha)) (g b x)

end ExceptRules
