import Mathlib.Algebra.BigOperators.Group.List.Lemmas
import Mathlib.Algebra.Order.Field.Rat
import Mathlib.Tactic.Ring

/-!
# `EvalOps.Lib.Repetition`: each element several times

`Repetition.each n xs` has every element of `xs` `n` times in a row. Repeating all observations
equally often changes no share and no mean: a count and a sum grow by the factor by which the
length grows.
-/

set_option autoImplicit false

namespace Repetition

variable {α β : Type}

/-- Every element `n` times. -/
def each (n : ℕ) (xs : List α) : List α := xs.flatMap (List.replicate n)

@[simp] theorem each_nil (n : ℕ) : each n ([] : List α) = [] := rfl

@[simp] theorem each_cons (n : ℕ) (x : α) (xs : List α) :
    each n (x :: xs) = List.replicate n x ++ each n xs := rfl

@[simp] theorem length_each (n : ℕ) (xs : List α) : (each n xs).length = n * xs.length := by
  induction xs with
  | nil => simp
  | cons x xs ih =>
      rw [each_cons, List.length_append, List.length_replicate, ih, List.length_cons]
      ring

/-- A repeated list has the same elements. -/
theorem mem_each {n : ℕ} (hn : 1 ≤ n) {xs : List α} {x : α} : x ∈ each n xs ↔ x ∈ xs := by
  have hne : n ≠ 0 := by omega
  simp [each, List.mem_flatMap, List.mem_replicate, hne]

theorem countP_each (p : α → Bool) (n : ℕ) (xs : List α) :
    (each n xs).countP p = n * xs.countP p := by
  induction xs with
  | nil => simp
  | cons x xs ih =>
      rw [each_cons, List.countP_append, List.countP_replicate, ih, List.countP_cons]
      split
      · ring
      · ring

theorem sum_each (n : ℕ) (xs : List ℚ) : (each n xs).sum = n * xs.sum := by
  induction xs with
  | nil => simp
  | cons x xs ih =>
      rw [each_cons, List.sum_append, List.sum_replicate, ih, List.sum_cons, nsmul_eq_mul]
      ring

theorem filterMap_each (f : α → Option β) (n : ℕ) (xs : List α) :
    (each n xs).filterMap f = each n (xs.filterMap f) := by
  induction xs with
  | nil => rfl
  | cons x xs ih =>
      rw [each_cons, List.filterMap_append, ih]
      cases h : f x with
      | none => rw [List.filterMap_replicate_of_none h, List.filterMap_cons_none h, List.nil_append]
      | some y => rw [List.filterMap_replicate_of_some h, List.filterMap_cons_some h, each_cons]

/-- A function that is constant in its second argument, over all pairs. -/
theorem flatMap_range_of_const {f : α → ℕ → β} {g : α → β} {n : ℕ} {xs : List α}
    (h : ∀ x ∈ xs, ∀ r < n, f x r = g x) :
    (xs.flatMap fun x => (List.range n).map (f x)) = each n (xs.map g) := by
  induction xs with
  | nil => rfl
  | cons x xs ih =>
      have hrow : (List.range n).map (f x) = List.replicate n (g x) := by
        rw [List.eq_replicate_iff, List.length_map, List.length_range]
        refine ⟨rfl, fun y hy => ?_⟩
        obtain ⟨r, hr, rfl⟩ := List.mem_map.mp hy
        exact h x List.mem_cons_self r (List.mem_range.mp hr)
      rw [List.flatMap_cons, hrow, ih fun x hx => h x (List.mem_cons_of_mem _ hx), List.map_cons,
        each_cons]

/-- The mean of repeated numbers is their mean. -/
theorem sum_div_length_each {n : ℕ} (hn : 1 ≤ n) (xs : List ℚ) :
    (each n xs).sum / (each n xs).length = xs.sum / xs.length := by
  have hpos : (n : ℚ) ≠ 0 := by
    have : n ≠ 0 := by omega
    exact_mod_cast this
  rw [sum_each, length_each, Nat.cast_mul, mul_div_mul_left _ _ hpos]

/-- The observations of a list that are all alike are repeated. -/
theorem filterMap_ite_eq_replicate {α β : Type} (p : α → Bool) (x : β) (xs : List α) :
    (xs.filterMap fun a => if p a then some x else none) = List.replicate (xs.countP p) x := by
  induction xs with
  | nil => rfl
  | cons a xs ih =>
      rw [List.filterMap_cons, List.countP_cons, ih]
      cases hp : p a <;> simp [List.replicate_succ]

end Repetition
