import Mathlib.Data.List.Sort
import Mathlib.Data.List.Forall2
import Mathlib.Data.List.Nodup
import Mathlib.Order.Bounds.Basic

/-!
# `EvalOps.Lib.Sorting`: sorting by insertion

`Sorting.sorted` sorts a list over a linear order. Python's `sorted` is a stable sort, and over
a linear order every sort returns the same list.

* `Sorting.sorted_eq_of_perm`: a sorted list is the sort of each of its permutations.
* `Sorting.sorted_mono`: lists that are pointwise ordered stay so after sorting. The order
  statistics are monotone in the observations.
* `Sorting.isLeast_getElem_sorted`: an entry of the sort is the least observation that enough of
  the observations do not exceed.
-/

set_option autoImplicit false

namespace Sorting

variable {α : Type} [LinearOrder α]

/-- `sorted(xs)`. -/
def sorted (xs : List α) : List α := xs.insertionSort (· ≤ ·)

/-- The result is a permutation of the input. -/
theorem sorted_perm (xs : List α) : (sorted xs).Perm xs := List.perm_insertionSort _ xs

/-- The result is ordered. -/
theorem sorted_pairwise (xs : List α) : (sorted xs).Pairwise (· ≤ ·) :=
  List.pairwise_insertionSort _ xs

@[simp] theorem length_sorted (xs : List α) : (sorted xs).length = xs.length :=
  (sorted_perm xs).length_eq

@[simp] theorem mem_sorted {xs : List α} {x : α} : x ∈ sorted xs ↔ x ∈ xs :=
  (sorted_perm xs).mem_iff

theorem sorted_eq_nil_iff {xs : List α} : sorted xs = [] ↔ xs = [] := by
  rw [← List.length_eq_zero_iff, length_sorted, List.length_eq_zero_iff]

/-- An ordered list is the sort of each of its permutations. -/
theorem sorted_eq_of_perm {xs ys : List α} (hperm : xs.Perm ys) (hys : ys.Pairwise (· ≤ ·)) :
    sorted xs = ys :=
  List.Perm.eq_of_pairwise (fun _ _ _ _ => le_antisymm) (sorted_pairwise xs) hys
    ((sorted_perm xs).trans hperm)

/-- Distinct entries are strictly ordered. -/
theorem sorted_pairwise_lt {xs : List α} (h : xs.Nodup) : (sorted xs).Pairwise (· < ·) :=
  (sorted_pairwise xs).imp₂ (fun _ _ => lt_of_le_of_ne) ((sorted_perm xs).nodup_iff.mpr h)

/-- Sorting forgets the order of the input. -/
theorem sorted_congr {xs ys : List α} (h : xs.Perm ys) : sorted xs = sorted ys :=
  sorted_eq_of_perm (h.trans (sorted_perm ys).symm) (sorted_pairwise ys)

/-- An ordered list is its own sort. -/
theorem sorted_of_pairwise {xs : List α} (h : xs.Pairwise (· ≤ ·)) : sorted xs = xs :=
  sorted_eq_of_perm (List.Perm.refl xs) h

/-- Lists of which one lies below the other are sorted apart. -/
theorem sorted_append {xs ys : List α} (h : ∀ x ∈ xs, ∀ y ∈ ys, x ≤ y) :
    sorted (xs ++ ys) = sorted xs ++ sorted ys := by
  apply sorted_eq_of_perm ((sorted_perm xs).symm.append (sorted_perm ys).symm)
  rw [List.pairwise_append]
  exact ⟨sorted_pairwise xs, sorted_pairwise ys,
    fun x hx y hy => h x (mem_sorted.mp hx) y (mem_sorted.mp hy)⟩

/-- A monotone map commutes with sorting. -/
theorem sorted_map {β : Type} [LinearOrder β] {f : α → β} (hf : Monotone f) (xs : List α) :
    sorted (xs.map f) = (sorted xs).map f := by
  apply sorted_eq_of_perm ((sorted_perm xs).symm.map f)
  rw [List.pairwise_map]
  exact (sorted_pairwise xs).imp fun h => hf h

/-- An antitone map turns the sort around. -/
theorem sorted_map_antitone {β : Type} [LinearOrder β] {f : α → β} (hf : Antitone f)
    (xs : List α) : sorted (xs.map f) = ((sorted xs).map f).reverse := by
  apply sorted_eq_of_perm (((sorted_perm xs).symm.map f).trans (List.reverse_perm _).symm)
  rw [List.pairwise_reverse, List.pairwise_map]
  exact (sorted_pairwise xs).imp fun h => hf h

/-! ### Monotonicity -/

/-- A lower bound of a list is inserted at its front. -/
theorem orderedInsert_of_forall_le {a : α} {xs : List α} (h : ∀ x ∈ xs, a ≤ x) :
    xs.orderedInsert (· ≤ ·) a = a :: xs := by
  cases xs with
  | nil => rfl
  | cons x xs => exact List.orderedInsert_cons_of_le _ xs (h x List.mem_cons_self)

/-- An ordered insertion keeps a pointwise order. -/
theorem forall₂_orderedInsert {a b : α} (hab : a ≤ b) :
    ∀ {xs ys : List α}, List.Forall₂ (· ≤ ·) xs ys → xs.Pairwise (· ≤ ·) →
      ys.Pairwise (· ≤ ·) →
      List.Forall₂ (· ≤ ·) (xs.orderedInsert (· ≤ ·) a) (ys.orderedInsert (· ≤ ·) b) := by
  intro xs ys h
  induction h generalizing a b with
  | nil =>
      intro _ _
      exact List.Forall₂.cons hab List.Forall₂.nil
  | @cons x y xs ys hxy hrest ih =>
      intro hxs hys
      have hxs' := (List.pairwise_cons.mp hxs).2
      have hys' := (List.pairwise_cons.mp hys).2
      -- An insertion into the tail of an ordered list puts its own head back in front.
      have hx : xs.orderedInsert (· ≤ ·) x = x :: xs :=
        orderedInsert_of_forall_le (List.pairwise_cons.mp hxs).1
      have hy : ys.orderedInsert (· ≤ ·) y = y :: ys :=
        orderedInsert_of_forall_le (List.pairwise_cons.mp hys).1
      by_cases hax : a ≤ x
      · rw [List.orderedInsert_cons_of_le _ _ hax]
        by_cases hby : b ≤ y
        · rw [List.orderedInsert_cons_of_le _ _ hby]
          exact List.Forall₂.cons hab (List.Forall₂.cons hxy hrest)
        · have hyb : y ≤ b := le_of_not_ge hby
          rw [List.orderedInsert_of_not_le _ _ hby, ← hx]
          exact List.Forall₂.cons (hax.trans hxy) (ih (hxy.trans hyb) hxs' hys')
      · have hxa : x ≤ a := le_of_not_ge hax
        rw [List.orderedInsert_of_not_le _ _ hax]
        by_cases hby : b ≤ y
        · rw [List.orderedInsert_cons_of_le _ _ hby, ← hy]
          exact List.Forall₂.cons (hxa.trans hab) (ih (hab.trans hby) hxs' hys')
        · rw [List.orderedInsert_of_not_le _ _ hby]
          exact List.Forall₂.cons hxy (ih hab hxs' hys')

/-- Sorting keeps a pointwise order. -/
theorem sorted_mono {xs ys : List α} (h : List.Forall₂ (· ≤ ·) xs ys) :
    List.Forall₂ (· ≤ ·) (sorted xs) (sorted ys) := by
  induction h with
  | nil => exact List.Forall₂.nil
  | @cons x y xs ys hxy _ ih =>
      exact forall₂_orderedInsert hxy ih (sorted_pairwise xs) (sorted_pairwise ys)

/-! ### Order statistics -/

/-- An entry of an ordered list is at most `v` exactly when more entries than its index are. -/
theorem getElem_le_iff_lt_countP {ys : List α} (h : ys.Pairwise (· ≤ ·)) (v : α) {i : ℕ}
    (hi : i < ys.length) : ys[i] ≤ v ↔ i < ys.countP fun y => decide (y ≤ v) := by
  induction ys generalizing i with
  | nil => exact absurd hi (Nat.not_lt_zero i)
  | cons y ys ih =>
      have hhead := (List.pairwise_cons.mp h).1
      have htail := (List.pairwise_cons.mp h).2
      by_cases hy : y ≤ v
      · rw [List.countP_cons_of_pos (by simpa using hy)]
        cases i with
        | zero => simp [hy]
        | succ i =>
            have hlt : i < ys.length := by simpa using hi
            rw [List.getElem_cons_succ, ih htail hlt]
            omega
      · -- The entries after one above `v` are above `v` too.
        have hnone : (y :: ys).countP (fun y => decide (y ≤ v)) = 0 := by
          rw [List.countP_eq_zero]
          intro x hx
          rw [decide_eq_true_eq]
          rcases List.mem_cons.mp hx with rfl | hx
          · exact hy
          · exact fun hxv => hy ((hhead x hx).trans hxv)
        rw [hnone]
        refine iff_of_false ?_ (Nat.not_lt_zero i)
        have hle : y ≤ (y :: ys)[i] := by
          cases i with
          | zero => exact le_refl y
          | succ i => exact hhead _ (List.getElem_mem _)
        exact fun hiv => hy (hle.trans hiv)

/-- The entry `i` of the sort is the least observation that more than `i` observations do not
exceed. -/
theorem isLeast_getElem_sorted (xs : List α) {i : ℕ} (hi : i < (sorted xs).length) :
    IsLeast {v | v ∈ xs ∧ i < xs.countP fun x => decide (x ≤ v)} (sorted xs)[i] := by
  have hcount : ∀ v, i < (xs.countP fun x => decide (x ≤ v)) ↔ (sorted xs)[i] ≤ v := by
    intro v
    rw [getElem_le_iff_lt_countP (sorted_pairwise xs) v hi, (sorted_perm xs).countP_eq]
  constructor
  · exact ⟨mem_sorted.mp (List.getElem_mem hi), (hcount _).mpr (le_refl _)⟩
  · intro v hv
    exact (hcount v).mp hv.2

end Sorting
