import EvalOps.Lib.ExceptRules
import EvalOps.Lib.Grouping

/-!
# `EvalOps.Lib.Positions`: a list stored as numbered rows

A table has no order, so a list is stored with the position of each element in its row, and read
back by position.

* `Positions.sortedOn_of_perm`: rows in whatever order they are stored come back in the order of the
  list.
* `Positions.readBack_number`: a codec of the elements is one of the list.
-/

set_option autoImplicit false

namespace Positions

variable {α ρ ε : Type}

/-- The rows of a list: each element with its position. -/
def number (row : α → ℕ → ρ) (xs : List α) : List ρ :=
  xs.zipIdx.map fun (x, position) => row x position

/-- The rows sorted by position, each decoded. -/
def readBack (position : ρ → ℕ) (decode : ρ → Except ε α) (rows : List ρ) : Except ε (List α) :=
  (Sorting.sortedOn position rows).mapM decode

variable {row : α → ℕ → ρ} {position : ρ → ℕ}

/-- The positions count upwards. -/
theorem number_pairwise (hposition : ∀ x k, position (row x k) = k) (xs : List α) :
    (number row xs).Pairwise fun a b => position a < position b := by
  have key : ∀ n, ((xs.zipIdx n).map fun (x, k) => row x k).Pairwise
      fun a b => position a < position b := by
    intro n
    induction xs generalizing n with
    | nil => exact List.Pairwise.nil
    | cons x xs ih =>
        rw [List.zipIdx_cons, List.map_cons, List.pairwise_cons]
        refine ⟨?_, ih (n + 1)⟩
        -- Every later row has a position from `n + 1` on.
        intro b hb
        obtain ⟨⟨y, k⟩, hmem, rfl⟩ := List.mem_map.mp hb
        have hle := List.le_snd_of_mem_zipIdx hmem
        rw [hposition, hposition]
        omega
  exact key 0

/-- Sorting by position restores the order, in whatever order the rows are stored. -/
theorem sortedOn_of_perm (hposition : ∀ x k, position (row x k) = k) {xs : List α}
    {rows : List ρ} (h : rows.Perm (number row xs)) :
    Sorting.sortedOn position rows = number row xs := by
  have hnumber := number_pairwise hposition xs
  have hperm := (Sorting.sortedOn_perm position rows).trans h
  -- The positions are distinct, so two rows at one position are one row.
  have hnodup : ((number row xs).map position).Nodup :=
    List.pairwise_map.mpr (hnumber.imp fun hlt => hlt.ne)
  have hanti : ∀ a b, a ∈ Sorting.sortedOn position rows → b ∈ number row xs →
      position a ≤ position b → position b ≤ position a → a = b := by
    intro a b ha hb hab hba
    exact List.inj_on_of_nodup_map hnodup (hperm.mem_iff.mp ha) hb (le_antisymm hab hba)
  exact List.Perm.eq_of_pairwise hanti (Sorting.sortedOn_pairwise position rows)
    (hnumber.imp fun hlt => hlt.le) hperm

/-- A loop over the elements with their positions that returns each element. -/
theorem mapM_number {decode : ρ → Except ε α} (hdecode : ∀ x k, decode (row x k) = .ok x)
    (xs : List α) : (number row xs).mapM decode = .ok xs := by
  have key : ∀ (xs : List α) (n : ℕ),
      List.Forall₂ (fun (a : α × ℕ) y => decode (row a.1 a.2) = .ok y) (xs.zipIdx n) xs := by
    intro xs
    induction xs with
    | nil =>
        intro n
        exact List.Forall₂.nil
    | cons x xs ih =>
        intro n
        rw [List.zipIdx_cons]
        exact List.Forall₂.cons (hdecode x n) (ih (n + 1))
  rw [number, ExceptRules.mapM_eq_ok_iff, List.forall₂_map_left_iff]
  exact key xs 0

/-- A list that is stored with its positions is read back. -/
theorem readBack_number {decode : ρ → Except ε α} (hposition : ∀ x k, position (row x k) = k)
    (hdecode : ∀ x k, decode (row x k) = .ok x) {xs : List α} {rows : List ρ}
    (h : rows.Perm (number row xs)) : readBack position decode rows = .ok xs := by
  rw [readBack, sortedOn_of_perm hposition h]
  exact mapM_number hdecode xs

end Positions
