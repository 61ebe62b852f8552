import Mathlib.Algebra.Order.Floor.Ring
import Mathlib.Algebra.Order.Field.Basic
import Mathlib.Data.List.Forall2
import Mathlib.Data.List.GetD
import Mathlib.Data.List.Pairwise
import Mathlib.Tactic.Linarith
import Mathlib.Tactic.Ring

/-!
# `EvalOps.Lib.Interpolation`: linear interpolation between list entries

`Interpolation.value xs pos` reads the list `xs` at a fractional position. Between two neighbours
it is the straight line through them. Over an ordered list this is the interpolated quantile.

* `Interpolation.value_mono`: the value is monotone in the entries.
* `Interpolation.value_le_value`: over an ordered list it is monotone in the position.
* `Interpolation.value_replicate`: a constant list has its constant at every position.
* `Interpolation.value_reverse`: the reversed list is read from the other end.
-/

set_option autoImplicit false

namespace Interpolation

/-- The entry of `xs` at an integer position, `0` out of range. -/
def entry {K : Type} [Zero K] (xs : List K) (i : ℤ) : K := xs.getD i.toNat 0

/-- Pointwise ordered lists have ordered entries. -/
theorem entry_mono {K : Type} [Zero K] [Preorder K] {xs ys : List K}
    (h : List.Forall₂ (· ≤ ·) xs ys) (i : ℤ) :
    entry xs i ≤ entry ys i := by
  unfold entry
  generalize i.toNat = n
  induction h generalizing n with
  | nil => simp
  | cons hxy _ ih =>
      cases n with
      | zero => simpa using hxy
      | succ n => simpa using ih n

/-- The entries of an ordered list are ordered. -/
theorem entry_le_entry {K : Type} [Zero K] [Preorder K] {xs : List K}
    (hxs : xs.Pairwise (· ≤ ·)) {i j : ℤ} (h0 : 0 ≤ i) (hij : i ≤ j) (hj : j < xs.length) :
    entry xs i ≤ entry xs j := by
  have hi : i.toNat < xs.length := by omega
  have hj' : j.toNat < xs.length := by omega
  unfold entry
  rw [List.getD_eq_getElem _ _ hi, List.getD_eq_getElem _ _ hj']
  exact hxs.rel_get_of_le (a := ⟨i.toNat, hi⟩) (b := ⟨j.toNat, hj'⟩)
    (Fin.mk_le_mk.mpr (by omega))

/-- Scaling the list scales its entries. -/
theorem entry_map_mul {K : Type} [MulZeroClass K] (c : K) (xs : List K) (i : ℤ) :
    entry (xs.map (c * ·)) i = c * entry xs i := by
  have h := List.getD_map (l := xs) (d := 0) (n := i.toNat) (c * ·)
  rw [mul_zero] at h
  exact h

/-- A reversed list has the entries of the list from the other end. -/
theorem entry_reverse {K : Type} [Zero K] {xs : List K} {i : ℤ} (h0 : 0 ≤ i)
    (hi : i < xs.length) :
    entry xs.reverse i = entry xs ((xs.length : ℤ) - 1 - i) := by
  have hlt : i.toNat < xs.length := by omega
  have hlt' : ((xs.length : ℤ) - 1 - i).toNat < xs.length := by omega
  unfold entry
  rw [List.getD_eq_getElem _ _ (by simpa using hlt), List.getD_eq_getElem _ _ hlt',
    List.getElem_reverse]
  congr 1
  omega

variable {K : Type} [Field K] [LinearOrder K] [FloorRing K]

/-- The value of `xs` at the fractional position `pos`. -/
def value (xs : List K) (pos : K) : K :=
  entry xs ⌊pos⌋ + (entry xs ⌈pos⌉ - entry xs ⌊pos⌋) * (pos - ⌊pos⌋)

/-- The value as the weighted mean of the two neighbours. -/
theorem value_eq_weighted (xs : List K) (pos : K) :
    value xs pos
      = (1 - (pos - ⌊pos⌋)) * entry xs ⌊pos⌋ + (pos - ⌊pos⌋) * entry xs ⌈pos⌉ := by
  unfold value
  ring

/-- Scaling the list scales the value at every position. -/
theorem value_map_mul (c : K) (xs : List K) (pos : K) :
    value (xs.map (c * ·)) pos = c * value xs pos := by
  unfold value
  simp only [entry_map_mul]
  ring

variable [IsStrictOrderedRing K]

/-- The distance to the floor is a weight between `0` and `1`. -/
theorem fract_mem (pos : K) : 0 ≤ pos - ⌊pos⌋ ∧ pos - ⌊pos⌋ ≤ 1 :=
  ⟨sub_nonneg.mpr (Int.floor_le pos), by linarith [Int.lt_floor_add_one pos]⟩

/-- The value is monotone in the entries. -/
theorem value_mono {xs ys : List K} (h : List.Forall₂ (· ≤ ·) xs ys) (pos : K) :
    value xs pos ≤ value ys pos := by
  obtain ⟨hlow, hhigh⟩ := fract_mem pos
  rw [value_eq_weighted, value_eq_weighted]
  exact add_le_add
    (mul_le_mul_of_nonneg_left (entry_mono h _) (sub_nonneg.mpr hhigh))
    (mul_le_mul_of_nonneg_left (entry_mono h _) hlow)

/-- A constant list has its constant at every position in range. -/
theorem value_replicate {n : ℕ} {d pos : K} (hlow : 0 ≤ pos) (hhigh : ⌈pos⌉ < n) :
    value (List.replicate n d) pos = d := by
  have hentry : ∀ i : ℤ, 0 ≤ i → i < n → entry (List.replicate n d) i = d := by
    intro i h0 hn
    unfold entry
    have hi : i.toNat < n := by omega
    simp [List.getD_eq_getElem?_getD, hi]
  have hfloor : ⌊pos⌋ ≤ ⌈pos⌉ := Int.floor_le_ceil pos
  rw [value_eq_weighted, hentry ⌊pos⌋ (Int.floor_nonneg.mpr hlow) (by omega),
    hentry ⌈pos⌉ (Int.ceil_nonneg hlow) hhigh]
  ring

/-- The value of a reversed list is the value of the list at the mirrored position. -/
theorem value_reverse {xs : List K} {pos : K} (h0 : 0 ≤ pos) (hpos : ⌈pos⌉ < xs.length) :
    value xs.reverse pos = value xs ((xs.length : K) - 1 - pos) := by
  have hle : ⌊pos⌋ ≤ ⌈pos⌉ := Int.floor_le_ceil pos
  have hceil : 0 ≤ ⌈pos⌉ := Int.ceil_nonneg h0
  have hlast : ((xs.length : K) - 1 - pos) = (((xs.length : ℤ) - 1 : ℤ) : K) - pos := by
    push_cast
    ring
  -- The mirrored position has the mirrored neighbours.
  have hfloor' : ⌊(xs.length : K) - 1 - pos⌋ = (xs.length : ℤ) - 1 - ⌈pos⌉ := by
    rw [hlast, sub_eq_add_neg, Int.floor_intCast_add, Int.floor_neg]
    ring
  have hceil' : ⌈(xs.length : K) - 1 - pos⌉ = (xs.length : ℤ) - 1 - ⌊pos⌋ := by
    rw [hlast, sub_eq_add_neg, Int.ceil_intCast_add, Int.ceil_neg]
    ring
  rw [value_eq_weighted, value_eq_weighted, hfloor', hceil',
    entry_reverse (Int.floor_nonneg.mpr h0) (by omega), entry_reverse hceil hpos]
  push_cast
  rcases hle.lt_or_eq with hlt | heq
  · -- Between two neighbours the weights are exchanged.
    have hstep : ⌈pos⌉ = ⌊pos⌋ + 1 := by
      have := Int.ceil_le_floor_add_one pos
      omega
    rw [hstep]
    push_cast
    ring
  · -- At an entry there is only one neighbour.
    rw [heq]
    ring

/-! ### Ordered lists -/

/-- The value is at least its left neighbour. -/
theorem entry_floor_le_value {xs : List K} (hxs : xs.Pairwise (· ≤ ·)) {pos : K}
    (h0 : 0 ≤ pos) (hpos : ⌈pos⌉ < xs.length) : entry xs ⌊pos⌋ ≤ value xs pos := by
  have hentry :=
    entry_le_entry hxs (Int.floor_nonneg.mpr h0) (Int.floor_le_ceil pos) hpos
  exact le_add_of_nonneg_right (mul_nonneg (sub_nonneg.mpr hentry) (fract_mem pos).1)

/-- The value is at most its right neighbour. -/
theorem value_le_entry_ceil {xs : List K} (hxs : xs.Pairwise (· ≤ ·)) {pos : K}
    (h0 : 0 ≤ pos) (hpos : ⌈pos⌉ < xs.length) : value xs pos ≤ entry xs ⌈pos⌉ := by
  have hentry :=
    entry_le_entry hxs (Int.floor_nonneg.mpr h0) (Int.floor_le_ceil pos) hpos
  unfold value
  nlinarith [mul_le_of_le_one_right (sub_nonneg.mpr hentry) (fract_mem pos).2]

/-- Over an ordered list the value is monotone in the position. -/
theorem value_le_value {xs : List K} (hxs : xs.Pairwise (· ≤ ·)) {p q : K} (h0 : 0 ≤ p)
    (hpq : p ≤ q) (hq : ⌈q⌉ < xs.length) : value xs p ≤ value xs q := by
  have hceil : ⌈p⌉ ≤ ⌈q⌉ := Int.ceil_le_ceil hpq
  rcases (Int.floor_le_floor hpq).lt_or_eq with hfloor | hfloor
  · -- Different segments: an entry lies between the two values.
    calc value xs p
        ≤ entry xs ⌈p⌉ := value_le_entry_ceil hxs h0 (by omega)
      _ ≤ entry xs ⌊q⌋ := by
          have hstep : ⌈p⌉ ≤ ⌊p⌋ + 1 := Int.ceil_le_floor_add_one p
          have hq' : ⌊q⌋ ≤ ⌈q⌉ := Int.floor_le_ceil q
          exact entry_le_entry hxs (Int.ceil_nonneg h0) (by omega) (by omega)
      _ ≤ value xs q := entry_floor_le_value hxs (h0.trans hpq) hq
  · -- One segment: either `p` is its left end, or both lie on one rising line.
    rcases (Int.floor_le p).lt_or_eq with hp | hp
    · have hpc : ⌈p⌉ = ⌊p⌋ + 1 := by
        have hlt : ⌊p⌋ < ⌈p⌉ := Int.lt_ceil.mpr hp
        have := Int.ceil_le_floor_add_one p
        omega
      have hqc : ⌈q⌉ = ⌊p⌋ + 1 := by
        have := Int.ceil_le_floor_add_one q
        omega
      have hslope : 0 ≤ entry xs (⌊p⌋ + 1) - entry xs ⌊p⌋ :=
        sub_nonneg.mpr (entry_le_entry hxs (Int.floor_nonneg.mpr h0) (by omega) (by omega))
      unfold value
      rw [hpc, hqc, ← hfloor]
      nlinarith [mul_le_mul_of_nonneg_left hpq hslope]
    · have hvalue : value xs p = entry xs ⌊q⌋ := by
        unfold value
        rw [← hfloor, hp, sub_self, mul_zero, add_zero]
      rw [hvalue]
      exact entry_floor_le_value hxs (h0.trans hpq) hq

end Interpolation
