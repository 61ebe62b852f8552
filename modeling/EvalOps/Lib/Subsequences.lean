import Mathlib.Data.List.Basic
import Mathlib.Order.Bounds.Basic
import Mathlib.Order.Bounds.Defs

/-!
# `EvalOps.Lib.Subsequences`: longest common subsequences

The lengths of the common subsequences of two sequences, and their greatest. The rules extend both
sequences at the end, as a dynamic program over their initial parts does.

* `Subsequences.isGreatest_snoc_of_eq`, `Subsequences.isGreatest_snoc_of_ne`: the two cases of the
  recurrence.
* `Subsequences.IsRow.extend`: the recurrence computes one row of the program from the row before.
-/

set_option autoImplicit false

namespace Subsequences

variable {α : Type}

/-- The lengths of the common subsequences of two sequences. -/
def commonLengths (a b : List α) : Set ℕ :=
  {n | ∃ c : List α, c.Sublist a ∧ c.Sublist b ∧ c.length = n}

theorem commonLengths_comm (a b : List α) : commonLengths a b = commonLengths b a := by
  ext n
  constructor
  · rintro ⟨c, ha, hb, hc⟩
    exact ⟨c, hb, ha, hc⟩
  · rintro ⟨c, hb, ha, hc⟩
    exact ⟨c, ha, hb, hc⟩

/-- An empty sequence has only the empty subsequence. -/
theorem isGreatest_nil_left (b : List α) : IsGreatest (commonLengths [] b) 0 := by
  refine ⟨⟨[], List.nil_sublist [], List.nil_sublist b, rfl⟩, ?_⟩
  rintro n ⟨c, hc, _, rfl⟩
  rw [List.sublist_nil.mp hc, List.length_nil]

theorem isGreatest_nil_right (a : List α) : IsGreatest (commonLengths a []) 0 :=
  commonLengths_comm [] a ▸ isGreatest_nil_left a

/-- A sequence is its own longest common subsequence with itself. -/
theorem isGreatest_self (a : List α) : IsGreatest (commonLengths a a) a.length := by
  refine ⟨⟨a, List.Sublist.refl a, List.Sublist.refl a, rfl⟩, ?_⟩
  rintro n ⟨c, hc, _, rfl⟩
  exact hc.length_le

/-- A longer sequence has more subsequences. -/
theorem commonLengths_subset {a b b' : List α} (h : b.Sublist b') :
    commonLengths a b ⊆ commonLengths a b' := by
  rintro n ⟨c, ha, hb, hc⟩
  exact ⟨c, ha, hb.trans h, hc⟩

/-- A subsequence of a sequence with one more element leaves the element out or ends with it. -/
theorem sublist_snoc_iff {c a : List α} {x : α} :
    c.Sublist (a ++ [x]) ↔ c.Sublist a ∨ ∃ d : List α, c = d ++ [x] ∧ d.Sublist a := by
  rw [List.sublist_append_iff]
  constructor
  · rintro ⟨d, e, rfl, hd, he⟩
    rcases List.sublist_singleton.mp he with rfl | rfl
    · exact .inl (by rwa [List.append_nil])
    · exact .inr ⟨d, rfl, hd⟩
  · rintro (hc | ⟨d, rfl, hd⟩)
    · exact ⟨c, [], (List.append_nil c).symm, hc, List.nil_sublist _⟩
    · exact ⟨d, [x], rfl, hd, List.Sublist.refl _⟩

/-- One more element on one side adds at most one. -/
theorem le_succ_of_snoc {a b : List α} {y : α} {n n' : ℕ}
    (h : IsGreatest (commonLengths a b) n) (h' : n' ∈ commonLengths a (b ++ [y])) :
    n' ≤ n + 1 := by
  obtain ⟨c, ha, hb, rfl⟩ := h'
  rcases sublist_snoc_iff.mp hb with hb | ⟨d, rfl, hd⟩
  · exact (h.2 ⟨c, ha, hb, rfl⟩).trans (Nat.le_succ n)
  · -- Without its last element the subsequence is one of the shorter sequence.
    have hd' := h.2 ⟨d, (List.sublist_append_left d [y]).trans ha, hd, rfl⟩
    rw [List.length_append, List.length_singleton]
    omega

/-! ### What the greatest length says -/

section

variable {a b : List α} {n : ℕ} (h : IsGreatest (commonLengths a b) n)

include h

theorem le_length_left : n ≤ a.length := by
  obtain ⟨c, ha, _, hc⟩ := h.1
  exact hc ▸ ha.length_le

theorem le_length_right : n ≤ b.length := by
  obtain ⟨c, _, hb, hc⟩ := h.1
  exact hc ▸ hb.length_le

/-- The subsequence uses every element of both sequences exactly when they are equal. -/
theorem two_mul_eq_iff : 2 * n = a.length + b.length ↔ a = b := by
  have hleft := le_length_left h
  have hright := le_length_right h
  constructor
  · intro heq
    -- Both sequences are as long as the subsequence, so both are it.
    obtain ⟨c, ha, hb, hc⟩ := h.1
    have hca : c = a := ha.eq_of_length (by omega)
    have hcb : c = b := hb.eq_of_length (by omega)
    rw [← hca, ← hcb]
  · rintro rfl
    have := h.2 (isGreatest_self a).1
    omega

/-- The subsequence is empty exactly when no element is shared. -/
theorem eq_zero_iff : n = 0 ↔ ∀ x ∈ a, x ∉ b := by
  constructor
  · rintro rfl x hxa hxb
    -- A shared element is a common subsequence of length one.
    have hle := h.2 ⟨[x], List.singleton_sublist.mpr hxa, List.singleton_sublist.mpr hxb, rfl⟩
    exact absurd hle (by simp)
  · intro hdisjoint
    obtain ⟨c, ha, hb, hc⟩ := h.1
    cases c with
    | nil => exact hc.symm
    | cons x c =>
        exact absurd (hb.subset List.mem_cons_self) (hdisjoint x (ha.subset List.mem_cons_self))

end

/-! ### The recurrence -/

/-- Two sequences that end alike: the common end joins the longest subsequence before it. -/
theorem isGreatest_snoc_of_eq {a b : List α} {x : α} {n : ℕ}
    (h : IsGreatest (commonLengths a b) n) :
    IsGreatest (commonLengths (a ++ [x]) (b ++ [x])) (n + 1) := by
  constructor
  · obtain ⟨c, ha, hb, rfl⟩ := h.1
    exact ⟨c ++ [x], ha.append_right [x], hb.append_right [x], by simp⟩
  · rintro m ⟨c, ha, hb, rfl⟩
    rcases sublist_snoc_iff.mp ha with ha | ⟨d, rfl, hd⟩
    · exact le_succ_of_snoc h ⟨c, ha, hb, rfl⟩
    · rcases sublist_snoc_iff.mp hb with hb | ⟨e, he, hb⟩
      · rw [commonLengths_comm] at h
        exact le_succ_of_snoc h ⟨d ++ [x], hb, hd.append_right [x], rfl⟩
      · -- Both occurrences of the end are used, so the rest is common to what comes before.
        have hde : d = e := (List.append_inj' he rfl).1
        have hle := h.2 ⟨d, hd, hde ▸ hb, rfl⟩
        rw [List.length_append, List.length_singleton]
        omega

/-- Two sequences that end differently: one of the ends is left out. -/
theorem isGreatest_snoc_of_ne {a b : List α} {x y : α} (hxy : x ≠ y) {m n : ℕ}
    (hm : IsGreatest (commonLengths a (b ++ [y])) m)
    (hn : IsGreatest (commonLengths (a ++ [x]) b) n) :
    IsGreatest (commonLengths (a ++ [x]) (b ++ [y])) (max m n) := by
  constructor
  · rcases le_total m n with hle | hle
    · rw [max_eq_right hle]
      exact commonLengths_subset (List.sublist_append_left b [y]) hn.1
    · rw [max_eq_left hle, commonLengths_comm]
      rw [commonLengths_comm] at hm
      exact commonLengths_subset (List.sublist_append_left a [x]) hm.1
  · rintro k ⟨c, ha, hb, rfl⟩
    rcases sublist_snoc_iff.mp ha with ha | ⟨d, rfl, hd⟩
    · exact (hm.2 ⟨c, ha, hb, rfl⟩).trans (le_max_left m n)
    · rcases sublist_snoc_iff.mp hb with hb | ⟨e, he, _⟩
      · exact (hn.2 ⟨d ++ [x], hd.append_right [x], hb, rfl⟩).trans (le_max_right m n)
      · -- A subsequence does not end with both.
        have hends : [x] = [y] := (List.append_inj' he rfl).2
        exact absurd (List.singleton_injective hends) hxy

/-! ### Rows of the dynamic program -/

/-- The first entries of the row of `a` against `b`: entry `j` is the length of a longest common
subsequence of `a` and the first `j` elements of `b`. -/
structure IsRow (a b : List α) (row : List ℕ) : Prop where
  length_le : row.length ≤ b.length + 1
  entry : ∀ j (hj : j < row.length), IsGreatest (commonLengths a (b.take j)) row[j]

/-- The row of the empty sequence is zero. -/
theorem isRow_nil (b : List α) : IsRow [] b (List.replicate (b.length + 1) 0) where
  length_le := by simp
  entry := by
    intro j hj
    rw [List.getElem_replicate]
    exact isGreatest_nil_left (b.take j)

/-- Every row begins with a zero. -/
theorem isRow_zero (a b : List α) : IsRow a b [0] where
  length_le := by simp
  entry := by
    intro j hj
    have hj0 : j = 0 := by simpa using hj
    subst hj0
    exact isGreatest_nil_right a

/-- The recurrence extends the row of `a ++ [x]` by one entry, from the complete row of `a`. -/
theorem IsRow.extend [DecidableEq α] {a b : List α} {x y : α} {prev curr : List ℕ} {j : ℕ}
    (hprev : IsRow a b prev) (hlen : prev.length = b.length + 1) (hcurr : IsRow (a ++ [x]) b curr)
    (hj : curr.length = j + 1) (hjb : j < b.length) (hy : b[j] = y) :
    IsRow (a ++ [x]) b
      (curr ++ [if x = y then prev[j] + 1 else max prev[j + 1] curr[j]]) where
  length_le := by
    rw [List.length_append, List.length_singleton]
    omega
  entry := by
    intro i hi
    rw [List.length_append, List.length_singleton] at hi
    rcases Nat.lt_or_ge i curr.length with hlt | hge
    · rw [List.getElem_append_left hlt]
      exact hcurr.entry i hlt
    · have hij : i = j + 1 := by omega
      subst hij
      have htake : b.take (j + 1) = b.take j ++ [y] := by
        rw [← List.take_append_getElem hjb, hy]
      rw [List.getElem_append_right hge]
      simp only [hj, Nat.sub_self, List.getElem_singleton]
      rw [htake]
      split
      · rename_i hxy
        rw [← hxy]
        exact isGreatest_snoc_of_eq (hprev.entry j (by omega))
      · rename_i hxy
        have hup := hprev.entry (j + 1) (by omega)
        rw [htake] at hup
        exact isGreatest_snoc_of_ne hxy hup (hcurr.entry j (by omega))

end Subsequences
