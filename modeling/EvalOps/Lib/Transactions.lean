import Mathlib.Data.List.Basic

/-!
# `EvalOps.Lib.Transactions`: inserts of concurrent transactions

The rows that transactions insert into tables with unique constraints, under READ COMMITTED.
`committed` are the rows that every transaction sees, and `pending` the rows of the transactions
that are still open. Each row carries its writer. An insert needs a key that no committed and no
pending row has; a commit makes all rows of a writer visible at once.

`Exclusive` is what follows when all writers insert a row with one key first: that row is a lock.
Only one writer has pending rows, and what it commits is the only thing that is ever committed.
-/

set_option autoImplicit false

/-- Committed rows and rows of open transactions, each with its writer. -/
structure Tables (ι ρ : Type) where
  committed : List (ι × ρ)
  pending : List (ι × ρ)

namespace Tables

variable {ι ρ : Type} [DecidableEq ι]

/-- Nothing is written. -/
def empty : Tables ι ρ := ⟨[], []⟩

/-- The pending rows of one writer. -/
def written (t : Tables ι ρ) (i : ι) : List ρ :=
  (t.pending.filter fun w => decide (w.1 = i)).map Prod.snd

/-- A pending row more. -/
def insert (t : Tables ι ρ) (i : ι) (row : ρ) : Tables ι ρ :=
  { t with pending := t.pending ++ [(i, row)] }

/-- The pending rows of a writer are gone. -/
def rollback (t : Tables ι ρ) (i : ι) : Tables ι ρ :=
  { t with pending := t.pending.filter fun w => decide (w.1 ≠ i) }

/-- What a writer sees: the committed rows, and its own. -/
def visible (t : Tables ι ρ) (i : ι) : List (ι × ρ) :=
  t.committed ++ t.pending.filter fun w => decide (w.1 = i)

/-- The pending rows of a writer become visible to everyone. -/
def commit (t : Tables ι ρ) (i : ι) : Tables ι ρ where
  committed := t.visible i
  pending := t.pending.filter fun w => decide (w.1 ≠ i)

/-- The key of a row is free. -/
def Free (conflicts : ρ → ρ → Prop) (t : Tables ι ρ) (row : ρ) : Prop :=
  (∀ w ∈ t.committed, ¬conflicts w.2 row) ∧ ∀ w ∈ t.pending, ¬conflicts w.2 row

variable {t : Tables ι ρ} {i j : ι} {row : ρ}

/-! ### What one writer has written -/

@[simp] theorem written_empty : (empty : Tables ι ρ).written i = [] := rfl

theorem mem_written : row ∈ t.written i ↔ (i, row) ∈ t.pending := by
  unfold written
  rw [List.mem_map]
  constructor
  · rintro ⟨⟨j, r⟩, hmem, rfl⟩
    obtain ⟨hmem, hj⟩ := List.mem_filter.mp hmem
    have hj : j = i := of_decide_eq_true hj
    exact hj ▸ hmem
  · exact fun hmem => ⟨(i, row), List.mem_filter.mpr ⟨hmem, decide_eq_true rfl⟩, rfl⟩

theorem written_insert_self : (t.insert i row).written i = t.written i ++ [row] := by
  simp [written, insert]

theorem written_insert_of_ne (h : j ≠ i) : (t.insert i row).written j = t.written j := by
  simp [written, insert, h.symm]

theorem written_rollback_self : (t.rollback i).written i = [] := by
  simp [written, rollback, List.filter_filter]

theorem written_rollback_of_ne (h : j ≠ i) : (t.rollback i).written j = t.written j := by
  unfold written rollback
  rw [List.filter_filter]
  congr 1
  refine List.filter_congr fun w _ => ?_
  by_cases hw : w.1 = j <;> simp [hw, h]

/-- A commit leaves the pending rows that a rollback leaves. -/
theorem written_commit : (t.commit i).written j = (t.rollback i).written j := rfl

/-- The rows of one writer, with their writer. -/
theorem filter_pending_eq : (t.pending.filter fun w => decide (w.1 = i)) =
    (t.written i).map (Prod.mk i) := by
  unfold written
  rw [List.map_map]
  refine (List.map_id' _).symm.trans (List.map_congr_left fun w hw => ?_)
  have hi : w.1 = i := of_decide_eq_true (List.mem_filter.mp hw).2
  exact Prod.ext hi rfl

/-! ### A first row as a lock -/

/-- Nothing is committed and one writer has pending rows, or one writer has committed a whole and
nothing is pending. -/
def Exclusive (Whole : List ρ → Prop) (t : Tables ι ρ) : Prop :=
  (t.committed = [] ∧ ∀ i j, t.written i ≠ [] → t.written j ≠ [] → i = j) ∨
    (t.pending = [] ∧ ∃ i rows, Whole rows ∧ t.committed = rows.map (Prod.mk i))

variable {Whole Begun : List ρ → Prop} {conflicts : ρ → ρ → Prop}

theorem exclusive_empty : (empty : Tables ι ρ).Exclusive Whole :=
  Or.inl ⟨rfl, fun _ _ h => absurd rfl h⟩

theorem Exclusive.rollback (h : t.Exclusive Whole) (i : ι) : (t.rollback i).Exclusive Whole := by
  have hsub : ∀ j, (t.rollback i).written j ≠ [] → t.written j ≠ [] := by
    intro j hj
    by_cases hji : j = i
    · exact absurd (hji ▸ written_rollback_self) hj
    · rwa [written_rollback_of_ne hji] at hj
  rcases h with ⟨hempty, hone⟩ | ⟨hpending, hwhole⟩
  · exact Or.inl ⟨hempty, fun j k hj hk => hone j k (hsub j hj) (hsub k hk)⟩
  · exact Or.inr ⟨by simp [Tables.rollback, hpending], hwhole⟩

/-- An insert of a free row, where all writers begin with conflicting rows. -/
theorem Exclusive.insert (h : t.Exclusive Whole)
    (hlock : ∀ {a b : ρ} {as bs : List ρ}, Begun (a :: as) → Begun (b :: bs) → conflicts a b)
    (hwhole : ∀ rows, Whole rows → Begun rows ∧ rows ≠ [])
    (hbegun : ∀ j, Begun (t.written j)) (hnext : Begun (t.written i ++ [row]))
    (hfree : t.Free conflicts row) : (t.insert i row).Exclusive Whole := by
  -- The row is not a first row, unless nobody else has written one.
  have hfirst : t.written i = [] → t.committed = [] → ∀ j, t.written j = [] := by
    intro hi _ j
    cases hj : t.written j with
    | nil => rfl
    | cons b bs =>
        have hb := hbegun j
        rw [hj] at hb
        rw [hi] at hnext
        have hmem : (j, b) ∈ t.pending := mem_written.mp (hj ▸ List.mem_cons_self)
        exact absurd (hlock hb hnext) (hfree.2 (j, b) hmem)
  rcases h with ⟨hempty, hone⟩ | ⟨hpending, k, rows, hrows, hcommitted⟩
  · have hothers : ∀ j, j ≠ i → t.written j = [] := by
      intro j hj
      by_cases hi : t.written i = []
      · exact hfirst hi hempty j
      · by_contra hne
        exact hj (hone j i hne hi)
    refine Or.inl ⟨hempty, fun j k hj hk => ?_⟩
    have hself : ∀ j, (t.insert i row).written j ≠ [] → j = i := by
      intro j hj
      by_contra hne
      exact hj ((written_insert_of_ne hne).trans (hothers j hne))
    rw [hself j hj, hself k hk]
  · -- The committed rows begin with the lock.
    have hi : t.written i = [] := by simp [written, hpending]
    rw [hi] at hnext
    obtain ⟨hp, hne⟩ := hwhole rows hrows
    cases rows with
    | nil => exact absurd rfl hne
    | cons a as =>
        have hmem : (k, a) ∈ t.committed := by simp [hcommitted]
        exact absurd (hlock hp hnext) (hfree.1 (k, a) hmem)

/-- The commit of a whole. -/
theorem Exclusive.commit (h : t.Exclusive Whole) (hne : t.written i ≠ [])
    (hi : Whole (t.written i)) : (t.commit i).Exclusive Whole := by
  rcases h with ⟨hempty, hone⟩ | ⟨hpending, _⟩
  · refine Or.inr ⟨?_, i, t.written i, hi, ?_⟩
    · refine List.filter_eq_nil_iff.mpr fun w hw => ?_
      have hwritten : t.written w.1 ≠ [] := List.ne_nil_of_mem (mem_written.mpr hw)
      simpa using hone w.1 i hwritten hne
    · unfold Tables.commit visible
      rw [hempty, List.nil_append, filter_pending_eq]
  · exact absurd (by simp [written, hpending]) hne

end Tables
