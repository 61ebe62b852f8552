import Mathlib.Data.List.Forall2
import Mathlib.Data.List.Nodup
import Mathlib.Data.List.ProdSigma

/-!
# `EvalOps.Lib.Lists`: relations along lists

Rules for `List.Forall₂` that Mathlib does not have: along concatenations of lists, and from a
relation to a function.
-/

set_option autoImplicit false

namespace ListRules

variable {α β : Type}

/-- A relation along two lists of lists is a relation along their concatenations. -/
theorem forall₂_flatMap_flatten {γ : Type} {R : β → γ → Prop} {g : α → List β} {xs : List α}
    {yss : List (List γ)} (h : List.Forall₂ (fun x ys => List.Forall₂ R (g x) ys) xs yss) :
    List.Forall₂ R (xs.flatMap g) yss.flatten := by
  induction h with
  | nil => exact List.Forall₂.nil
  | cons hx _ ih =>
      rw [List.flatMap_cons, List.flatten_cons]
      exact List.rel_append hx ih

/-- A relation along a list holds of its members. -/
theorem forall₂_and_mem {R : α → β → Prop} {xs : List α} {ys : List β}
    (h : List.Forall₂ R xs ys) : List.Forall₂ (fun x y => x ∈ xs ∧ R x y) xs ys := by
  induction h with
  | nil => exact List.Forall₂.nil
  | cons hxy _ ih =>
      exact List.Forall₂.cons ⟨List.mem_cons_self, hxy⟩
        (ih.imp fun _ _ h => ⟨List.mem_cons_of_mem _ h.1, h.2⟩)

/-- Relations that agree on the members agree along the lists. -/
theorem forall₂_congr {R S : α → β → Prop} {xs : List α} {ys : List β}
    (h : ∀ x ∈ xs, ∀ y ∈ ys, (R x y ↔ S x y)) : List.Forall₂ R xs ys ↔ List.Forall₂ S xs ys := by
  induction xs generalizing ys with
  | nil => simp
  | cons x xs ih =>
      cases ys with
      | nil => simp
      | cons y ys =>
          rw [List.forall₂_cons, List.forall₂_cons, h x (by simp) y (by simp)]
          exact and_congr_right fun _ => ih fun x' hx' y' hy' =>
            h x' (List.mem_cons_of_mem _ hx') y' (List.mem_cons_of_mem _ hy')

/-- An entry of a list is related to an entry of the other list. -/
theorem exists_of_forall₂_of_mem {R : α → β → Prop} {xs : List α} {ys : List β}
    (h : List.Forall₂ R xs ys) {x : α} (hx : x ∈ xs) : ∃ y ∈ ys, R x y := by
  induction h with
  | nil => exact nomatch hx
  | @cons x' y xs ys hxy _ ih =>
      rcases List.mem_cons.mp hx with rfl | hx
      · exact ⟨y, List.mem_cons_self, hxy⟩
      · obtain ⟨z, hz, hR⟩ := ih hx
        exact ⟨z, List.mem_cons_of_mem _ hz, hR⟩

/-- Two lists whose entries have equal images have equal images. -/
theorem map_eq_map_of_forall₂ {γ : Type} {f : α → γ} {g : β → γ} {xs : List α} {ys : List β}
    (h : List.Forall₂ (fun x y => f x = g y) xs ys) : xs.map f = ys.map g := by
  induction h with
  | nil => rfl
  | cons hxy _ ih => rw [List.map_cons, List.map_cons, hxy, ih]

/-- A relation from distinct entries is a function on them. -/
theorem exists_map_of_forall₂ [DecidableEq α] [Nonempty β] {R : α → β → Prop} {xs : List α}
    {ys : List β} (h : List.Forall₂ R xs ys) (hxs : xs.Nodup) :
    ∃ f : α → β, ys = xs.map f ∧ ∀ x ∈ xs, R x (f x) := by
  induction h with
  | nil => exact ⟨fun _ => Classical.arbitrary β, rfl, by simp⟩
  | @cons x y xs ys hxy _ ih =>
      obtain ⟨hx, hxs'⟩ := List.nodup_cons.mp hxs
      obtain ⟨f, rfl, hf⟩ := ih hxs'
      have hne : ∀ z ∈ xs, z ≠ x := fun z hz heq => hx (heq ▸ hz)
      refine ⟨Function.update f x y, ?_, ?_⟩
      · rw [List.map_cons, Function.update_self]
        congr 1
        apply List.map_congr_left
        intro z hz
        rw [Function.update_of_ne (hne z hz)]
      · intro z hz
        rcases List.mem_cons.mp hz with rfl | hz
        · rw [Function.update_self]
          exact hxy
        · rw [Function.update_of_ne (hne z hz)]
          exact hf z hz

/-- Pointwise related lists of lists over one list have related concatenations. -/
theorem forall₂_flatMap {γ : Type} {R : β → γ → Prop} {f : α → List β} {g : α → List γ}
    {xs : List α} (h : ∀ x ∈ xs, List.Forall₂ R (f x) (g x)) :
    List.Forall₂ R (xs.flatMap f) (xs.flatMap g) := by
  induction xs with
  | nil => exact List.Forall₂.nil
  | cons x xs ih =>
      rw [List.flatMap_cons, List.flatMap_cons]
      exact List.rel_append (h x List.mem_cons_self)
        (ih fun x hx => h x (List.mem_cons_of_mem _ hx))

/-- A relation between the first entries of two appended lists of one length, and between the
last ones. -/
theorem forall₂_append_iff {R : α → β → Prop} {xs ys : List α} {xs' ys' : List β}
    (hlen : xs.length = xs'.length) :
    List.Forall₂ R (xs ++ ys) (xs' ++ ys') ↔ List.Forall₂ R xs xs' ∧ List.Forall₂ R ys ys' := by
  constructor
  · intro h
    have htake := List.forall₂_take_append _ _ _ h
    have hdrop := List.forall₂_drop_append _ _ _ h
    rw [← hlen, List.take_left] at htake
    rw [← hlen, List.drop_left] at hdrop
    exact ⟨htake, hdrop⟩
  · exact fun h => List.rel_append h.1 h.2

/-- Related lists are related position by position. -/
theorem forall₂_zipIdx {R : α → β → Prop} {xs : List α} {ys : List β}
    (h : List.Forall₂ R xs ys) (n : ℕ) :
    List.Forall₂ (fun p q => R p.1 q.1 ∧ p.2 = q.2) (xs.zipIdx n) (ys.zipIdx n) := by
  induction h generalizing n with
  | nil => exact List.Forall₂.nil
  | cons hxy _ ih => exact List.Forall₂.cons ⟨hxy, rfl⟩ (ih (n + 1))

/-- Searches in related lists, for tests that agree on related entries, have related results. -/
theorem forall₂_find? {R : α → β → Prop} {p : α → Bool} {q : β → Bool} {xs : List α}
    {ys : List β} (h : List.Forall₂ R xs ys) (hpq : ∀ x y, R x y → p x = q y) :
    Option.Rel R (xs.find? p) (ys.find? q) := by
  induction h with
  | nil => exact Option.Rel.none
  | @cons x y xs ys hxy _ ih =>
      rw [List.find?_cons, List.find?_cons, hpq x y hxy]
      split
      · exact Option.Rel.some hxy
      · exact ih

/-- Lists that trade places pairwise have one concatenation in every order. -/
theorem flatMap_eq_of_perm {f : α → List β} {xs ys : List α} (h : xs.Perm ys)
    (hcomm : ∀ x ∈ xs, ∀ y ∈ xs, f x ++ f y = f y ++ f x) : xs.flatMap f = ys.flatMap f := by
  induction h with
  | nil => rfl
  | cons x hperm ih =>
      rw [List.flatMap_cons, List.flatMap_cons, ih fun y hy z hz =>
        hcomm y (List.mem_cons_of_mem _ hy) z (List.mem_cons_of_mem _ hz)]
  | swap x y rest =>
      simp only [List.flatMap_cons, ← List.append_assoc]
      rw [hcomm y (by simp) x (by simp)]
  | trans hxy hyz ih₁ ih₂ =>
      rw [ih₁ hcomm, ih₂ fun y hy z hz => hcomm y (hxy.mem_iff.mpr hy) z (hxy.mem_iff.mpr hz)]

/-- A test that holds on one part of a concatenation, and fails on the others, selects the part. -/
theorem filter_flatMap_eq_part [DecidableEq α] {f : α → List β} {p : β → Bool} {xs : List α}
    {x : α} (hxs : xs.Nodup) (hp : ∀ z ∈ xs, ∀ y ∈ f z, p y = decide (z = x)) :
    (xs.flatMap f).filter p = if x ∈ xs then f x else [] := by
  induction xs with
  | nil => rfl
  | cons z xs ih =>
      obtain ⟨hz, hxs'⟩ := List.nodup_cons.mp hxs
      rw [List.flatMap_cons, List.filter_append,
        ih hxs' fun w hw => hp w (List.mem_cons_of_mem _ hw)]
      have hz' := hp z List.mem_cons_self
      by_cases hzx : z = x
      · subst hzx
        rw [List.filter_eq_self.mpr (by simpa using hz'), if_neg hz, if_pos List.mem_cons_self,
          List.append_nil]
      · have hnone : (f z).filter p = [] := by
          rw [List.filter_eq_nil_iff]
          intro y hy
          simp [hz' y hy, hzx]
        simp [hnone, Ne.symm hzx]

/-- Of two counts, the smaller is equal to the larger exactly when no entry tells them apart. -/
theorem countP_eq_countP_iff {p q : α → Bool} {xs : List α}
    (hqp : ∀ x ∈ xs, q x = true → p x = true) :
    xs.countP p = xs.countP q ↔ ∀ x ∈ xs, p x = true → q x = true := by
  induction xs with
  | nil => simp
  | cons x xs ih =>
      obtain ⟨hx, hxs⟩ := List.forall_mem_cons.mp hqp
      have hle : xs.countP q ≤ xs.countP p := List.countP_mono_left hxs
      rw [List.forall_mem_cons, ← ih hxs, List.countP_cons, List.countP_cons]
      cases hp : p x with
      | false =>
          have hq : q x = false := by
            cases hq : q x with
            | false => rfl
            | true => exact absurd (hx hq) (by simp [hp])
          simp [hq]
      | true =>
          cases hq : q x with
          | false =>
              simp only [if_true, Bool.false_eq_true, if_false, true_implies, false_and,
                iff_false]
              omega
          | true => simp

/-- A collecting loop finds something for every element, or it finds nothing. -/
theorem mapM_eq_some_iff {f : α → Option β} {xs : List α} {ys : List β} :
    xs.mapM f = some ys ↔ List.Forall₂ (fun x y => f x = some y) xs ys := by
  induction xs generalizing ys with
  | nil => simp [List.forall₂_nil_left_iff, eq_comm]
  | cons x xs ih =>
      rw [List.mapM_cons, List.forall₂_cons_left_iff]
      simp only [Option.bind_eq_bind, Option.bind_eq_some_iff, Option.pure_def, Option.some.injEq,
        ih]
      constructor
      · rintro ⟨y, hy, ys, hys, rfl⟩
        exact ⟨y, ys, hy, hys, rfl⟩
      · rintro ⟨y, ys, hy, hys, rfl⟩
        exact ⟨y, hy, ys, hys, rfl⟩

/-- What each element is related to makes a list. -/
theorem exists_forall₂ {R : α → β → Prop} {xs : List α} (h : ∀ x ∈ xs, ∃ y, R x y) :
    ∃ ys, List.Forall₂ R xs ys := by
  induction xs with
  | nil => exact ⟨[], .nil⟩
  | cons x xs ih =>
      rw [List.forall_mem_cons] at h
      obtain ⟨y, hy⟩ := h.1
      obtain ⟨ys, hys⟩ := ih h.2
      exact ⟨y :: ys, .cons hy hys⟩

/-- Two relations along one list make a relation along the other two. -/
theorem forall₂_trans {γ : Type} {R : α → β → Prop} {S : β → γ → Prop} {T : α → γ → Prop}
    {xs : List α} {ys : List β} {zs : List γ} (h : List.Forall₂ R xs ys)
    (h' : List.Forall₂ S ys zs) (hT : ∀ x y z, R x y → S y z → T x z) : List.Forall₂ T xs zs := by
  induction h generalizing zs with
  | nil =>
      cases h'
      exact .nil
  | cons hxy _ ih =>
      cases h' with
      | cons hyz hrest => exact .cons (hT _ _ _ hxy hyz) (ih hrest)

end ListRules
