import Mathlib.Data.List.TakeWhile

/-!
# `EvalOps.Lib.Trimming`: dropping what is at the ends of a list

`Trimming.trim p xs` is `xs` without its longest prefix and its longest suffix in `p`. It is what
`strip` and `trim` do to the code points of a text, each for its own set of whitespace.
-/

set_option autoImplicit false

namespace Trimming

variable {α : Type} (p : α → Bool)

/-- The elements between the first and the last that are not in `p`. -/
def trim (xs : List α) : List α := ((xs.dropWhile p).reverse.dropWhile p).reverse

/-- Nothing is left exactly when every element is in `p`. -/
theorem trim_eq_nil_iff (xs : List α) : trim p xs = [] ↔ ∀ x ∈ xs, p x = true := by
  unfold trim
  rw [List.reverse_eq_nil_iff, List.dropWhile_eq_nil_iff]
  constructor
  · intro h x hx
    by_cases hmem : x ∈ xs.dropWhile p
    · exact h x (List.mem_reverse.mpr hmem)
    · have hsplit := List.takeWhile_append_dropWhile (p := p) (l := xs)
      rw [← hsplit, List.mem_append] at hx
      exact List.mem_takeWhile_imp (hx.resolve_right hmem)
  · intro h x hx
    exact h x ((List.dropWhile_suffix p).mem (List.mem_reverse.mp hx))

/-- What is left starts with an element that is not in `p`. -/
theorem head_trim {xs : List α} {x : α} {rest : List α} (h : trim p xs = x :: rest) :
    p x = false := by
  have hprefix : trim p xs <+: xs.dropWhile p := by
    unfold trim
    have hsuffix := List.dropWhile_suffix (l := (xs.dropWhile p).reverse) p
    rw [← List.reverse_prefix] at hsuffix
    rwa [List.reverse_reverse] at hsuffix
  rw [h] at hprefix
  obtain ⟨tail, htail⟩ := hprefix
  have hhead := List.head?_dropWhile_not p xs
  rw [← htail] at hhead
  simpa using hhead

/-- The list is what is left, between elements in `p`. -/
theorem exists_eq_append_trim (xs : List α) :
    ∃ before after, xs = before ++ trim p xs ++ after ∧ (∀ x ∈ before, p x = true) ∧
      ∀ x ∈ after, p x = true := by
  have hfront := (List.takeWhile_append_dropWhile (p := p) (l := xs)).symm
  have hback := (List.takeWhile_append_dropWhile (p := p) (l := (xs.dropWhile p).reverse)).symm
  refine ⟨xs.takeWhile p, ((xs.dropWhile p).reverse.takeWhile p).reverse, ?_,
    fun x hx => List.mem_takeWhile_imp hx,
    fun x hx => List.mem_takeWhile_imp (List.mem_reverse.mp hx)⟩
  have hrest : xs.dropWhile p
      = trim p xs ++ ((xs.dropWhile p).reverse.takeWhile p).reverse := by
    unfold trim
    rw [← List.reverse_append, ← hback, List.reverse_reverse]
  rw [List.append_assoc, ← hrest, ← hfront]

variable {p} in
/-- Between two elements that are not in `p` nothing is dropped. -/
theorem trim_between {before core after : List α} {first last : α}
    (hbefore : ∀ x ∈ before, p x = true) (hafter : ∀ x ∈ after, p x = true)
    (hfirst : p first = false) (hlast : p last = false) :
    trim p (before ++ first :: (core ++ last :: after)) = first :: (core ++ [last]) := by
  have hfront : (before ++ first :: (core ++ last :: after)).dropWhile p
      = first :: (core ++ last :: after) := by
    rw [List.dropWhile_append_of_pos hbefore, List.dropWhile_cons_of_neg (by simp [hfirst])]
  have hback : first :: (core ++ last :: after) = (first :: (core ++ [last])) ++ after := by simp
  have hend : (first :: (core ++ [last])).reverse = last :: (core.reverse ++ [first]) := by simp
  rw [trim, hfront, hback, List.reverse_append,
    List.dropWhile_append_of_pos fun x hx => hafter x (List.mem_reverse.mp hx), hend,
    List.dropWhile_cons_of_neg (by simp [hlast]), ← hend, List.reverse_reverse]

end Trimming
