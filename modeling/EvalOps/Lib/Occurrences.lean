import EvalOps.Lib.PyText
import Mathlib.Data.List.Infix

/-!
# `EvalOps.Lib.Occurrences`: where a separator occurs

A separator that does not hold a character occurs on one side of it or on the other, never across
(`infix_append_cons_iff`). So a split at the first occurrence goes past a part of a text in which
the separator does not occur (`partitionChars_append_cons`), and does not look behind a part in
which it does (`partitionChars_append`). An encoding of single characters that leaves those of the
separator alone keeps its occurrences (`infix_flatMap_iff`).
-/

set_option autoImplicit false

namespace Occurrences

variable {α : Type}

/-- A separator at the front of a text does not reach a character that it does not hold. -/
theorem prefix_append_cons_iff {sep u v : List α} {c : α} (hc : c ∉ sep) :
    sep <+: u ++ c :: v ↔ sep <+: u := by
  refine ⟨fun h => ?_, fun h => h.trans (List.prefix_append u _)⟩
  induction sep generalizing u with
  | nil => exact List.nil_prefix
  | cons s sep ih =>
      cases u with
      | nil =>
          obtain ⟨rfl, _⟩ := List.cons_prefix_cons.mp h
          exact absurd List.mem_cons_self hc
      | cons d u =>
          obtain ⟨rfl, hrest⟩ := List.cons_prefix_cons.mp h
          have hsep := ih (fun hmem => hc (List.mem_cons_of_mem _ hmem)) hrest
          exact List.cons_prefix_cons.mpr ⟨rfl, hsep⟩

/-- A separator occurs on one side of a character that it does not hold. -/
theorem infix_append_cons_iff {sep u v : List α} {c : α} (hc : c ∉ sep) :
    sep <:+: u ++ c :: v ↔ sep <:+: u ∨ sep <:+: v := by
  induction u with
  | nil =>
      have hfront := prefix_append_cons_iff (u := []) (v := v) hc
      rw [List.nil_append] at hfront ⊢
      rw [List.infix_cons_iff, hfront, List.prefix_nil, List.infix_nil]
  | cons d u ih =>
      have hfront := prefix_append_cons_iff (u := d :: u) (v := v) hc
      rw [List.cons_append] at hfront ⊢
      rw [List.infix_cons_iff, hfront, ih, List.infix_cons_iff, or_assoc]

/-- The code of a character that is not in the separator holds nothing of it, and a character of the
separator is its own code. -/
structure LeavesAlone (sep : List α) (f : α → List α) : Prop where
  own : ∀ c ∈ sep, f c = [c]
  other : ∀ c, c ∉ sep → f c ≠ [] ∧ ∀ d ∈ f c, d ∉ sep

/-- A text whose code has the front of a separator has it itself. -/
theorem prefix_of_prefix_flatMap {sep front : List α} {f : α → List α} (hf : LeavesAlone sep f)
    (hfront : ∀ c ∈ front, c ∈ sep) {s : List α} (h : front <+: s.flatMap f) : front <+: s := by
  induction front generalizing s with
  | nil => exact List.nil_prefix
  | cons c front ih =>
      cases s with
      | nil => exact absurd (List.prefix_nil.mp h) (List.cons_ne_nil c front)
      | cons d s =>
          rw [List.flatMap_cons] at h
          have hc := hfront c List.mem_cons_self
          by_cases hd : d ∈ sep
          · rw [hf.own d hd, List.singleton_append, List.cons_prefix_cons] at h
            obtain ⟨rfl, hrest⟩ := h
            exact List.cons_prefix_cons.mpr
              ⟨rfl, ih (fun c hc => hfront c (List.mem_cons_of_mem _ hc)) hrest⟩
          · -- The code of `d` starts with something else.
            obtain ⟨hne, hother⟩ := hf.other d hd
            obtain ⟨e, code, hcode⟩ := List.exists_cons_of_ne_nil hne
            rw [hcode, List.cons_append, List.cons_prefix_cons] at h
            obtain ⟨rfl, _⟩ := h
            exact absurd hc (hother c (by rw [hcode]; exact List.mem_cons_self))

/-- A separator does not start in a text without its characters. -/
theorem infix_append_of_disjoint {sep u v : List α} (hne : sep ≠ []) (hu : ∀ c ∈ u, c ∉ sep) :
    sep <:+: u ++ v ↔ sep <:+: v := by
  induction u with
  | nil => rfl
  | cons d u ih =>
      have hrest := ih fun c hc => hu c (List.mem_cons_of_mem _ hc)
      have hfront : ¬ sep <+: d :: (u ++ v) := by
        obtain ⟨c, sep, rfl⟩ := List.exists_cons_of_ne_nil hne
        intro h
        obtain ⟨rfl, _⟩ := List.cons_prefix_cons.mp h
        exact hu c List.mem_cons_self List.mem_cons_self
      rw [List.cons_append, List.infix_cons_iff, hrest, or_iff_right hfront]

/-- An encoding that leaves a separator alone keeps its occurrences. -/
theorem infix_flatMap_iff {sep : List α} {f : α → List α} (hne : sep ≠ [])
    (hf : LeavesAlone sep f) (s : List α) : sep <:+: s.flatMap f ↔ sep <:+: s := by
  induction s with
  | nil => rfl
  | cons d s ih =>
      rw [List.flatMap_cons]
      by_cases hd : d ∈ sep
      · have hfront : sep <+: d :: s.flatMap f ↔ sep <+: d :: s := by
          constructor
          · intro h
            refine prefix_of_prefix_flatMap hf (fun c hc => hc) ?_
            rwa [List.flatMap_cons, hf.own d hd]
          · rintro ⟨tail, htail⟩
            have hown : sep.flatMap f = sep := by
              have hmap : sep.flatMap f = sep.flatMap fun c => [c] :=
                List.flatMap_congr hf.own
              rw [hmap, List.flatMap_singleton']
            refine ⟨tail.flatMap f, ?_⟩
            have hcodes := congrArg (List.flatMap f) htail
            rwa [List.flatMap_append, hown, List.flatMap_cons, hf.own d hd] at hcodes
        rw [hf.own d hd, List.singleton_append, List.infix_cons_iff, List.infix_cons_iff, hfront,
          ih]
      · have hfront : ¬ sep <+: d :: s := by
          obtain ⟨c, sep, rfl⟩ := List.exists_cons_of_ne_nil hne
          intro h
          obtain ⟨rfl, _⟩ := List.cons_prefix_cons.mp h
          exact hd List.mem_cons_self
        rw [infix_append_of_disjoint hne (hf.other d hd).2, ih, List.infix_cons_iff,
          or_iff_right hfront]

end Occurrences

namespace PyText

open Occurrences

/-- A split puts the separator back. -/
theorem eq_append_of_partitionChars {sep cs x y : List Char}
    (h : partitionChars sep cs = some (x, y)) : cs = x ++ sep ++ y := by
  induction cs generalizing x y with
  | nil =>
      rw [partitionChars] at h
      split_ifs at h with hsep
      cases h
      rw [List.isEmpty_iff.mp hsep]
      rfl
  | cons c cs ih =>
      rw [partitionChars] at h
      split_ifs at h with hsep
      · cases h
        obtain ⟨tail, htail⟩ := List.isPrefixOf_iff_prefix.mp hsep
        rw [← htail, List.drop_left, List.nil_append]
      · obtain ⟨⟨x', y'⟩, hr, hxy⟩ := Option.map_eq_some_iff.mp h
        cases hxy
        rw [List.cons_append, List.cons_append, ← ih hr]

/-- A text is split when the separator occurs in it. -/
theorem partitionChars_isSome_iff {sep : List Char} (cs : List Char) :
    (partitionChars sep cs).isSome ↔ sep <:+: cs := by
  induction cs with
  | nil =>
      rw [partitionChars, List.infix_nil]
      cases sep <;> simp
  | cons c cs ih =>
      rw [partitionChars, List.infix_cons_iff, ← List.isPrefixOf_iff_prefix]
      split_ifs with hsep
      · simp [hsep]
      · rw [Option.isSome_map, ih, or_iff_right hsep]

/-- A split stays the same when text is added behind. -/
theorem partitionChars_append {sep u x y : List Char} (h : partitionChars sep u = some (x, y))
    (v : List Char) : partitionChars sep (u ++ v) = some (x, y ++ v) := by
  induction u generalizing x y with
  | nil =>
      rw [partitionChars] at h
      split_ifs at h with hsep
      cases h
      rw [List.isEmpty_iff.mp hsep]
      cases v <;> rfl
  | cons c u ih =>
      rw [partitionChars] at h
      rw [List.cons_append, partitionChars]
      split_ifs at h with hsep
      · cases h
        have hlonger := (List.isPrefixOf_iff_prefix.mp hsep).trans (List.prefix_append (c :: u) v)
        have hlen := (List.isPrefixOf_iff_prefix.mp hsep).length_le
        rw [List.cons_append] at hlonger
        rw [if_pos (List.isPrefixOf_iff_prefix.mpr hlonger), ← List.cons_append,
          List.drop_append_of_le_length hlen]
      · obtain ⟨⟨x', y'⟩, hr, hxy⟩ := Option.map_eq_some_iff.mp h
        cases hxy
        -- The separator fits into `u`, so it does not start at `c` with the help of `v`.
        have hfront : ¬ sep.isPrefixOf (c :: (u ++ v)) := by
          intro hlonger
          refine hsep (List.isPrefixOf_iff_prefix.mpr ?_)
          refine List.prefix_of_prefix_length_le (List.isPrefixOf_iff_prefix.mp hlonger)
            (List.prefix_append (c :: u) v) ?_
          have hlen := congrArg List.length (eq_append_of_partitionChars hr)
          simp only [List.length_append] at hlen
          rw [List.length_cons]
          omega
        rw [if_neg hfront, ih hr]
        rfl

/-- A split goes past a text without the separator, and past a character that is not in it. -/
theorem partitionChars_append_cons {sep u : List Char} {c : Char} (hc : c ∉ sep)
    (hu : ¬ sep <:+: u) (v : List Char) :
    partitionChars sep (u ++ c :: v) =
      (partitionChars sep v).map fun r => (u ++ c :: r.1, r.2) := by
  induction u with
  | nil =>
      have hfront : ¬ sep.isPrefixOf (c :: v) := by
        intro h
        have hnil := (prefix_append_cons_iff (u := []) hc).mp (List.isPrefixOf_iff_prefix.mp h)
        exact hu hnil.isInfix
      rw [List.nil_append, partitionChars, if_neg hfront]
      rfl
  | cons d u ih =>
      have hfront : ¬ sep.isPrefixOf (d :: (u ++ c :: v)) := by
        intro h
        have hshort := (prefix_append_cons_iff (u := d :: u) hc).mp
          (List.isPrefixOf_iff_prefix.mp h)
        exact hu hshort.isInfix
      have hrest := ih fun h => hu (h.trans (List.infix_cons List.infix_rfl))
      rw [List.cons_append, partitionChars, if_neg hfront, hrest, Option.map_map]
      rfl

end PyText
