import EvalOps.Lib.Occurrences
import EvalOps.Lib.PyText

/-!
# `EvalOps.Lib.Words`: the words of a text on one line

`PyText.squeeze` is `" ".join(s.split())` over characters: each run of whitespace becomes a blank,
and none is left at the ends.

* `PyText.squeeze_front`, `PyText.squeeze_back`: what stands in front of the last word of a text, or
  behind its first, comes from the text there.
* `PyText.infix_of_infix_squeeze`: a text without whitespace occurs only where it did.
-/

set_option autoImplicit false

namespace PyText

/-- The maximal parts without whitespace. -/
def words (cs : List Char) : List (List Char) :=
  (cs.splitOnP isSpace).filter fun part => !part.isEmpty

/-- The words, with a blank between them. -/
def squeeze (cs : List Char) : List Char := [' '].intercalate (words cs)

/-- A text without whitespace. -/
def Solid (cs : List Char) : Prop := ∀ c ∈ cs, isSpace c = false

instance (cs : List Char) : Decidable (Solid cs) := List.decidableBAll _ cs

theorem toList_join_split (s : String) : (" ".intercalate (split s)).toList = squeeze s.toList := by
  unfold squeeze split words
  rw [String.toList_intercalate, List.map_map]
  have hid : String.toList ∘ String.ofList = id := by
    funext cs
    exact String.toList_ofList
  rw [hid, List.map_id]
  rfl

variable {u v w : List Char} {c : Char}

theorem Solid.blank_notMem (h : Solid u) : ' ' ∉ u := by
  intro hmem
  exact absurd (h ' ' hmem) (by decide)

theorem words_append (hc : isSpace c = true) (u v : List Char) :
    words (u ++ c :: v) = words u ++ words v := by
  unfold words
  rw [List.splitOnP_append_cons u v hc, List.filter_append]

theorem words_of_solid (h : Solid w) (hne : w ≠ []) : words w = [w] := by
  unfold words
  rw [List.splitOnP_eq_singleton h]
  cases w with
  | nil => exact absurd rfl hne
  | cons c w => rfl

theorem squeeze_of_solid (h : Solid w) : squeeze w = w := by
  cases w with
  | nil => rfl
  | cons c w =>
      rw [squeeze, words_of_solid h (List.cons_ne_nil c w), List.intercalate_singleton]

theorem squeeze_of_front (hc : isSpace c = true) (hu : words u = []) (v : List Char) :
    squeeze (u ++ c :: v) = squeeze v := by
  rw [squeeze, words_append hc, hu, List.nil_append, squeeze]

theorem squeeze_of_back (hc : isSpace c = true) (hv : words v = []) (u : List Char) :
    squeeze (u ++ c :: v) = squeeze u := by
  rw [squeeze, words_append hc, hv, List.append_nil, squeeze]

theorem squeeze_append (hc : isSpace c = true) (hu : words u ≠ []) (hv : words v ≠ []) :
    squeeze (u ++ c :: v) = squeeze u ++ ' ' :: squeeze v := by
  rw [squeeze, words_append hc, squeeze, squeeze]
  generalize words u = us at hu ⊢
  induction us with
  | nil => exact absurd rfl hu
  | cons w us ih =>
      cases us with
      | nil =>
          rw [List.singleton_append, List.intercalate_cons_of_ne_nil hv, List.intercalate_singleton]
          simp
      | cons w' us =>
          have hrest := ih (List.cons_ne_nil w' us)
          rw [List.cons_append, List.cons_append, List.intercalate_cons_cons, ← List.cons_append,
            hrest, List.intercalate_cons_cons]
          simp

/-- A text has no whitespace, or it has a first. -/
theorem solid_or_first (cs : List Char) :
    Solid cs ∨ ∃ w c rest, cs = w ++ c :: rest ∧ Solid w ∧ isSpace c = true := by
  induction cs with
  | nil => exact .inl fun c hc => absurd hc List.not_mem_nil
  | cons d cs ih =>
      by_cases hd : isSpace d = true
      · exact .inr ⟨[], d, cs, rfl, fun c hc => absurd hc List.not_mem_nil, hd⟩
      · rw [Bool.not_eq_true] at hd
        rcases ih with h | ⟨w, c, rest, rfl, hw, hc⟩
        · exact .inl (List.forall_mem_cons.mpr ⟨hd, h⟩)
        · exact .inr ⟨d :: w, c, rest, rfl, List.forall_mem_cons.mpr ⟨hd, hw⟩, hc⟩

/-- A text has no whitespace, or it has a last. -/
theorem solid_or_last (cs : List Char) :
    Solid cs ∨ ∃ rest c w, cs = rest ++ c :: w ∧ Solid w ∧ isSpace c = true := by
  rcases solid_or_first cs.reverse with h | ⟨w, c, rest, h, hw, hc⟩
  · exact .inl fun c hc => h c (List.mem_reverse.mpr hc)
  · refine .inr ⟨rest.reverse, c, w.reverse, ?_, fun c hc => hw c (List.mem_reverse.mp hc), hc⟩
    rw [← List.reverse_reverse cs, h]
    simp

/-- A text without whitespace occurs among the words only where it did before. -/
theorem infix_of_infix_squeeze (hsolid : Solid u) {cs : List Char} (h : u <:+: squeeze cs) :
    u <:+: cs := by
  generalize hn : cs.length = n
  induction n using Nat.strong_induction_on generalizing cs with
  | _ n ih =>
      rcases solid_or_first cs with hcs | ⟨w, c, rest, rfl, hw, hc⟩
      · rwa [squeeze_of_solid hcs] at h
      · have hrest : u <:+: squeeze rest → u <:+: w ++ c :: rest := by
          intro hin
          have hlength : rest.length < n := by
            rw [← hn, List.length_append, List.length_cons]
            omega
          exact (ih _ hlength hin rfl).trans
            ((List.suffix_cons c rest).trans (List.suffix_append w _)).isInfix
        by_cases hwords : words w = []
        · rw [squeeze_of_front hc hwords] at h
          exact hrest h
        · by_cases hback : words rest = []
          · rw [squeeze_of_back hc hback, squeeze_of_solid hw] at h
            exact h.trans (List.prefix_append w _).isInfix
          · rw [squeeze_append hc hwords hback, squeeze_of_solid hw,
              Occurrences.infix_append_cons_iff hsolid.blank_notMem] at h
            rcases h with h | h
            · exact h.trans (List.prefix_append w _).isInfix
            · exact hrest h

/-- What stands in front of the last word `b` of a text, which `p` runs into. -/
structure FrontOf (p q : List Char) : Prop where
  only : ∀ u, Solid u → u <:+: q → u <:+: p
  ends : ∀ d ∈ q.getLast?, d = ' ' ∨ d ∈ p.getLast? ∧ isSpace d = false

theorem squeeze_front {b : List Char} (hb : Solid b) (hne : b ≠ []) (p : List Char) :
    words (p ++ b) ≠ [] ∧ ∃ q, squeeze (p ++ b) = q ++ b ∧ FrontOf p q := by
  rcases solid_or_last p with hp | ⟨rest, c, w, rfl, hw, hc⟩
  · have hsolid : Solid (p ++ b) := List.forall_mem_append.mpr ⟨hp, hb⟩
    refine ⟨?_, p, squeeze_of_solid hsolid, fun u _ h => h,
      fun d hd => .inr ⟨hd, hp d (List.mem_of_getLast? hd)⟩⟩
    rw [words_of_solid hsolid (List.append_ne_nil_of_right_ne_nil p hne)]
    exact List.cons_ne_nil _ _
  · have hsolid : Solid (w ++ b) := List.forall_mem_append.mpr ⟨hw, hb⟩
    have hword := words_of_solid hsolid (List.append_ne_nil_of_right_ne_nil w hne)
    have hwords : words (w ++ b) ≠ [] := by
      rw [hword]
      exact List.cons_ne_nil _ _
    have hlast : ∀ d ∈ w.getLast?, d ∈ (rest ++ c :: w).getLast? ∧ isSpace d = false := by
      intro d hd
      refine ⟨?_, hw d (List.mem_of_getLast? hd)⟩
      obtain ⟨z, rfl⟩ := List.getLast?_eq_some_iff.mp hd
      rw [← List.cons_append, ← List.append_assoc]
      exact List.getLast?_concat
    rw [List.append_assoc, List.cons_append]
    refine ⟨?_, ?_⟩
    · rw [words_append hc]
      exact List.append_ne_nil_of_right_ne_nil _ hwords
    · by_cases hrest : words rest = []
      · refine ⟨w, ?_, fun u _ h => ?_, fun d hd => .inr (hlast d hd)⟩
        · rw [squeeze_of_front hc hrest, squeeze_of_solid hsolid]
        · exact h.trans ((List.suffix_cons c w).trans (List.suffix_append rest _)).isInfix
      · refine ⟨squeeze rest ++ ' ' :: w, ?_, fun u hu h => ?_, fun d hd => ?_⟩
        · rw [squeeze_append hc hrest hwords, squeeze_of_solid hsolid]
          simp
        · rw [Occurrences.infix_append_cons_iff hu.blank_notMem] at h
          rcases h with h | h
          · exact (infix_of_infix_squeeze hu h).trans (List.prefix_append rest _).isInfix
          · exact h.trans ((List.suffix_cons c w).trans (List.suffix_append rest _)).isInfix
        · rw [List.getLast?_append, List.getLast?_cons] at hd
          cases hw' : w.getLast? with
          | none =>
              rw [hw'] at hd
              exact .inl (Option.some.inj hd).symm
          | some e =>
              rw [hw'] at hd
              obtain rfl : e = d := Option.some.inj hd
              exact .inr (hlast e hw')

/-- What stands behind the first word of a text, which runs into `s`. -/
structure BehindOf (s r : List Char) : Prop where
  only : ∀ u, Solid u → u <:+: r → u <:+: s
  starts : ∀ d ∈ r.head?, d = ' ' ∨ d ∈ s.head? ∧ isSpace d = false

theorem squeeze_back {b : List Char} (hb : Solid b) (hne : b ≠ []) (s : List Char) :
    words (b ++ s) ≠ [] ∧ ∃ r, squeeze (b ++ s) = b ++ r ∧ BehindOf s r := by
  rcases solid_or_first s with hs | ⟨w, c, rest, rfl, hw, hc⟩
  · have hsolid : Solid (b ++ s) := List.forall_mem_append.mpr ⟨hb, hs⟩
    refine ⟨?_, s, squeeze_of_solid hsolid, fun u _ h => h,
      fun d hd => .inr ⟨hd, hs d (List.mem_of_head? hd)⟩⟩
    rw [words_of_solid hsolid (List.append_ne_nil_of_left_ne_nil hne s)]
    exact List.cons_ne_nil _ _
  · have hsolid : Solid (b ++ w) := List.forall_mem_append.mpr ⟨hb, hw⟩
    have hword := words_of_solid hsolid (List.append_ne_nil_of_left_ne_nil hne w)
    have hwords : words (b ++ w) ≠ [] := by
      rw [hword]
      exact List.cons_ne_nil _ _
    rw [← List.append_assoc]
    refine ⟨?_, ?_⟩
    · rw [words_append hc]
      exact List.append_ne_nil_of_left_ne_nil hwords _
    · by_cases hrest : words rest = []
      · refine ⟨w, ?_, fun u _ h => h.trans (List.prefix_append w _).isInfix, fun d hd => .inr ?_⟩
        · rw [squeeze_of_back hc hrest, squeeze_of_solid hsolid]
        · obtain ⟨z, rfl⟩ := List.head?_eq_some_iff.mp hd
          exact ⟨rfl, hw d List.mem_cons_self⟩
      · refine ⟨w ++ ' ' :: squeeze rest, ?_, fun u hu h => ?_, fun d hd => ?_⟩
        · rw [squeeze_append hc hwords hrest, squeeze_of_solid hsolid, List.append_assoc]
        · rw [Occurrences.infix_append_cons_iff hu.blank_notMem] at h
          rcases h with h | h
          · exact h.trans (List.prefix_append w _).isInfix
          · exact (infix_of_infix_squeeze hu h).trans
              ((List.suffix_cons c rest).trans (List.suffix_append w _)).isInfix
        · cases w with
          | nil => exact .inl (Option.some.inj hd).symm
          | cons e w =>
              obtain rfl : e = d := Option.some.inj hd
              exact .inr ⟨rfl, hw e List.mem_cons_self⟩

end PyText
