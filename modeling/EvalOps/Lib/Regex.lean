import Mathlib.Data.List.TakeWhile
import Mathlib.Data.List.Infix

/-!
# `EvalOps.Lib.Regex`: regular expressions with a backtracking matcher

A `Regex` is built from classes of characters. `Regex.hits` lists the ways in which it matches at
the front of a text, in the order in which a backtracking matcher finds them: an alternative before
the next one, and a repetition as long as possible.

* `Regex.exists_hit_iff`: what the matcher finds is what the expression denotes.
* `Regex.head?_hits_seq`, `Regex.head?_hits_many`: the match that is found first.
* `Regex.mem_hits_group`: what a group captures.
* `Regex.hits_append_cons`: the matcher does not look beyond a character that is in no class.
-/

set_option autoImplicit false

/-- A regular expression. -/
inductive Regex
  /-- The empty text. -/
  | empty
  /-- One character of a class. -/
  | char (p : Char → Bool)
  /-- At least so many characters of a class, as many as possible. -/
  | many (least : ℕ) (p : Char → Bool)
  | seq (a b : Regex)
  | alt (a b : Regex)
  /-- A group, which captures its text. -/
  | group (r : Regex)

namespace Regex

/-- A match: its text, and what its groups captured. -/
structure Hit where
  text : List Char
  groups : List (List Char)

/-- A match after a match. -/
def Hit.append (a b : Hit) : Hit := ⟨a.text ++ b.text, a.groups ++ b.groups⟩

/-- The prefixes of a text in a class, the longest first. -/
def runs (p : Char → Bool) : List Char → List (List Char)
  | [] => [[]]
  | c :: cs => if p c then (runs p cs).map (c :: ·) ++ [[]] else [[]]

/-- The matches at the front of a text, in the order of the matcher. -/
def hits : Regex → List Char → List Hit
  | empty, _ => [⟨[], []⟩]
  | char _, [] => []
  | char p, c :: _ => if p c then [⟨[c], []⟩] else []
  | many least p, cs =>
      ((runs p cs).filter fun t => decide (least ≤ t.length)).map fun t => ⟨t, []⟩
  | seq a b, cs => (hits a cs).flatMap fun h => (hits b (cs.drop h.text.length)).map h.append
  | alt a b, cs => hits a cs ++ hits b cs
  | group r, cs => (hits r cs).map fun h => ⟨h.text, h.text :: h.groups⟩

/-- The expression denotes the text. -/
def Denotes : Regex → List Char → Prop
  | empty, t => t = []
  | char p, t => ∃ c, p c = true ∧ t = [c]
  | many least p, t => least ≤ t.length ∧ ∀ c ∈ t, p c = true
  | seq a b, t => ∃ u v, t = u ++ v ∧ Denotes a u ∧ Denotes b v
  | alt a b, t => Denotes a t ∨ Denotes b t
  | group r, t => Denotes r t

/-- An optional expression. -/
def opt (r : Regex) : Regex := alt r empty

/-! ### What the matcher finds -/

theorem mem_runs {p : Char → Bool} {cs t : List Char} :
    t ∈ runs p cs ↔ t <+: cs ∧ ∀ c ∈ t, p c = true := by
  induction cs generalizing t with
  | nil =>
      rw [runs, List.mem_singleton, List.prefix_nil]
      constructor
      · rintro rfl
        exact ⟨rfl, fun c hc => absurd hc List.not_mem_nil⟩
      · exact fun h => h.1
  | cons d cs ih =>
      cases t with
      | nil =>
          rw [runs]
          refine iff_of_true ?_ ⟨List.nil_prefix, fun c hc => absurd hc List.not_mem_nil⟩
          split <;> simp
      | cons c t =>
          rw [runs, List.prefix_cons_iff]
          by_cases hd : p d = true
          · rw [if_pos hd]
            simp only [List.mem_append, List.mem_map, List.mem_singleton, reduceCtorEq, or_false,
              false_or, List.cons.injEq, List.forall_mem_cons]
            constructor
            · rintro ⟨u, hu, rfl, rfl⟩
              obtain ⟨hstart, hall⟩ := ih.mp hu
              exact ⟨⟨u, ⟨rfl, rfl⟩, hstart⟩, hd, hall⟩
            · rintro ⟨⟨u, ⟨rfl, rfl⟩, hstart⟩, _, hall⟩
              exact ⟨t, ih.mpr ⟨hstart, hall⟩, rfl, rfl⟩
          · rw [if_neg hd]
            refine iff_of_false (by simp) ?_
            rintro ⟨h | ⟨u, hu, _⟩, hall⟩
            · cases h
            · cases hu
              exact hd (hall d List.mem_cons_self)

/-- The longest run is the first. -/
theorem head?_runs (p : Char → Bool) (cs : List Char) :
    (runs p cs).head? = some (cs.takeWhile p) := by
  induction cs with
  | nil => rfl
  | cons c cs ih =>
      rw [runs]
      by_cases hc : p c = true
      · rw [if_pos hc, List.takeWhile_cons_of_pos hc, List.head?_append, List.head?_map, ih]
        rfl
      · rw [if_neg hc, List.takeWhile_cons_of_neg hc]
        rfl

/-- The texts that the matcher finds are the prefixes that the expression denotes. -/
theorem exists_hit_iff (r : Regex) (cs t : List Char) :
    (∃ h ∈ hits r cs, h.text = t) ↔ t <+: cs ∧ Denotes r t := by
  induction r generalizing cs t with
  | empty =>
      simp only [hits, Denotes, List.mem_singleton, exists_eq_left]
      constructor
      · rintro rfl
        exact ⟨List.nil_prefix, rfl⟩
      · exact fun h => h.2.symm
  | char p =>
      cases cs with
      | nil =>
          simp only [hits, Denotes, List.not_mem_nil, false_and, exists_false, List.prefix_nil,
            false_iff]
          rintro ⟨rfl, c, _, h⟩
          cases h
      | cons c cs =>
          simp only [hits, Denotes]
          constructor
          · rintro ⟨h, hmem, rfl⟩
            split at hmem
            · rename_i hc
              rw [List.mem_singleton.mp hmem]
              exact ⟨⟨cs, rfl⟩, c, hc, rfl⟩
            · exact absurd hmem List.not_mem_nil
          · rintro ⟨hstart, d, hd, rfl⟩
            obtain ⟨rest, hrest⟩ := hstart
            cases hrest
            rw [if_pos hd]
            exact ⟨_, List.mem_singleton_self _, rfl⟩
  | many least p =>
      simp only [hits, Denotes, List.mem_map, List.mem_filter, decide_eq_true_eq, mem_runs]
      constructor
      · rintro ⟨h, ⟨u, ⟨⟨hstart, hall⟩, hleast⟩, rfl⟩, rfl⟩
        exact ⟨hstart, hleast, hall⟩
      · rintro ⟨hstart, hleast, hall⟩
        exact ⟨_, ⟨t, ⟨⟨hstart, hall⟩, hleast⟩, rfl⟩, rfl⟩
  | seq a b iha ihb =>
      simp only [hits, Denotes, List.mem_flatMap, List.mem_map]
      constructor
      · rintro ⟨_, ⟨h, hh, h', hh', rfl⟩, rfl⟩
        obtain ⟨hstart, ha⟩ := (iha cs h.text).mp ⟨h, hh, rfl⟩
        obtain ⟨hstart', hb⟩ := (ihb (cs.drop h.text.length) h'.text).mp ⟨h', hh', rfl⟩
        refine ⟨?_, h.text, h'.text, rfl, ha, hb⟩
        obtain ⟨rest, hrest⟩ := hstart
        obtain ⟨rest', hrest'⟩ := hstart'
        rw [← hrest, List.drop_left] at hrest'
        exact ⟨rest', by rw [← hrest, ← hrest', Hit.append, List.append_assoc]⟩
      · rintro ⟨hstart, u, v, rfl, ha, hb⟩
        obtain ⟨rest, hrest⟩ := hstart
        rw [List.append_assoc] at hrest
        obtain ⟨h, hh, rfl⟩ := (iha cs u).mpr ⟨⟨_, hrest⟩, ha⟩
        have hdrop : cs.drop h.text.length = v ++ rest := by
          rw [← hrest, List.drop_left]
        obtain ⟨h', hh', rfl⟩ := (ihb (cs.drop h.text.length) v).mpr
          ⟨⟨rest, hdrop.symm⟩, hb⟩
        exact ⟨_, ⟨h, hh, h', hh', rfl⟩, rfl⟩
  | alt a b iha ihb =>
      simp only [hits, Denotes, List.mem_append, or_and_right, exists_or, iha, ihb, and_or_left]
  | group r ih =>
      simp only [hits, Denotes, List.mem_map, ← ih]
      constructor
      · rintro ⟨_, ⟨h, hh, rfl⟩, rfl⟩
        exact ⟨h, hh, rfl⟩
      · rintro ⟨h, hh, rfl⟩
        exact ⟨_, ⟨h, hh, rfl⟩, rfl⟩

/-! ### The match that is found first -/

/-- The first match of a sequence is a match of its first part, and the first match of its second
part behind it. -/
theorem head?_hits_seq {a b : Regex} {cs : List Char} {h : Hit}
    (hh : (hits (seq a b) cs).head? = some h) :
    ∃ ha ∈ hits a cs, ∃ hb, (hits b (cs.drop ha.text.length)).head? = some hb ∧
      h = ha.append hb := by
  unfold hits at hh
  generalize hits a cs = front at hh ⊢
  induction front with
  | nil => cases hh
  | cons ha front ih =>
      rw [List.flatMap_cons, List.head?_append, List.head?_map] at hh
      cases hb : (hits b (cs.drop ha.text.length)).head? with
      | some hb' =>
          rw [hb] at hh
          cases hh
          exact ⟨ha, List.mem_cons_self, hb', hb, rfl⟩
      | none =>
          -- The second part does not match behind `ha`, so the matcher goes back.
          rw [hb] at hh
          obtain ⟨ha', hmem, hrest⟩ := ih hh
          exact ⟨ha', List.mem_cons_of_mem _ hmem, hrest⟩

theorem length_le_of_mem_runs {p : Char → Bool} {cs t : List Char} (h : t ∈ runs p cs) :
    t.length ≤ (cs.takeWhile p).length := by
  obtain ⟨⟨rest, rfl⟩, hall⟩ := mem_runs.mp h
  rw [List.takeWhile_append_of_pos hall, List.length_append]
  omega

/-- The first match of a repetition is the longest run, when it is long enough. -/
theorem head?_hits_many (least : ℕ) (p : Char → Bool) (cs : List Char) :
    (hits (many least p) cs).head? =
      if least ≤ (cs.takeWhile p).length then some ⟨cs.takeWhile p, []⟩ else none := by
  unfold hits
  have hhead := head?_runs p cs
  by_cases hleast : least ≤ (cs.takeWhile p).length
  · rw [if_pos hleast]
    obtain ⟨shorter, hruns⟩ := List.head?_eq_some_iff.mp hhead
    rw [hruns, List.filter_cons_of_pos (by simpa using hleast)]
    rfl
  · -- The longest run is too short, and so are the others.
    rw [if_neg hleast]
    have hnone : (runs p cs).filter (fun t => decide (least ≤ t.length)) = [] := by
      rw [List.filter_eq_nil_iff]
      intro t ht
      have hle := length_le_of_mem_runs ht
      simp only [decide_eq_true_eq]
      omega
    rw [hnone]
    rfl

theorem takeWhile_append_of_stop {p : Char → Bool} {run rest : List Char}
    (hrun : ∀ c ∈ run, p c = true) (hstop : ∀ c ∈ rest.head?, p c = false) :
    (run ++ rest).takeWhile p = run := by
  rw [List.takeWhile_append_of_pos hrun]
  cases rest with
  | nil => simp
  | cons c rest => rw [List.takeWhile_cons_of_neg (by simp [hstop c rfl]), List.append_nil]

/-- A repetition takes a run of its class up to a character that is not in the class. -/
theorem head?_hits_run {least : ℕ} {p : Char → Bool} {run rest : List Char}
    (hrun : Denotes (many least p) run) (hstop : ∀ c ∈ rest.head?, p c = false) :
    (hits (many least p) (run ++ rest)).head? = some ⟨run, []⟩ := by
  rw [head?_hits_many, takeWhile_append_of_stop hrun.2 hstop, if_pos hrun.1]

/-- When the first match of the first part has a match of the second part behind it, the two are the
first match of the sequence. -/
theorem head?_hits_seq_of_head {a b : Regex} {cs : List Char} {ha hb : Hit}
    (hfirst : (hits a cs).head? = some ha)
    (hsecond : (hits b (cs.drop ha.text.length)).head? = some hb) :
    (hits (seq a b) cs).head? = some (ha.append hb) := by
  obtain ⟨others, hothers⟩ := List.head?_eq_some_iff.mp hfirst
  rw [hits, hothers, List.flatMap_cons, List.head?_append, List.head?_map, hsecond]
  rfl

/-- When a sequence ends in a repetition, its first match goes on as far as the repetition can. -/
theorem stops_of_head?_hits {front : Regex} {least : ℕ} {p : Char → Bool} {h : Hit}
    {rest : List Char}
    (hh : (hits (seq front (many least p)) (h.text ++ rest)).head? = some h) :
    ∀ c ∈ rest.head?, p c = false := by
  obtain ⟨ha, hmem, hb, hlast, rfl⟩ := head?_hits_seq hh
  have hstart := ((exists_hit_iff front _ ha.text).mp ⟨ha, hmem, rfl⟩).1
  have hdrop : ((ha.append hb).text ++ rest).drop ha.text.length = hb.text ++ rest := by
    rw [Hit.append, List.append_assoc, List.drop_left]
  rw [hdrop, head?_hits_many] at hlast
  split at hlast
  · have hrun : (hb.text ++ rest).takeWhile p = hb.text :=
      congrArg Hit.text (Option.some.inj hlast)
    -- The run is what the class allows, so the next character is not in the class.
    intro c hc
    obtain ⟨rest', rfl⟩ := List.head?_eq_some_iff.mp hc
    have hall : ∀ d ∈ hb.text, p d = true := by
      intro d hd
      rw [← hrun] at hd
      exact List.mem_takeWhile_imp hd
    rw [List.takeWhile_append_of_pos hall] at hrun
    by_contra hp
    rw [List.takeWhile_cons_of_pos (by simpa using hp)] at hrun
    have hlength := congrArg List.length hrun
    rw [List.length_append, List.length_cons] at hlength
    omega
  · cases hlast

/-! ### What the groups capture -/

/-- An expression without groups. -/
def Plain : Regex → Prop
  | empty => True
  | char _ => True
  | many _ _ => True
  | seq a b => Plain a ∧ Plain b
  | alt a b => Plain a ∧ Plain b
  | group _ => False

theorem mem_hits_seq {a b : Regex} {cs : List Char} {h : Hit} :
    h ∈ hits (seq a b) cs ↔
      ∃ ha ∈ hits a cs, ∃ hb ∈ hits b (cs.drop ha.text.length), h = ha.append hb := by
  simp only [hits, List.mem_flatMap, List.mem_map, eq_comm]

theorem groups_eq_nil {r : Regex} (hr : Plain r) {cs : List Char} {h : Hit}
    (hh : h ∈ hits r cs) : h.groups = [] := by
  induction r generalizing cs h with
  | empty =>
      rw [hits, List.mem_singleton] at hh
      rw [hh]
  | char p =>
      cases cs with
      | nil => exact absurd hh List.not_mem_nil
      | cons c cs =>
          rw [hits] at hh
          split at hh
          · rw [List.mem_singleton.mp hh]
          · exact absurd hh List.not_mem_nil
  | many least p =>
      obtain ⟨t, _, rfl⟩ := List.mem_map.mp hh
      rfl
  | seq a b iha ihb =>
      obtain ⟨ha, hmem, hb, hmem', rfl⟩ := mem_hits_seq.mp hh
      rw [Hit.append, iha hr.1 hmem, ihb hr.2 hmem']
      rfl
  | alt a b iha ihb =>
      rw [hits, List.mem_append] at hh
      exact hh.elim (iha hr.1) (ihb hr.2)
  | group r => exact hr.elim

/-- A group around an expression without groups captures its text. -/
theorem mem_hits_group {r : Regex} (hr : Plain r) {cs : List Char} {h : Hit} :
    h ∈ hits (group r) cs ↔ ∃ t, t <+: cs ∧ Denotes r t ∧ h = ⟨t, [t]⟩ := by
  rw [hits, List.mem_map]
  constructor
  · rintro ⟨h', hh', rfl⟩
    obtain ⟨hstart, hdenotes⟩ := (exists_hit_iff r cs h'.text).mp ⟨h', hh', rfl⟩
    exact ⟨h'.text, hstart, hdenotes, by rw [groups_eq_nil hr hh']⟩
  · rintro ⟨t, hstart, hdenotes, rfl⟩
    obtain ⟨h', hh', rfl⟩ := (exists_hit_iff r cs t).mpr ⟨hstart, hdenotes⟩
    exact ⟨h', hh', by rw [groups_eq_nil hr hh']⟩

/-- A character that is in no class of the expression. -/
def Avoids (d : Char) : Regex → Prop
  | empty => True
  | char p => p d = false
  | many _ p => p d = false
  | seq a b => Avoids d a ∧ Avoids d b
  | alt a b => Avoids d a ∧ Avoids d b
  | group r => Avoids d r

instance decidableAvoids (d : Char) : (r : Regex) → Decidable (Avoids d r)
  | empty => isTrue trivial
  | char p => inferInstanceAs (Decidable (p d = false))
  | many _ p => inferInstanceAs (Decidable (p d = false))
  | seq a b =>
      have := decidableAvoids d a
      have := decidableAvoids d b
      inferInstanceAs (Decidable (Avoids d a ∧ Avoids d b))
  | alt a b =>
      have := decidableAvoids d a
      have := decidableAvoids d b
      inferInstanceAs (Decidable (Avoids d a ∧ Avoids d b))
  | group r => decidableAvoids d r

instance decidablePlain : (r : Regex) → Decidable (Plain r)
  | empty => isTrue trivial
  | char _ => isTrue trivial
  | many _ _ => isTrue trivial
  | seq a b =>
      have := decidablePlain a
      have := decidablePlain b
      inferInstanceAs (Decidable (Plain a ∧ Plain b))
  | alt a b =>
      have := decidablePlain a
      have := decidablePlain b
      inferInstanceAs (Decidable (Plain a ∧ Plain b))
  | group _ => isFalse id

/-- A text that the expression denotes has no such character. -/
theorem notMem_of_denotes {d : Char} {r : Regex} (h : Avoids d r) {t : List Char}
    (ht : Denotes r t) : d ∉ t := by
  induction r generalizing t with
  | empty =>
      rw [Denotes] at ht
      rw [ht]
      exact List.not_mem_nil
  | char p =>
      obtain ⟨c, hc, rfl⟩ := ht
      intro hd
      rw [← List.mem_singleton.mp hd, show p d = false from h] at hc
      cases hc
  | many least p =>
      intro hd
      have hp := ht.2 d hd
      rw [show p d = false from h] at hp
      cases hp
  | seq a b iha ihb =>
      obtain ⟨u, v, rfl, hu, hv⟩ := ht
      rw [List.mem_append]
      exact fun hd => hd.elim (iha h.1 hu) (ihb h.2 hv)
  | alt a b iha ihb => exact ht.elim (iha h.1) (ihb h.2)
  | group r ih => exact ih h ht

theorem runs_append_cons {d : Char} {p : Char → Bool} (h : p d = false) (u v : List Char) :
    runs p (u ++ d :: v) = runs p u := by
  induction u with
  | nil => simp [runs, h]
  | cons c u ih => rw [List.cons_append, runs, runs, ih]

/-- The matcher does not look beyond a character that is in no class. -/
theorem hits_append_cons {d : Char} {r : Regex} (h : Avoids d r) (u v : List Char) :
    hits r (u ++ d :: v) = hits r u := by
  induction r generalizing u v with
  | empty => rfl
  | char p =>
      cases u with
      | nil =>
          have hd : p d = false := h
          simp [hits, hd]
      | cons c u => rfl
  | many least p => rw [hits, hits, runs_append_cons h]
  | seq a b iha ihb =>
      rw [hits, hits, iha h.1]
      apply List.flatMap_congr
      intro ha hmem
      have hstart := ((exists_hit_iff a u ha.text).mp ⟨ha, hmem, rfl⟩).1
      rw [List.drop_append_of_le_length hstart.length_le, ihb h.2]
  | alt a b iha ihb => rw [hits, hits, iha h.1, ihb h.2]
  | group r ih => rw [hits, hits, ih h]

end Regex
