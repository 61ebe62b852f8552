import EvalOps.Lib.PyText

/-!
# `EvalOps.Lib.TextFiles`: the text of a file and its lines

`readText` is Python's `Path.read_text` with UTF-8: strict decoding, and then universal newlines.
`splitlines` is `str.splitlines`. Of the lines that hold anything, these two together leave those
between the line breaks of the text, whatever the line breaks are (`filter_splitlines`).
-/

set_option autoImplicit false

namespace TextFiles

open PyText (isLineBreak splitlinesFrom)

/-- Universal newlines: a carriage return is a line feed, with a line feed behind it or without. -/
def universalNewlines : List Char → List Char
  | [] => []
  | [c] => [if c.toNat = 13 then '\n' else c]
  | c :: d :: cs =>
      if c.toNat = 13 then
        if d.toNat = 10 then d :: universalNewlines cs else '\n' :: universalNewlines (d :: cs)
      else c :: universalNewlines (d :: cs)

/-- `path.read_text(encoding="utf-8")` of the bytes of a file. -/
def readText (data : ByteArray) : Option (List Char) :=
  (String.fromUTF8? data).map fun s => universalNewlines s.toList

/-- A line without the line break that ends it. -/
def dropBreak (line : List Char) : List Char := (line.reverse.dropWhile isLineBreak).reverse

/-- `str.splitlines()`. -/
def splitlines (cs : List Char) : List (List Char) := (splitlinesFrom [] cs).map dropBreak

theorem fromUTF8?_toUTF8 (s : String) : String.fromUTF8? s.toUTF8 = some s :=
  dif_pos s.isValidUTF8

/-- What is written in UTF-8 is read back, with its newlines translated. -/
theorem readText_toUTF8 (s : String) : readText s.toUTF8 = some (universalNewlines s.toList) := by
  rw [readText, fromUTF8?_toUTF8]
  rfl

/-! ### The lines that hold something -/

/-- A text up to its first line break is its first line. -/
theorem splitOnP_append_break {current : List Char} (h : ∀ c ∈ current, isLineBreak c = false)
    {b : Char} (hb : isLineBreak b = true) (cs : List Char) :
    (current ++ b :: cs).splitOnP isLineBreak = current :: cs.splitOnP isLineBreak :=
  List.splitOnP_append_cons_of_forall_mem h b hb cs

theorem splitOnP_eq_singleton {current : List Char} (h : ∀ c ∈ current, isLineBreak c = false) :
    current.splitOnP isLineBreak = [current] :=
  List.splitOnP_eq_singleton h

theorem dropBreak_eq {line : List Char} (h : ∀ c ∈ line, isLineBreak c = false) :
    dropBreak line = line := by
  cases hline : line.reverse with
  | nil =>
      rw [List.reverse_eq_nil_iff.mp hline]
      rfl
  | cons c cs =>
      have hc : isLineBreak c = false := h c (by
        rw [← List.mem_reverse, hline]
        exact List.mem_cons_self)
      rw [dropBreak, hline, List.dropWhile_cons_of_neg (by simp [hc]), ← hline,
        List.reverse_reverse]

theorem dropBreak_concat {line : List Char} (h : ∀ c ∈ line, isLineBreak c = false) {b : Char}
    (hb : isLineBreak b = true) : dropBreak (line ++ [b]) = line := by
  rw [dropBreak, List.reverse_append, List.reverse_singleton, List.singleton_append,
    List.dropWhile_cons_of_pos hb]
  exact dropBreak_eq h

variable {holds : List Char → Bool}

/-- The lines of a text without carriage returns that hold something. -/
theorem filter_splitlinesFrom (hempty : holds [] = false) {current cs : List Char}
    (hcurrent : ∀ c ∈ current, isLineBreak c = false) (hcs : ∀ c ∈ cs, c.toNat ≠ 13) :
    ((splitlinesFrom current cs).map dropBreak).filter holds
      = ((current ++ cs).splitOnP isLineBreak).filter holds := by
  induction cs generalizing current with
  | nil =>
      rw [List.append_nil, splitOnP_eq_singleton hcurrent, splitlinesFrom]
      split
      · rename_i hnil
        rw [List.isEmpty_iff.mp hnil]
        simp [hempty]
      · rw [List.map_singleton, dropBreak_eq hcurrent]
  | cons c cs ih =>
      have hrest : ∀ d ∈ cs, d.toNat ≠ 13 := fun d hd => hcs d (List.mem_cons_of_mem c hd)
      rw [splitlinesFrom]
      by_cases hc : isLineBreak c = true
      · have hreturn : (c.toNat == 13) = false := by
          simpa using hcs c List.mem_cons_self
        have hsplit : ((splitlinesFrom [] cs).map dropBreak).filter holds
            = (([] ++ cs).splitOnP isLineBreak).filter holds :=
          ih (fun d hd => absurd hd List.not_mem_nil) hrest
        rw [List.nil_append] at hsplit
        rw [if_pos (by simp [hc, hreturn]), List.map_cons, dropBreak_concat hcurrent hc,
          splitOnP_append_break hcurrent hc, List.filter_cons, List.filter_cons, hsplit]
      · rw [if_neg (by simp [hc]), List.append_cons current c cs]
        refine ih (fun d hd => ?_) hrest
        rcases List.mem_append.mp hd with hd | hd
        · exact hcurrent d hd
        · rw [List.mem_singleton.mp hd]
          simpa using hc

/-- Universal newlines leave no carriage return. -/
theorem toNat_ne_of_mem_universalNewlines (cs : List Char) :
    ∀ c ∈ universalNewlines cs, c.toNat ≠ 13 := by
  induction cs using universalNewlines.induct with
  | case1 => exact fun c hc => absurd hc List.not_mem_nil
  | case2 c =>
      intro d hd
      rw [List.mem_singleton.mp hd]
      split
      · decide
      · assumption
  | case3 c d cs hc hd ih =>
      rw [universalNewlines, if_pos hc, if_pos hd, List.forall_mem_cons]
      exact ⟨by omega, ih⟩
  | case4 c d cs hc hd ih =>
      rw [universalNewlines, if_pos hc, if_neg hd, List.forall_mem_cons]
      exact ⟨by decide, ih⟩
  | case5 c d cs hc ih =>
      rw [universalNewlines, if_neg hc, List.forall_mem_cons]
      exact ⟨hc, ih⟩

/-- A text without carriage returns is read as it is. -/
theorem universalNewlines_of_forall {cs : List Char} (h : ∀ c ∈ cs, c.toNat ≠ 13) :
    universalNewlines cs = cs := by
  induction cs using universalNewlines.induct with
  | case1 => rfl
  | case2 c => rw [universalNewlines, if_neg (h c List.mem_cons_self)]
  | case3 c d cs hc hd ih => exact absurd hc (h c List.mem_cons_self)
  | case4 c d cs hc hd ih => exact absurd hc (h c List.mem_cons_self)
  | case5 c d cs hc ih =>
      rw [universalNewlines, if_neg hc, ih fun e he => h e (List.mem_cons_of_mem c he)]

variable (holds) in
/-- Two texts have the same lines that hold something, whatever stands in front of both. -/
def SameLines (us vs : List Char) : Prop :=
  ∀ current, (∀ c ∈ current, isLineBreak c = false) →
    ((current ++ us).splitOnP isLineBreak).filter holds
      = ((current ++ vs).splitOnP isLineBreak).filter holds

/-- Behind a line break, whichever it is, the lines are those of what follows. -/
theorem SameLines.after_break {us vs : List Char} (h : SameLines holds us vs) {b b' : Char}
    (hb : isLineBreak b = true) (hb' : isLineBreak b' = true) :
    SameLines holds (b :: us) (b' :: vs) := by
  intro current hcurrent
  have hrest := h [] fun c hc => absurd hc List.not_mem_nil
  rw [List.nil_append, List.nil_append] at hrest
  rw [splitOnP_append_break hcurrent hb, splitOnP_append_break hcurrent hb', List.filter_cons,
    List.filter_cons, hrest]

theorem SameLines.cons {us vs : List Char} (h : SameLines holds us vs) (c : Char) :
    SameLines holds (c :: us) (c :: vs) := by
  by_cases hc : isLineBreak c = true
  · exact h.after_break hc hc
  · intro current hcurrent
    rw [List.append_cons current c us, List.append_cons current c vs]
    refine h _ fun d hd => ?_
    rcases List.mem_append.mp hd with hd | hd
    · exact hcurrent d hd
    · rw [List.mem_singleton.mp hd]
      simpa using hc

/-- An empty line holds nothing. -/
theorem SameLines.after_breaks (hempty : holds [] = false) {us vs : List Char}
    (h : SameLines holds us vs) {b b' b'' : Char} (hb : isLineBreak b = true)
    (hb' : isLineBreak b' = true) (hb'' : isLineBreak b'' = true) :
    SameLines holds (b :: us) (b' :: b'' :: vs) := by
  intro current hcurrent
  have hnil : ∀ c ∈ ([] : List Char), isLineBreak c = false :=
    fun c hc => absurd hc List.not_mem_nil
  have hsplit : (b'' :: vs).splitOnP isLineBreak = [] :: vs.splitOnP isLineBreak :=
    splitOnP_append_break hnil hb'' vs
  have hrest := h [] hnil
  rw [List.nil_append, List.nil_append] at hrest
  rw [splitOnP_append_break hcurrent hb, splitOnP_append_break hcurrent hb', hsplit,
    List.filter_cons, List.filter_cons (x := current),
    List.filter_cons_of_neg (by simp [hempty]), hrest]

theorem isLineBreak_of_toNat {c : Char} (h : c.toNat = 10 ∨ c.toNat = 13) :
    isLineBreak c = true := by
  rcases h with h | h <;> simp [isLineBreak, h]

/-- Universal newlines keep the lines that hold something. -/
theorem sameLines_universalNewlines (hempty : holds [] = false) (cs : List Char) :
    SameLines holds (universalNewlines cs) cs := by
  have hnewline : isLineBreak '\n' = true := by decide
  induction cs using universalNewlines.induct with
  | case1 => exact fun _ _ => rfl
  | case2 c =>
      have hnil : SameLines holds [] [] := fun _ _ => rfl
      rw [universalNewlines]
      split
      · rename_i hc
        exact hnil.after_break hnewline (isLineBreak_of_toNat (Or.inr hc))
      · exact hnil.cons c
  | case3 c d cs hc hd ih =>
      rw [universalNewlines, if_pos hc, if_pos hd]
      exact ih.after_breaks hempty (isLineBreak_of_toNat (Or.inl hd))
        (isLineBreak_of_toNat (Or.inr hc)) (isLineBreak_of_toNat (Or.inl hd))
  | case4 c d cs hc hd ih =>
      rw [universalNewlines, if_pos hc, if_neg hd]
      exact ih.after_break hnewline (isLineBreak_of_toNat (Or.inr hc))
  | case5 c d cs hc ih =>
      rw [universalNewlines, if_neg hc]
      exact ih.cons c

/-- Of the lines that hold something, universal newlines and `splitlines` leave those between the
line breaks of the text. -/
theorem filter_splitlines (hempty : holds [] = false) (cs : List Char) :
    (splitlines (universalNewlines cs)).filter holds
      = (cs.splitOnP isLineBreak).filter holds := by
  have hnil : ∀ c ∈ ([] : List Char), isLineBreak c = false :=
    fun c hc => absurd hc List.not_mem_nil
  have hnewlines := sameLines_universalNewlines hempty cs [] hnil
  rw [List.nil_append, List.nil_append] at hnewlines
  rw [splitlines, filter_splitlinesFrom hempty hnil (toNat_ne_of_mem_universalNewlines cs),
    List.nil_append, hnewlines]

/-! ### Lines of a text and its parts -/

/-- A line break is whitespace. -/
theorem isSpace_of_isLineBreak {c : Char} (h : isLineBreak c = true) :
    PyText.isSpace c = true := by
  simp only [isLineBreak, PyText.isSpace, Bool.or_eq_true, Bool.and_eq_true, decide_eq_true_eq,
    beq_iff_eq] at h ⊢
  omega

variable (holds) in
/-- The lines of a text that hold something. -/
def linesHolding (cs : List Char) : List (List Char) := (cs.splitOnP isLineBreak).filter holds

theorem linesHolding_nil (hempty : holds [] = false) : linesHolding holds [] = [] := by
  simp [linesHolding, hempty]

/-- The lines of two texts with a line break between them. -/
theorem linesHolding_append_break (us : List Char) {b : Char} (hb : isLineBreak b = true)
    (vs : List Char) :
    linesHolding holds (us ++ b :: vs) = linesHolding holds us ++ linesHolding holds vs := by
  rw [linesHolding, List.splitOnP_append_cons us vs hb, List.filter_append]
  rfl

theorem linesHolding_singleton {line : List Char} (h : ∀ c ∈ line, isLineBreak c = false)
    (hline : holds line = true) : linesHolding holds line = [line] := by
  rw [linesHolding, splitOnP_eq_singleton h, List.filter_cons_of_pos hline, List.filter_nil]

variable {space : Char → Bool}

theorem linesHolding_spaces_from
    (hspace : ∀ line, (∀ c ∈ line, space c = true) → holds line = false)
    {current w : List Char} (hcurrent : ∀ c ∈ current, space c = true ∧ isLineBreak c = false)
    (hw : ∀ c ∈ w, space c = true) : linesHolding holds (current ++ w) = [] := by
  have hblank : holds current = false := hspace current fun c hc => (hcurrent c hc).1
  induction w generalizing current with
  | nil =>
      rw [List.append_nil, linesHolding, splitOnP_eq_singleton fun c hc => (hcurrent c hc).2]
      simp [hblank]
  | cons c w ih =>
      have hc := hw c List.mem_cons_self
      have hrest : ∀ d ∈ w, space d = true := fun d hd => hw d (List.mem_cons_of_mem c hd)
      by_cases hbreak : isLineBreak c = true
      · have hnil : linesHolding holds ([] ++ w) = [] :=
          ih (fun d hd => absurd hd List.not_mem_nil) hrest (hspace [] (by simp))
        rw [linesHolding, splitOnP_append_break (fun d hd => (hcurrent d hd).2) hbreak,
          List.filter_cons_of_neg (by simp [hblank])]
        exact hnil
      · rw [List.append_cons current c w]
        have hcurrent' : ∀ d ∈ current ++ [c], space d = true ∧ isLineBreak d = false := by
          intro d hd
          rcases List.mem_append.mp hd with hd | hd
          · exact hcurrent d hd
          · rw [List.mem_singleton.mp hd]
            exact ⟨hc, by simpa using hbreak⟩
        exact ih hcurrent' hrest (hspace _ fun d hd => (hcurrent' d hd).1)

/-- A text of whitespace has no line that holds something. -/
theorem linesHolding_spaces (hspace : ∀ line, (∀ c ∈ line, space c = true) → holds line = false)
    {w : List Char} (hw : ∀ c ∈ w, space c = true) : linesHolding holds w = [] := by
  have hfrom : linesHolding holds ([] ++ w) = [] :=
    linesHolding_spaces_from hspace (fun c hc => absurd hc List.not_mem_nil) hw
  rwa [List.nil_append] at hfrom

theorem linesHolding_spaces_append_from
    (hspace : ∀ line, (∀ c ∈ line, space c = true) → holds line = false) {current u : List Char}
    (hcurrent : ∀ c ∈ current, space c = true ∧ isLineBreak c = false)
    (hu : ∀ c ∈ u, space c = true) (vs : List Char) :
    ∃ u', (∀ c ∈ u', space c = true ∧ isLineBreak c = false) ∧
      linesHolding holds (current ++ u ++ vs) = linesHolding holds (u' ++ vs) := by
  induction u generalizing current with
  | nil => exact ⟨current, hcurrent, by rw [List.append_nil]⟩
  | cons c u ih =>
      have hc := hu c List.mem_cons_self
      have hrest : ∀ d ∈ u, space d = true := fun d hd => hu d (List.mem_cons_of_mem c hd)
      by_cases hbreak : isLineBreak c = true
      · have hafter : ∃ u', (∀ c ∈ u', space c = true ∧ isLineBreak c = false) ∧
            linesHolding holds ([] ++ u ++ vs) = linesHolding holds (u' ++ vs) :=
          ih (fun d hd => absurd hd List.not_mem_nil) hrest
        obtain ⟨u', hu', hlines⟩ := hafter
        refine ⟨u', hu', ?_⟩
        have hblank := hspace current fun d hd => (hcurrent d hd).1
        rw [← hlines, List.nil_append, List.append_assoc, List.cons_append, linesHolding,
          splitOnP_append_break (fun d hd => (hcurrent d hd).2) hbreak,
          List.filter_cons_of_neg (by simp [hblank])]
        rfl
      · rw [List.append_cons current c u]
        refine ih (fun d hd => ?_) hrest
        rcases List.mem_append.mp hd with hd | hd
        · exact hcurrent d hd
        · rw [List.mem_singleton.mp hd]
          exact ⟨hc, by simpa using hbreak⟩

/-- Of whitespace in front of a text, what stands on the line of the text matters. -/
theorem linesHolding_spaces_append
    (hspace : ∀ line, (∀ c ∈ line, space c = true) → holds line = false) {u : List Char}
    (hu : ∀ c ∈ u, space c = true) (vs : List Char) :
    ∃ u', (∀ c ∈ u', space c = true ∧ isLineBreak c = false) ∧
      linesHolding holds (u ++ vs) = linesHolding holds (u' ++ vs) := by
  have hfrom : ∃ u', (∀ c ∈ u', space c = true ∧ isLineBreak c = false) ∧
      linesHolding holds ([] ++ u ++ vs) = linesHolding holds (u' ++ vs) :=
    linesHolding_spaces_append_from hspace (fun c hc => absurd hc List.not_mem_nil) hu vs
  rwa [List.nil_append] at hfrom

/-- Of whitespace behind a line that holds something, what stands on this line matters. -/
theorem linesHolding_append_spaces
    (hspace : ∀ line, (∀ c ∈ line, space c = true) → holds line = false) {line w : List Char}
    (hline : ∀ c ∈ line, isLineBreak c = false) (hholds : ∀ w', holds (line ++ w') = true)
    (hw : ∀ c ∈ w, space c = true) :
    ∃ w', (∀ c ∈ w', space c = true) ∧ linesHolding holds (line ++ w) = [line ++ w'] := by
  induction w generalizing line with
  | nil =>
      refine ⟨[], fun c hc => absurd hc List.not_mem_nil, ?_⟩
      rw [List.append_nil]
      exact linesHolding_singleton hline (by simpa using hholds [])
  | cons c w ih =>
      have hrest : ∀ d ∈ w, space d = true := fun d hd => hw d (List.mem_cons_of_mem c hd)
      by_cases hbreak : isLineBreak c = true
      · refine ⟨[], fun d hd => absurd hd List.not_mem_nil, ?_⟩
        rw [linesHolding_append_break line hbreak, linesHolding_spaces hspace hrest,
          List.append_nil, List.append_nil]
        exact linesHolding_singleton hline (by simpa using hholds [])
      · rw [List.append_cons line c w]
        have hline' : ∀ d ∈ line ++ [c], isLineBreak d = false := by
          intro d hd
          rcases List.mem_append.mp hd with hd | hd
          · exact hline d hd
          · rw [List.mem_singleton.mp hd]
            simpa using hbreak
        obtain ⟨w', hw', hlines⟩ :=
          ih hline' (fun w' => by rw [List.append_assoc]; exact hholds _) hrest
        refine ⟨c :: w', ?_, by rw [hlines, List.append_assoc]; rfl⟩
        rw [List.forall_mem_cons]
        exact ⟨hw c List.mem_cons_self, hw'⟩

/-- A text without line breaks, or up to the first one. -/
theorem exists_first_break {cs : List Char} (h : ¬ ∀ c ∈ cs, isLineBreak c = false) :
    ∃ line b rest, cs = line ++ b :: rest ∧ (∀ c ∈ line, isLineBreak c = false) ∧
      isLineBreak b = true := by
  induction cs with
  | nil => exact absurd (fun c hc => absurd hc List.not_mem_nil) h
  | cons c cs ih =>
      by_cases hc : isLineBreak c = true
      · exact ⟨[], c, cs, rfl, fun d hd => absurd hd List.not_mem_nil, hc⟩
      · rw [List.forall_mem_cons] at h
        obtain ⟨line, b, rest, rfl, hline, hb⟩ := ih fun hall => h ⟨by simpa using hc, hall⟩
        refine ⟨c :: line, b, rest, rfl, ?_, hb⟩
        rw [List.forall_mem_cons]
        exact ⟨by simpa using hc, hline⟩

/-- What holds of a text without line breaks, and of a text when it holds behind its first line
break, holds of every text. -/
theorem induction_lines {motive : List Char → Prop}
    (hline : ∀ line, (∀ c ∈ line, isLineBreak c = false) → motive line)
    (hbreak : ∀ line b rest, (∀ c ∈ line, isLineBreak c = false) → isLineBreak b = true →
      motive rest → motive (line ++ b :: rest)) (cs : List Char) : motive cs := by
  induction hlength : cs.length using Nat.strong_induction_on generalizing cs with
  | h n ih =>
      by_cases hbroken : ∀ c ∈ cs, isLineBreak c = false
      · exact hline cs hbroken
      · obtain ⟨line, b, rest, rfl, hfirst, hb⟩ := exists_first_break hbroken
        have hlt : rest.length < n := by
          rw [← hlength, List.length_append, List.length_cons]
          omega
        exact hbreak line b rest hfirst hb (ih _ hlt rest rfl)

theorem linesHolding_line {line : List Char} (h : ∀ c ∈ line, isLineBreak c = false) :
    linesHolding holds line = [line].filter holds := by
  rw [linesHolding, splitOnP_eq_singleton h]

/-- A line of a text is a part of it. -/
theorem mem_of_mem_linesHolding {cs line : List Char} (h : line ∈ linesHolding holds cs) :
    ∀ c ∈ line, c ∈ cs := by
  induction cs using induction_lines with
  | hline cs hcs =>
      rw [linesHolding_line hcs] at h
      rw [List.mem_singleton.mp (List.mem_of_mem_filter h)]
      exact fun c hc => hc
  | hbreak first b rest hfirst hb ih =>
      rw [linesHolding_append_break first hb, List.mem_append, linesHolding_line hfirst] at h
      intro c hc
      rcases h with h | h
      · rw [List.mem_singleton.mp (List.mem_of_mem_filter h)] at hc
        exact List.mem_append_left _ hc
      · exact List.mem_append_right _ (List.mem_cons_of_mem b (ih h c hc))

/-- A character that makes a line hold something is on a line. -/
theorem linesHolding_ne_nil {cs : List Char} {c : Char} (hc : c ∈ cs)
    (hbreak : isLineBreak c = false) (hholds : ∀ line, c ∈ line → holds line = true) :
    linesHolding holds cs ≠ [] := by
  induction cs using induction_lines with
  | hline cs hcs =>
      rw [linesHolding_line hcs, List.filter_cons_of_pos (hholds cs hc)]
      exact List.cons_ne_nil _ _
  | hbreak first b rest hfirst hb ih =>
      rw [linesHolding_append_break first hb, linesHolding_line hfirst]
      rcases List.mem_append.mp hc with hc | hc
      · rw [List.filter_cons_of_pos (hholds first hc)]
        exact List.cons_ne_nil _ _
      · rcases List.mem_cons.mp hc with rfl | hc
        · rw [hb] at hbreak
          cases hbreak
        · exact List.append_ne_nil_of_right_ne_nil _ (ih hc)

/-- The lines between line feeds have the lines of the text. -/
theorem linesHolding_splitOn (hempty : holds [] = false) (cs : List Char) :
    linesHolding holds cs = (cs.splitOn '\n').flatMap (linesHolding holds) := by
  have hbreak : isLineBreak '\n' = true := by decide
  have hlines : ∀ lines : List (List Char),
      linesHolding holds (List.intercalate ['\n'] lines) = lines.flatMap (linesHolding holds) := by
    intro lines
    induction lines with
    | nil => exact linesHolding_nil hempty
    | cons line lines ih =>
        cases lines with
        | nil => simp [List.intercalate]
        | cons next lines =>
            have htext : List.intercalate ['\n'] (line :: next :: lines)
                = line ++ '\n' :: List.intercalate ['\n'] (next :: lines) := by
              simp [List.intercalate]
            rw [htext, linesHolding_append_break line hbreak, ih, List.flatMap_cons (x := line)]
  rw [← hlines, List.intercalate_splitOn]

end TextFiles
