import EvalOps.Lib.JsonRoundTrip
import EvalOps.Lib.Occurrences
import EvalOps.Proofs.Judge

/-!
# `EvalOps.Proofs.Framing`: the object of a reply, found again

`_extract_json_object` works on the raw text: it takes the part between the first two fences when
the text starts with one, and then the part from the first `{` to the last `}`. The section on
extraction follows an object `{...}` with any text inside through these steps.

The text in front must not hold `{` and the text behind must not hold `}`. Then the object is found
whole, unless the text in front opens a fence that ends in front of the object or inside it. In the
first case there is no object (`braced_stripFence_before`), and in the second it is cut
(`braced_stripFence_cut`). The object of a verdict is cut inside its last string, so it cannot be
decoded, and `parseJudgeVerdict_framed_iff` says exactly when a verdict comes back.
-/

set_option autoImplicit false

namespace EvalOps

open PyText (lstripChars rstripChars stripChars partitionChars partitionChars_append
  partitionChars_append_cons)
open Occurrences

/-! ### Braces -/

/-- The text from the first opening brace on. -/
theorem dropWhile_open {u : List Char} (hu : '{' ∉ u) (x : List Char) :
    (u ++ '{' :: x).dropWhile (fun c => c ≠ '{') = '{' :: x := by
  have hall : ∀ c ∈ u, decide (c ≠ '{') = true := fun c hc =>
    decide_eq_true fun h => hu (h ▸ hc)
  rw [List.dropWhile_append_of_pos hall, List.dropWhile_cons_of_neg (by simp)]

theorem braced_eq_none {u : List Char} (hu : '{' ∉ u) : braced u = none := by
  have hall : ∀ c ∈ u, decide (c ≠ '{') = true := fun c hc =>
    decide_eq_true fun h => hu (h ▸ hc)
  rw [braced, List.dropWhile_eq_nil_iff.mpr hall]
  rfl

/-- The part up to the last closing brace is found. -/
theorem braced_append {u m v : List Char} (hu : '{' ∉ u) (hv : '}' ∉ v) :
    braced (u ++ '{' :: (m ++ '}' :: v)) = some ('{' :: (m ++ ['}'])) := by
  have hall : ∀ c ∈ v.reverse, decide (c ≠ '}') = true := fun c hc =>
    decide_eq_true fun h => hv (h ▸ List.mem_reverse.mp hc)
  have hreverse : ('{' :: (m ++ '}' :: v)).reverse = v.reverse ++ '}' :: ('{' :: m).reverse := by
    simp
  rw [braced, dropWhile_open hu]
  rw [hreverse, List.dropWhile_append_of_pos hall, List.dropWhile_cons_of_neg (by simp)]
  simp

/-- Without a closing brace behind the opening one, nothing is found. -/
theorem braced_open {u x : List Char} (hu : '{' ∉ u) (hx : '}' ∉ x) :
    braced (u ++ '{' :: x) = none := by
  have hall : ∀ c ∈ ('{' :: x).reverse, decide (c ≠ '}') = true := by
    intro c hc
    refine decide_eq_true ?_
    rintro rfl
    rcases List.mem_cons.mp (List.mem_reverse.mp hc) with h | h
    · exact absurd h (by decide)
    · exact hx h
  rw [braced, dropWhile_open hu]
  rw [List.dropWhile_eq_nil_iff.mpr hall]
  rfl

/-- A character occurs last somewhere. -/
theorem exists_last_of_mem {d : Char} {x : List Char} (h : d ∈ x) :
    ∃ m v, x = m ++ d :: v ∧ d ∉ v := by
  obtain ⟨m, v, hsplit, hm⟩ := List.eq_append_cons_of_mem (List.mem_reverse.mpr h)
  refine ⟨v.reverse, m.reverse, ?_, fun hmem => hm (List.mem_reverse.mp hmem)⟩
  have hx := congrArg List.reverse hsplit
  simpa using hx

/-- What is found in a text with an opening brace ends at a closing one. -/
theorem braced_cut {u : List Char} (hu : '{' ∉ u) (x : List Char) :
    braced (u ++ '{' :: x) = none ∨
      ∃ m, m ++ ['}'] <+: x ∧ braced (u ++ '{' :: x) = some ('{' :: (m ++ ['}'])) := by
  by_cases hx : '}' ∈ x
  · obtain ⟨m, v, rfl, hv⟩ := exists_last_of_mem hx
    refine Or.inr ⟨m, ⟨v, ?_⟩, braced_append hu hv⟩
    rw [List.append_assoc, List.singleton_append]
  · exact Or.inl (braced_open hu hx)

/-! ### The word in front -/

/-- A letter other than `i` at the front of lowered text is the lower case of one character. -/
theorem lowerChar_of_prefix_cons {c x : Char} {xs t : List Char} (hx : x ≠ 'i')
    (h : x :: xs <+: PyText.lowerChar c ++ t) : xs <+: t ∧ (c = '{' → x = '{') := by
  unfold PyText.lowerChar at h
  dsimp only at h
  split_ifs at h with hupper hkelvin hdotted
  · obtain ⟨_, hxs⟩ := List.cons_prefix_cons.mp h
    refine ⟨hxs, ?_⟩
    rintro rfl
    exact absurd hupper (by decide)
  · obtain ⟨_, hxs⟩ := List.cons_prefix_cons.mp h
    refine ⟨hxs, ?_⟩
    rintro rfl
    exact absurd hkelvin (by decide)
  · obtain ⟨hi, _⟩ := List.cons_prefix_cons.mp h
    exact absurd hi hx
  · obtain ⟨rfl, hxs⟩ := List.cons_prefix_cons.mp h
    exact ⟨hxs, id⟩

/-- A word at the front of lowered text does not reach a brace. -/
theorem length_le_of_lowered_prefix {word : List Char} (hi : 'i' ∉ word) (hbrace : '{' ∉ word)
    {b w : List Char} (h : word <+: (b ++ '{' :: w).flatMap PyText.lowerChar) :
    word.length ≤ b.length := by
  induction word generalizing b with
  | nil => exact Nat.zero_le _
  | cons x xs ih =>
      have hx : x ≠ 'i' := fun heq => hi (heq ▸ List.mem_cons_self)
      cases b with
      | nil =>
          rw [List.nil_append, List.flatMap_cons] at h
          have hopen := (lowerChar_of_prefix_cons hx h).2 rfl
          exact absurd (hopen ▸ List.mem_cons_self) hbrace
      | cons c b =>
          rw [List.cons_append, List.flatMap_cons] at h
          have hrest := (lowerChar_of_prefix_cons hx h).1
          exact Nat.succ_le_succ (ih (fun hmem => hi (List.mem_cons_of_mem _ hmem))
            (fun hmem => hbrace (List.mem_cons_of_mem _ hmem)) hrest)

/-- Dropping the word `json` keeps what starts with a brace. -/
theorem dropLanguage_append_cons (b w : List Char) :
    ∃ b', b' <:+ b ∧ dropLanguage (b ++ '{' :: w) = b' ++ '{' :: w := by
  have hstrip := PyText.lstripChars_append_cons b w (c := '{') (by decide)
  have hsuffix : lstripChars b <:+ b := List.dropWhile_suffix PyText.isSpace
  unfold dropLanguage
  dsimp only
  split_ifs with hword
  · rw [PyText.startswith, PyText.lower, List.isPrefixOf_iff_prefix, hstrip] at hword
    simp only [String.toList_ofList] at hword
    have hi : 'i' ∉ ['j', 's', 'o', 'n'] := by decide
    have hbrace : '{' ∉ ['j', 's', 'o', 'n'] := by decide
    have hlen : 4 ≤ (lstripChars b).length := length_le_of_lowered_prefix hi hbrace hword
    refine ⟨(lstripChars b).drop 4, (List.drop_suffix _ _).trans hsuffix, ?_⟩
    rw [hstrip, List.drop_append_of_le_length hlen]
  · exact ⟨b, List.suffix_rfl, rfl⟩

theorem dropLanguage_sublist (candidate : List Char) :
    (dropLanguage candidate).Sublist candidate := by
  unfold dropLanguage
  dsimp only
  split_ifs
  · exact (List.drop_sublist _ _).trans (List.dropWhile_sublist _)
  · exact List.Sublist.refl _

/-! ### The fence -/

theorem open_notMem_fence : '{' ∉ fence := by decide

theorem close_notMem_fence : '}' ∉ fence := by decide

/-- The part between a fence in front and the next one. -/
theorem fencedBlock_fence_append (rest : List Char) :
    fencedBlock (fence ++ rest) =
      match partitionChars fence rest with
      | none => fence ++ rest
      | some (block, _) => block := by
  rfl

/-- The object of a text without an opening brace in front of it and a closing one behind it. -/
theorem braced_strip_whole {b a : List Char} (hb : '{' ∉ b) (ha : '}' ∉ a) (m : List Char) :
    braced (stripChars (dropLanguage (b ++ '{' :: (m ++ '}' :: a)))) =
      some ('{' :: (m ++ ['}'])) := by
  obtain ⟨b', hsuffix, hdrop⟩ := dropLanguage_append_cons b (m ++ '}' :: a)
  have hb' : '{' ∉ lstripChars b' := fun h =>
    hb (hsuffix.mem ((List.dropWhile_sublist _).mem h))
  have ha' : '}' ∉ rstripChars a := fun h => ha ((PyText.rstripChars_prefix_self a).mem h)
  rw [hdrop, PyText.stripChars_append_cons _ _ (by decide),
    PyText.rstripChars_append_cons _ _ (by decide), braced_append hb' ha']

/-- The object of a text with two fences in front and behind, or without a second fence. -/
theorem braced_stripFence_whole {b a m : List Char} (hb : '{' ∉ b) (ha : '}' ∉ a)
    (hbfence : ¬ fence <:+: b) (hmfence : ¬ fence <:+: m) :
    braced (stripFence (fence ++ (b ++ '{' :: (m ++ '}' :: a)))) = some ('{' :: (m ++ ['}'])) := by
  have hopen : '{' ∉ fence ++ b := fun h =>
    (List.mem_append.mp h).elim open_notMem_fence hb
  rw [stripFence, fencedBlock_fence_append, partitionChars_append_cons open_notMem_fence hbfence,
    partitionChars_append_cons close_notMem_fence hmfence]
  cases hsplit : partitionChars fence a with
  | none =>
      simp only [Option.map_none]
      rw [← List.append_assoc]
      exact braced_strip_whole hopen ha m
  | some r =>
      obtain ⟨x, y⟩ := r
      simp only [Option.map_some]
      have hx : '}' ∉ x := by
        rw [PyText.eq_append_of_partitionChars hsplit] at ha
        exact fun h => ha (List.mem_append_left _ (List.mem_append_left _ h))
      exact braced_strip_whole hb hx m

/-- A second fence in front of the object hides it. -/
theorem braced_stripFence_before {b : List Char} (hb : '{' ∉ b) (hbfence : fence <:+: b)
    (tail : List Char) : braced (stripFence (fence ++ (b ++ tail))) = none := by
  obtain ⟨⟨x, y⟩, hsplit⟩ :=
    Option.isSome_iff_exists.mp ((PyText.partitionChars_isSome_iff b).mpr hbfence)
  have hx : '{' ∉ x := by
    rw [PyText.eq_append_of_partitionChars hsplit] at hb
    exact fun h => hb (List.mem_append_left _ (List.mem_append_left _ h))
  rw [stripFence, fencedBlock_fence_append, partitionChars_append hsplit]
  refine braced_eq_none fun h => hx ?_
  exact (dropLanguage_sublist x).mem ((PyText.stripChars_sublist _).mem h)

/-- A second fence inside the object cuts it. -/
theorem braced_stripFence_cut {b m : List Char} (hb : '{' ∉ b) (hbfence : ¬ fence <:+: b)
    (hmfence : fence <:+: m) (tail : List Char) :
    braced (stripFence (fence ++ (b ++ '{' :: (m ++ tail)))) = none ∨
      ∃ q, q ++ ['}'] <+: m ∧
        braced (stripFence (fence ++ (b ++ '{' :: (m ++ tail)))) = some ('{' :: (q ++ ['}'])) := by
  obtain ⟨⟨x, y⟩, hsplit⟩ :=
    Option.isSome_iff_exists.mp ((PyText.partitionChars_isSome_iff m).mpr hmfence)
  obtain ⟨b', hsuffix, hdrop⟩ := dropLanguage_append_cons b x
  have hb' : '{' ∉ lstripChars b' := fun h =>
    hb (hsuffix.mem ((List.dropWhile_sublist _).mem h))
  have hblock : stripFence (fence ++ (b ++ '{' :: (m ++ tail))) =
      lstripChars b' ++ '{' :: rstripChars x := by
    rw [stripFence, fencedBlock_fence_append, partitionChars_append_cons open_notMem_fence hbfence,
      partitionChars_append hsplit]
    simp only [Option.map_some]
    rw [hdrop, PyText.stripChars_append_cons _ _ (by decide)]
  rw [hblock]
  refine (braced_cut hb' (rstripChars x)).imp_right ?_
  rintro ⟨q, hq, hfound⟩
  refine ⟨q, (hq.trans (PyText.rstripChars_prefix_self x)).trans ⟨fence ++ y, ?_⟩, hfound⟩
  rw [PyText.eq_append_of_partitionChars hsplit, List.append_assoc]

/-! ### The object of a reply -/

section Extraction

variable {before m after : List Char} {text : String}

/-- A reply that starts with no fence holds its object. -/
theorem jsonText_unfenced (htext : text.toList = before ++ '{' :: (m ++ '}' :: after))
    (hbefore : '{' ∉ before) (hafter : '}' ∉ after)
    (hfence : ¬ fence <+: lstripChars before) :
    jsonText text = some ('{' :: (m ++ ['}'])) := by
  have hb : '{' ∉ lstripChars before := fun h => hbefore ((List.dropWhile_sublist _).mem h)
  have ha : '}' ∉ rstripChars after :=
    fun h => hafter ((PyText.rstripChars_prefix_self after).mem h)
  have hfront : ¬ fence.isPrefixOf
      (lstripChars before ++ '{' :: (m ++ '}' :: rstripChars after)) := by
    rw [List.isPrefixOf_iff_prefix, prefix_append_cons_iff open_notMem_fence]
    exact hfence
  rw [jsonText, judgeCandidate, htext, PyText.stripChars_append_cons _ _ (by decide),
    PyText.rstripChars_append_cons _ _ (by decide), if_neg hfront]
  exact braced_append hb ha

/-- The object of a reply that starts with a fence is searched behind it. -/
theorem jsonText_fenced {rest : List Char}
    (htext : text.toList = before ++ '{' :: (m ++ '}' :: after))
    (hfence : lstripChars before = fence ++ rest) :
    jsonText text =
      braced (stripFence (fence ++ (rest ++ '{' :: (m ++ '}' :: rstripChars after)))) := by
  have hfront : fence.isPrefixOf
      (fence ++ (rest ++ '{' :: (m ++ '}' :: rstripChars after))) :=
    List.isPrefixOf_iff_prefix.mpr (List.prefix_append _ _)
  rw [jsonText, judgeCandidate, htext, PyText.stripChars_append_cons _ _ (by decide),
    PyText.rstripChars_append_cons _ _ (by decide), hfence, List.append_assoc, if_pos hfront]

end Extraction

/-! ### The object of a verdict -/

/-- The fields in front of the reasoning. -/
def leadingFields (passed : Bool) (score : ℚ) : List (String × Json) :=
  [("verdict", .str (if passed then "pass" else "fail")), ("score", .float score)]

/-- The JSON object that encodes a verdict. -/
def encodeVerdict (passed : Bool) (score : ℚ) (reasoning : String) : String :=
  Json.dumpsLine FloatText.repr
    (.obj (leadingFields passed score ++ [("reasoning", .str reasoning)]))

/-- The verdict that an encoding stands for. -/
def decodedVerdict (passed : Bool) (score : ℚ) (reasoning : String) : JudgeVerdict where
  passed := passed
  score := score
  reasoning := if PyText.isBlank reasoning then none else some (PyText.strip reasoning)

/-- The text of the object in front of the reasoning. -/
def leadingText (passed : Bool) (score : ℚ) : List Char :=
  JsonReader.openFields (leadingFields passed score) ++
    ((Json.encodeString "reasoning").toList ++ [':', ' '])

/-- The text of the object between its braces. -/
def innerText (passed : Bool) (score : ℚ) (reasoning : String) : List Char :=
  leadingText passed score ++
    PyText.doubleQuote :: (reasoning.toList.flatMap Json.escapeChar ++ [PyText.doubleQuote])

theorem toList_encodeVerdict (passed : Bool) (score : ℚ) (reasoning : String) :
    (encodeVerdict passed score reasoning).toList =
      '{' :: (innerText passed score reasoning ++ ['}']) := by
  rw [encodeVerdict, Json.dumpsLine, String.toList_ofList, Json.line,
    JsonReader.lineFields_append_singleton, Json.line, JsonReader.toList_encodeString reasoning,
    innerText, leadingText]
  simp only [List.append_assoc, List.cons_append, List.nil_append]

/-- A character that neither closes an object nor belongs to a fence. -/
def Plain (c : Char) : Prop := c ≠ '}' ∧ c ∉ fence

instance (c : Char) : Decidable (Plain c) := inferInstanceAs (Decidable (_ ∧ _))

theorem plain_of_all {cs : List Char} (h : cs.all fun c => decide (Plain c)) :
    ∀ c ∈ cs, Plain c :=
  fun c hc => of_decide_eq_true (List.all_eq_true.mp h c hc)

/-- A float is written with plain characters. -/
theorem plain_of_mem_repr {score : ℚ} (h : PyFloat.IsDouble score) :
    ∀ c ∈ (FloatText.repr score).toList, Plain c := by
  intro c hc
  rw [FloatText.repr, String.toList_ofList] at hc
  rcases (FloatText.numeral_wellFormed h).mem_text hc with hdigit | hmem
  · constructor
    · rintro rfl
      exact absurd hdigit (by decide)
    · intro hfence
      rw [List.eq_of_mem_replicate hfence] at hdigit
      exact absurd hdigit (by decide)
  · have hall : ∀ c ∈ ['-', '+', '.', 'e'], Plain c := plain_of_all (by decide)
    exact hall c hmem

/-- The text in front of the reasoning is plain. -/
theorem plain_of_mem_leadingText (passed : Bool) {score : ℚ} (h : PyFloat.IsDouble score) :
    ∀ c ∈ leadingText passed score, Plain c := by
  have hword : ∀ c ∈ Json.line FloatText.repr (.str (if passed then "pass" else "fail")),
      Plain c := by
    cases passed <;> rw [Json.line] <;> exact plain_of_all (by decide)
  have hscore : ∀ c ∈ Json.line FloatText.repr (.float score), Plain c := by
    rw [Json.line]
    exact plain_of_mem_repr h
  have hverdict : ∀ c ∈ (Json.encodeString "verdict").toList, Plain c := plain_of_all (by decide)
  have hname : ∀ c ∈ (Json.encodeString "score").toList, Plain c := plain_of_all (by decide)
  have hreasoning : ∀ c ∈ (Json.encodeString "reasoning").toList, Plain c :=
    plain_of_all (by decide)
  have hcolon : Plain ':' ∧ Plain ' ' := by decide
  have hnil : ∀ c ∈ ([] : List Char), Plain c := fun c hc => absurd hc List.not_mem_nil
  have hspace : Plain ' ' ∧ ∀ c ∈ ([] : List Char), Plain c := ⟨hcolon.2, hnil⟩
  have hcomma : Plain ',' ∧ Plain ' ' ∧ ∀ c ∈ ([] : List Char), Plain c := ⟨by decide, hspace⟩
  simp only [leadingText, leadingFields, JsonReader.openFields, List.flatMap_cons,
    List.flatMap_nil, List.append_nil, List.forall_mem_append, List.forall_mem_cons]
  exact ⟨⟨⟨hverdict, hcolon.1, hcolon.2, hword, hcomma⟩,
    hname, hcolon.1, hcolon.2, hscore, hcomma⟩, hreasoning, hcolon.1, hspace⟩

theorem hexDigit_notMem_fence {d : ℕ} (h : d < 16) : PyText.hexDigit d ∉ fence := by
  have hall : ∀ d : Fin 16, PyText.hexDigit d ∉ fence := by decide
  exact hall ⟨d, h⟩

/-- The escapes of a string leave a fence alone. -/
theorem escapeChar_leavesAlone : LeavesAlone fence Json.escapeChar where
  own := by
    intro c hc
    rw [List.eq_of_mem_replicate hc]
    decide
  other := by
    have hbackslash : PyText.backslash ∉ fence := by decide
    have hplain : ∀ c ∈ ['n', 'r', 't', 'f', 'b', 'u'], Plain c := plain_of_all (by decide)
    have hletters : ∀ c ∈ ['n', 'r', 't', 'f', 'b', 'u'], c ∉ fence := fun c hc =>
      (hplain c hc).2
    have hunit : ∀ n < 0x10000, ∀ d ∈ Json.escapeUnit n, d ∉ fence := by
      intro n hn
      simp only [Json.escapeUnit, List.forall_mem_cons]
      exact ⟨hbackslash, hletters 'u' (by decide), hexDigit_notMem_fence (by omega),
        hexDigit_notMem_fence (by omega), hexDigit_notMem_fence (by omega),
        hexDigit_notMem_fence (by omega), fun d hd => absurd hd List.not_mem_nil⟩
    intro c hc
    have hbounds := JsonReader.toNat_bounds c
    unfold Json.escapeChar
    dsimp only
    split_ifs <;> refine ⟨List.cons_ne_nil _ _, ?_⟩
    · simpa using ⟨hbackslash, hc⟩
    · simpa using ⟨hbackslash, hletters 'n' (by decide)⟩
    · simpa using ⟨hbackslash, hletters 'r' (by decide)⟩
    · simpa using ⟨hbackslash, hletters 't' (by decide)⟩
    · simpa using ⟨hbackslash, hletters 'f' (by decide)⟩
    · simpa using ⟨hbackslash, hletters 'b' (by decide)⟩
    · simpa using hc
    · exact hunit _ (by omega)
    · exact List.forall_mem_append.mpr ⟨hunit _ (by omega), hunit _ (by omega)⟩

/-- The object holds a fence exactly when its reasoning does. -/
theorem fence_infix_innerText_iff (passed : Bool) {score : ℚ} (h : PyFloat.IsDouble score)
    (reasoning : String) :
    fence <:+: innerText passed score reasoning ↔ fence <:+: reasoning.toList := by
  have hne : fence ≠ [] := List.cons_ne_nil _ _
  have hquote : PyText.doubleQuote ∉ fence := by decide
  have hlead := fun c hc => (plain_of_mem_leadingText passed h c hc).2
  rw [innerText, infix_append_of_disjoint hne hlead]
  have hopen := infix_append_cons_iff (u := [])
    (v := reasoning.toList.flatMap Json.escapeChar ++ [PyText.doubleQuote]) hquote
  rw [List.nil_append, List.infix_nil, or_iff_right hne] at hopen
  rw [hopen, infix_append_cons_iff hquote, List.infix_nil, or_iff_left hne,
    infix_flatMap_iff hne escapeChar_leavesAlone]

/-- An object that is cut at a closing brace ends inside its reasoning. -/
theorem loads_cut (limits : JsonReader.Limits) (passed : Bool) {score : ℚ}
    (h : PyFloat.IsDouble score) {reasoning : String} {q : List Char}
    (hq : q ++ ['}'] <+: innerText passed score reasoning) :
    JsonReader.loads decodedHooks limits ('{' :: (q ++ ['}'])) = .error .malformed := by
  obtain ⟨depth, hdepth⟩ := Nat.exists_eq_succ_of_ne_zero (Nat.ne_of_gt limits.maxDepth_pos)
  have hreadable : JsonReader.Readable limits.maxDigits limits.maxDepth
      (.obj (leadingFields passed score)) := by
    rw [hdepth]
    have hkeys : ["verdict", "score"].Nodup := by decide
    exact ⟨hkeys, trivial, h, trivial⟩
  -- The front of the object holds no closing brace, so the cut is behind its last quote.
  obtain ⟨cut, hcut, tail, htail⟩ : ∃ cut, q ++ ['}'] =
      leadingText passed score ++ PyText.doubleQuote :: cut ∧
        cut <+: reasoning.toList.flatMap Json.escapeChar := by
    have hinner : innerText passed score reasoning =
        (leadingText passed score ++ [PyText.doubleQuote]) ++
          (reasoning.toList.flatMap Json.escapeChar ++ [PyText.doubleQuote]) := by
      rw [innerText, List.append_assoc, List.singleton_append]
    rw [hinner] at hq
    rcases List.prefix_or_prefix_of_prefix hq (List.prefix_append _ _) with hfront | ⟨cut, hcut⟩
    · have hmem := hfront.mem (List.mem_append_right q List.mem_cons_self)
      rcases List.mem_append.mp hmem with hlead | hquote
      · exact absurd rfl (plain_of_mem_leadingText passed h _ hlead).1
      · exact absurd (List.mem_singleton.mp hquote) (by decide)
    · rw [← hcut, List.prefix_append_right_inj, List.prefix_concat_iff] at hq
      rcases hq with hall | hcut'
      · -- The whole text in quotes does not end with a brace.
        rw [hall, ← List.append_assoc] at hcut
        exact absurd (List.append_inj_right' hcut rfl) (by decide)
      · refine ⟨cut, ?_, hcut'⟩
        rw [← hcut, List.append_assoc, List.singleton_append]
  have hloads := JsonReader.loads_truncated decodedHooks limits hreadable "reasoning" htail.symm
  rw [hcut, leadingText]
  simp only [List.append_assoc, List.cons_append, List.nil_append] at hloads ⊢
  exact hloads

/-- The object of a verdict is decoded to that verdict. -/
theorem parseJudgeVerdict_of_found {limits : JsonReader.Limits} {text : String} {passed : Bool}
    {score : ℚ} {reasoning : String} (hdouble : PyFloat.IsDouble score) (h0 : 0 ≤ score)
    (h1 : score ≤ 1) (evaluator : String)
    (hfound : jsonText text = some (encodeVerdict passed score reasoning).toList) :
    parseJudgeVerdict limits text evaluator = .ok (decodedVerdict passed score reasoning) := by
  obtain ⟨depth, hdepth⟩ := Nat.exists_eq_succ_of_ne_zero (Nat.ne_of_gt limits.maxDepth_pos)
  have hkeys : ["verdict", "score", "reasoning"].Nodup := by decide
  have hreadable : JsonReader.Readable limits.maxDigits limits.maxDepth
      (.obj (leadingFields passed score ++ [("reasoning", .str reasoning)])) := by
    rw [hdepth]
    exact ⟨hkeys, trivial, hdouble, trivial, trivial⟩
  have hloads := JsonReader.loads_dumpsLine decodedHooks limits hreadable
  have hextract : extractJsonObject limits text = .ok (some
      [("verdict", .str (if passed then "pass" else "fail")), ("score", .float (.finite score)),
        ("reasoning", .str reasoning)]) := by
    rw [extractJsonObject_eq limits hfound, encodeVerdict, hloads]
    rfl
  have hverdict : parseVerdict (some (.str (if passed then "pass" else "fail"))) = some passed := by
    cases passed <;> decide
  have hscore : parseScore evaluator passed (some (.float (.finite score))) = .ok score := by
    unfold parseScore requireUnitScore
    dsimp only
    rw [if_pos ⟨h0, h1⟩]
    rfl
  rw [parseJudgeVerdict_of_obj hextract]
  simp only [List.lookup_cons_self, List.lookup_cons, String.reduceBEq]
  rw [hverdict]
  dsimp only
  rw [hscore]
  rfl

/-- A reply in which no object is found, or whose object is malformed, gives no verdict. -/
theorem parseJudgeVerdict_ne_ok {limits : JsonReader.Limits} {text : String}
    (h : jsonText text = none ∨ ∃ body, jsonText text = some body ∧
      JsonReader.loads decodedHooks limits body = .error .malformed)
    (evaluator : String) (verdict : JudgeVerdict) :
    parseJudgeVerdict limits text evaluator ≠ .ok verdict := by
  have hextract : extractJsonObject limits text = .ok none := by
    rcases h with hnone | ⟨body, hbody, hloads⟩
    · rw [extractJsonObject, hnone]
      rfl
    · rw [extractJsonObject_eq limits hbody, hloads]
  rw [parseJudgeVerdict_of_none evaluator hextract]
  exact nofun

/-- The text in front opens a fence that ends in front of the object or inside its reasoning. -/
def FenceEndsEarly (before reasoning : String) : Prop :=
  ∃ rest, lstripChars before.toList = fence ++ rest ∧
    (fence <:+: rest ∨ fence <:+: reasoning.toList)

section Framed

variable {passed : Bool} {score : ℚ} {reasoning before after : String}

theorem toList_framed (passed : Bool) (score : ℚ) (reasoning before after : String) :
    (before ++ encodeVerdict passed score reasoning ++ after).toList =
      before.toList ++ '{' :: (innerText passed score reasoning ++ '}' :: after.toList) := by
  rw [String.toList_append, String.toList_append, toList_encodeVerdict]
  simp only [List.append_assoc, List.cons_append, List.nil_append]

/-- Behind a fence, the verdict comes back when the fence is closed behind the object or not at
all. -/
theorem parseJudgeVerdict_fenced_iff (limits : JsonReader.Limits)
    (hdouble : PyFloat.IsDouble score) (h0 : 0 ≤ score) (h1 : score ≤ 1) (evaluator : String)
    (hbefore : '{' ∉ before.toList) (hafter : '}' ∉ after.toList) {rest : List Char}
    (hrest : lstripChars before.toList = fence ++ rest) :
    parseJudgeVerdict limits (before ++ encodeVerdict passed score reasoning ++ after) evaluator =
        .ok (decodedVerdict passed score reasoning) ↔
      ¬ (fence <:+: rest ∨ fence <:+: innerText passed score reasoning) := by
  have hsearch :=
    jsonText_fenced (toList_framed passed score reasoning before after) hrest
  have hopen : '{' ∉ rest := fun h =>
    hbefore ((List.dropWhile_sublist _).mem (hrest ▸ List.mem_append_right fence h))
  have hclose : '}' ∉ rstripChars after.toList := fun h =>
    hafter ((PyText.rstripChars_prefix_self _).mem h)
  by_cases hrestfence : fence <:+: rest
  · -- The fence is closed in front of the object.
    refine iff_of_false (parseJudgeVerdict_ne_ok (Or.inl ?_) evaluator _)
      (not_not_intro (Or.inl hrestfence))
    rw [hsearch]
    exact braced_stripFence_before hopen hrestfence _
  · by_cases hinner : fence <:+: innerText passed score reasoning
    · -- The fence is closed inside the reasoning.
      refine iff_of_false (parseJudgeVerdict_ne_ok ?_ evaluator _) (not_not_intro (Or.inr hinner))
      rw [hsearch]
      refine (braced_stripFence_cut hopen hrestfence hinner _).imp_right ?_
      rintro ⟨q, hq, hcut⟩
      exact ⟨_, hcut, loads_cut limits passed hdouble hq⟩
    · refine iff_of_true (parseJudgeVerdict_of_found hdouble h0 h1 evaluator ?_)
        (not_or.mpr ⟨hrestfence, hinner⟩)
      rw [hsearch, toList_encodeVerdict]
      exact braced_stripFence_whole hopen hclose hrestfence hinner

/-- A reply around the object of a verdict gives that verdict, unless a fence ends early. -/
theorem parseJudgeVerdict_framed_iff (limits : JsonReader.Limits) (passed : Bool)
    (hdouble : PyFloat.IsDouble score) (h0 : 0 ≤ score) (h1 : score ≤ 1) (reasoning : String)
    (evaluator : String) (hbefore : '{' ∉ before.toList) (hafter : '}' ∉ after.toList) :
    parseJudgeVerdict limits (before ++ encodeVerdict passed score reasoning ++ after) evaluator =
        .ok (decodedVerdict passed score reasoning) ↔ ¬ FenceEndsEarly before reasoning := by
  by_cases hfence : fence <+: lstripChars before.toList
  · obtain ⟨rest, hrest⟩ := hfence
    have hearly : FenceEndsEarly before reasoning ↔
        fence <:+: rest ∨ fence <:+: innerText passed score reasoning := by
      rw [fence_infix_innerText_iff passed hdouble]
      constructor
      · rintro ⟨rest', hrest', h⟩
        cases List.append_cancel_left (hrest.trans hrest')
        exact h
      · exact fun h => ⟨rest, hrest.symm, h⟩
    rw [hearly]
    exact parseJudgeVerdict_fenced_iff limits hdouble h0 h1 evaluator hbefore hafter hrest.symm
  · refine iff_of_true (parseJudgeVerdict_of_found hdouble h0 h1 evaluator ?_) ?_
    · rw [jsonText_unfenced (toList_framed passed score reasoning before after) hbefore hafter
        hfence, toList_encodeVerdict]
    · rintro ⟨rest, hrest, _⟩
      exact hfence (hrest ▸ List.prefix_append fence rest)

end Framed

/-- The object of a verdict parses back to it when it is sent alone. Around it, a text without an
opening brace in front and a closing one behind does no harm exactly when it opens no fence that
ends early, and a fenced block exactly when the reasoning holds no fence. -/
theorem verdict_round_trip_iff (limits : JsonReader.Limits) (passed : Bool) {score : ℚ}
    (hdouble : PyFloat.IsDouble score) (h0 : 0 ≤ score) (h1 : score ≤ 1)
    (reasoning evaluator : String) :
    parseJudgeVerdict limits (encodeVerdict passed score reasoning) evaluator =
        .ok (decodedVerdict passed score reasoning) ∧
      (∀ before after : String, '{' ∉ before.toList → '}' ∉ after.toList →
        (parseJudgeVerdict limits (before ++ encodeVerdict passed score reasoning ++ after)
            evaluator = .ok (decodedVerdict passed score reasoning) ↔
          ¬ FenceEndsEarly before reasoning)) ∧
      (parseJudgeVerdict limits
          ("```json\n" ++ encodeVerdict passed score reasoning ++ "\n```") evaluator =
            .ok (decodedVerdict passed score reasoning) ↔
        ¬ fence <:+: reasoning.toList) := by
  refine ⟨?_, fun before after hbefore hafter => ?_, ?_⟩
  · have hopen : '{' ∉ "".toList := by decide
    have hclose : '}' ∉ "".toList := by decide
    have halone := parseJudgeVerdict_framed_iff limits passed hdouble h0 h1 reasoning evaluator
      hopen hclose
    rw [String.empty_append, String.append_empty] at halone
    refine halone.mpr ?_
    rintro ⟨rest, hrest, _⟩
    exact nomatch hrest
  · exact parseJudgeVerdict_framed_iff limits passed hdouble h0 h1 reasoning evaluator hbefore
      hafter
  · have hlanguage : lstripChars "```json\n".toList = fence ++ ['j', 's', 'o', 'n', '\n'] := by
      decide
    have hword : ¬ fence <:+: ['j', 's', 'o', 'n', '\n'] := by decide
    rw [parseJudgeVerdict_framed_iff limits passed hdouble h0 h1 reasoning evaluator (by decide)
      (by decide), not_iff_not]
    constructor
    · rintro ⟨rest, hrest, h⟩
      cases List.append_cancel_left (hlanguage.symm.trans hrest)
      exact h.resolve_left hword
    · exact fun h => ⟨_, hlanguage, Or.inr h⟩

/-- A score of one half in the three framings. -/
theorem half_round_trip :
    parseJudgeVerdict defaultLimits
        ("Sure: " ++ encodeVerdict false (1 / 2) "a \x7b brace" ++ " Done.") "llm_judge" =
      .ok (decodedVerdict false (1 / 2) "a \x7b brace") := by
  have hdouble : PyFloat.IsDouble (1 / 2) := by decide +kernel
  refine ((verdict_round_trip_iff defaultLimits false hdouble (by norm_num) (by norm_num)
    "a \x7b brace" "llm_judge").2.1 "Sure: " " Done." (by decide) (by decide)).mpr ?_
  rintro ⟨rest, hrest, _⟩
  exact absurd (List.cons.inj hrest).1 (by decide)

/-- A reasoning with a fence, in a fenced block. -/
theorem fenced_reasoning_is_cut :
    parseJudgeVerdict defaultLimits
        ("```json\n\x7b\"verdict\": \"pass\", \"score\": 1.0, " ++
          "\"reasoning\": \"has ``` inside\"\x7d\n```") "llm_judge" ≠
      .ok (decodedVerdict true 1 "has ``` inside") := by
  have hdouble : PyFloat.IsDouble 1 := by decide +kernel
  have htext : "```json\n\x7b\"verdict\": \"pass\", \"score\": 1.0, " ++
      "\"reasoning\": \"has ``` inside\"\x7d\n```" =
        "```json\n" ++ encodeVerdict true 1 "has ``` inside" ++ "\n```" := by decide +kernel
  rw [htext, ne_eq, parseJudgeVerdict_framed_iff _ true hdouble (by norm_num) (by norm_num) _ _
    (by decide) (by decide), not_not]
  exact ⟨['j', 's', 'o', 'n', '\n'], by decide, Or.inr (by decide)⟩

end EvalOps
