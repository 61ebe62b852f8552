import EvalOps.Datasets
import EvalOps.Lib.JsonReading
import EvalOps.Proofs.Judge

/-!
# `EvalOps.Proofs.Datasets`: a written dataset is loaded again

What the field parsers return is described by the fields themselves (`Holds`), and what the loop
over the lines returns by the lines (`parseLines_eq_ok_iff`). The loader breaks the text of a file
into lines before it reads JSON, so a written line comes back when it holds no other line break and
is within the limits of the reader, and only then (`loadJsonl_written_iff`).
-/

set_option autoImplicit false

namespace EvalOps

/-! ### The fields of a case -/

/-- The value of an optional string. -/
def Decoded.ofString? : Option String → Decoded
  | none => .null
  | some s => .str s

/-- The value of optional arguments. -/
def Decoded.ofArguments? : Option (List (String × Decoded)) → Decoded
  | none => .null
  | some arguments => .obj arguments

/-- The value of a list of ids. -/
def Decoded.ofIds (ids : List NonBlank) : Decoded := .arr (ids.map fun id => .str id.text)

/-- The entry is an object for the call. -/
def IsToolCall (entry : Decoded) (call : LoadedToolCall) : Prop :=
  ∃ fields, entry = .obj fields ∧ (∀ field ∈ fields, field.1 ∈ toolCallKeys) ∧
    fields.lookup "name" = some (.str call.name.text) ∧
    (fields.lookup "arguments").getD .null = Decoded.ofArguments? call.arguments

/-- The fields hold the case, up to its id. -/
structure Holds (fields : List (String × Decoded)) (case : LoadedCase) : Prop where
  known : ∀ field ∈ fields, field.1 ∈ allowedKeys
  input : fields.lookup "input" = some (.str case.input.text)
  expectedOutput : (fields.lookup "expected_output").getD .null
    = Decoded.ofString? case.expectedOutput
  expectedRetrievalIds : (fields.lookup "expected_retrieval_ids").getD (.arr [])
    = Decoded.ofIds case.expectedRetrievalIds
  expectedToolCalls : ∃ entries,
    (fields.lookup "expected_tool_calls").getD (.arr []) = .arr entries ∧
      List.Forall₂ IsToolCall entries case.expectedToolCalls

theorem nonBlank?_eq_some_iff {value : Decoded} {text : NonBlank} :
    value.nonBlank? = some text ↔ value = .str text.text := by
  constructor
  · intro h
    cases value <;> try cases h
    rename_i s
    rw [Decoded.nonBlank?] at h
    split at h
    · cases h
      rfl
    · cases h
  · rintro rfl
    exact dif_pos text.nonblank

theorem bind_nonBlank?_eq_some_iff {value : Option Decoded} {text : NonBlank} :
    value.bind Decoded.nonBlank? = some text ↔ value = some (.str text.text) := by
  rw [Option.bind_eq_some_iff]
  constructor
  · rintro ⟨v, hv, htext⟩
    rw [hv, nonBlank?_eq_some_iff.mp htext]
  · exact fun h => ⟨_, h, nonBlank?_eq_some_iff.mpr rfl⟩

theorem parseInput_eq_ok_iff {location : String} {fields : List (String × Decoded)}
    {input : NonBlank} :
    parseInput location fields = .ok input ↔ fields.lookup "input" = some (.str input.text) := by
  rw [← bind_nonBlank?_eq_some_iff, parseInput]
  cases (fields.lookup "input").bind Decoded.nonBlank? <;> simp

theorem parseExpectedOutput_eq_ok_iff {location : String} {fields : List (String × Decoded)}
    {expected : Option String} :
    parseExpectedOutput location fields = .ok expected ↔
      (fields.lookup "expected_output").getD .null = Decoded.ofString? expected := by
  rw [parseExpectedOutput]
  cases expected <;> cases (fields.lookup "expected_output").getD .null <;>
    simp [Decoded.ofString?]

theorem mapM_nonBlank?_eq_some_iff {items : List Decoded} {ids : List NonBlank} :
    items.mapM Decoded.nonBlank? = some ids ↔ items = ids.map fun id => .str id.text := by
  simp only [ListRules.mapM_eq_some_iff, nonBlank?_eq_some_iff]
  rw [← List.forall₂_eq_eq_eq, List.forall₂_map_right_iff]

theorem parseRetrievalIds_eq_ok_iff {location : String} {fields : List (String × Decoded)}
    {ids : List NonBlank} :
    parseRetrievalIds location fields = .ok ids ↔
      (fields.lookup "expected_retrieval_ids").getD (.arr []) = Decoded.ofIds ids := by
  rw [parseRetrievalIds]
  cases (fields.lookup "expected_retrieval_ids").getD (.arr []) with
  | arr items =>
      rw [Decoded.ofIds, Decoded.arr.injEq, ← mapM_nonBlank?_eq_some_iff]
      dsimp only
      split
      · rename_i ids' hids
        simp [hids]
      · rename_i hids
        simp [hids]
  | _ => simp [Decoded.ofIds]

theorem parseExpectedToolCall_eq_ok_iff {location : String} {i : ℕ} {entry : Decoded}
    {call : LoadedToolCall} :
    parseExpectedToolCall location i entry = .ok call ↔ IsToolCall entry call := by
  cases entry with
  | obj fields =>
      have hkeys : (fields.all fun field => decide (field.1 ∈ toolCallKeys)) = true ↔
          ∀ field ∈ fields, field.1 ∈ toolCallKeys := by simp
      have hentry : IsToolCall (.obj fields) call ↔
          (∀ field ∈ fields, field.1 ∈ toolCallKeys) ∧
          (fields.lookup "name").bind Decoded.nonBlank? = some call.name ∧
          (fields.lookup "arguments").getD .null = Decoded.ofArguments? call.arguments := by
        rw [bind_nonBlank?_eq_some_iff]
        constructor
        · rintro ⟨fields', hfields, h⟩
          cases hfields
          exact h
        · exact fun h => ⟨fields, rfl, h⟩
      rw [hentry, ← hkeys, parseExpectedToolCall]
      obtain ⟨name, arguments⟩ := call
      by_cases hall : (fields.all fun field => decide (field.1 ∈ toolCallKeys)) = true
      · simp only [hall, if_true, true_and]
        cases (fields.lookup "name").bind Decoded.nonBlank? with
        | none => simp
        | some name' =>
            cases (fields.lookup "arguments").getD .null <;> cases arguments <;>
              simp [Decoded.ofArguments?]
      · simp [hall]
  | _ => simp [parseExpectedToolCall, IsToolCall]

theorem parseToolCallsFrom_eq_ok_iff {location : String} {i : ℕ} {entries : List Decoded}
    {calls : List LoadedToolCall} :
    parseToolCallsFrom location i entries = .ok calls ↔
      List.Forall₂ IsToolCall entries calls := by
  induction entries generalizing i calls with
  | nil => simp [parseToolCallsFrom, List.forall₂_nil_left_iff, eq_comm]
  | cons entry entries ih =>
      rw [parseToolCallsFrom, ExceptRules.bind_eq_ok, List.forall₂_cons_left_iff]
      constructor
      · rintro ⟨call, hcall, hrest⟩
        obtain ⟨calls, hcalls, hpure⟩ := ExceptRules.bind_eq_ok.mp hrest
        cases hpure
        exact ⟨call, calls, parseExpectedToolCall_eq_ok_iff.mp hcall, ih.mp hcalls, rfl⟩
      · rintro ⟨call, calls, hcall, hcalls, rfl⟩
        refine ⟨call, parseExpectedToolCall_eq_ok_iff.mpr hcall, ?_⟩
        rw [ExceptRules.bind_eq_ok]
        exact ⟨calls, ih.mpr hcalls, rfl⟩

theorem parseExpectedToolCalls_eq_ok_iff {location : String} {value : Decoded}
    {calls : List LoadedToolCall} :
    parseExpectedToolCalls location value = .ok calls ↔
      ∃ entries, value = .arr entries ∧ List.Forall₂ IsToolCall entries calls := by
  cases value with
  | arr entries =>
      rw [parseExpectedToolCalls, parseToolCallsFrom_eq_ok_iff]
      constructor
      · exact fun h => ⟨entries, rfl, h⟩
      · rintro ⟨entries', hentries, h⟩
        cases hentries
        exact h
  | _ => simp [parseExpectedToolCalls]

theorem unknown_eq_nil_iff {fields : List (String × Decoded)} :
    Sorting.sortedOn id ((fields.map Prod.fst).filter fun key => key ∉ allowedKeys) = [] ↔
      ∀ field ∈ fields, field.1 ∈ allowedKeys := by
  rw [← List.length_eq_zero_iff, (Sorting.sortedOn_perm _ _).length_eq, List.length_eq_zero_iff,
    List.filter_eq_nil_iff]
  simp

/-- The field parsers return the case that the fields hold. -/
theorem parseFields_eq_ok_iff {env : LoadEnvironment} {location : String} {lineno : ℕ}
    {firstSeen seen : List (String × ℕ)} {fields : List (String × Decoded)} {case : LoadedCase} :
    parseFields env location lineno firstSeen fields = .ok (case, seen) ↔
      Holds fields case ∧ parseId env location lineno firstSeen fields = .ok (case.id, seen) := by
  unfold parseFields
  constructor
  · intro h
    dsimp only at h
    split at h
    · cases h
    · rename_i hknown
      simp only [ExceptRules.bind_eq_ok] at h
      obtain ⟨input, hinput, expected, hexpected, ids, hids, calls, hcalls, ⟨id, seen'⟩,
        hid, hpure⟩ := h
      cases hpure
      exact ⟨⟨unknown_eq_nil_iff.mp (by simpa using hknown), parseInput_eq_ok_iff.mp hinput,
        parseExpectedOutput_eq_ok_iff.mp hexpected, parseRetrievalIds_eq_ok_iff.mp hids,
        parseExpectedToolCalls_eq_ok_iff.mp hcalls⟩, hid⟩
  · rintro ⟨hfields, hid⟩
    dsimp only
    rw [unknown_eq_nil_iff.mpr hfields.known, if_neg (by simp),
      parseInput_eq_ok_iff.mpr hfields.input,
      parseExpectedOutput_eq_ok_iff.mpr hfields.expectedOutput,
      parseRetrievalIds_eq_ok_iff.mpr hfields.expectedRetrievalIds,
      parseExpectedToolCalls_eq_ok_iff.mpr hfields.expectedToolCalls, hid]
    rfl

/-! ### The lines of a file -/

theorem parseId_of_given {env : LoadEnvironment} {location : String} {lineno : ℕ}
    {firstSeen : List (String × ℕ)} {fields : List (String × Decoded)} {id : EntityId}
    (hid : fields.lookup "id" = some (.str id.text)) (hfresh : firstSeen.lookup id.text = none) :
    parseId env location lineno firstSeen fields
      = .ok (id, firstSeen ++ [(id.text, lineno)]) := by
  have hgiven : (Decoded.str id.text).nonBlank? = some id := nonBlank?_eq_some_iff.mpr rfl
  rw [parseId, hid, Option.getD_some]
  dsimp only
  rw [hgiven]
  dsimp only
  rw [hfresh]
  rfl

/-- What `_parse_line` returns is a case that an object on the line holds. -/
theorem parseLine_eq_ok_iff {env : LoadEnvironment} {path : String} {line : List Char} {lineno : ℕ}
    {firstSeen seen : List (String × ℕ)} {case : LoadedCase} :
    parseLine env path line lineno firstSeen = .ok (case, seen) ↔
      ∃ fields, JsonReader.loads decodedHooks env.limits line = .ok (.obj fields) ∧
        Holds fields case ∧
        parseId env (s!"{path}:{lineno}") lineno firstSeen fields = .ok (case.id, seen) := by
  unfold parseLine
  dsimp only
  cases JsonReader.loads decodedHooks env.limits line with
  | error e => cases e <;> simp
  | ok value =>
      cases value with
      | obj fields => simp [parseFields_eq_ok_iff]
      | _ => simp

/-- Every line that holds something holds a case, when the loop returns. -/
theorem forall₂_of_parseLines {env : LoadEnvironment} {path : String} {lineno : ℕ}
    {firstSeen : List (String × ℕ)} {lines : List (List Char)} {cases : List LoadedCase}
    (h : parseLines env path lineno firstSeen lines = .ok cases) :
    List.Forall₂ (fun line case => ∃ fields,
        JsonReader.loads decodedHooks env.limits line = .ok (.obj fields) ∧ Holds fields case)
      (lines.filter holdsText) cases := by
  induction lines generalizing lineno firstSeen cases with
  | nil =>
      cases h
      exact .nil
  | cons line lines ih =>
      rw [parseLines] at h
      split at h
      · rename_i hholds
        obtain ⟨⟨case, seen⟩, hline, hrest⟩ := ExceptRules.bind_eq_ok.mp h
        obtain ⟨cases, hcases, hpure⟩ := ExceptRules.bind_eq_ok.mp hrest
        cases hpure
        obtain ⟨fields, hloads, hfields, _⟩ := parseLine_eq_ok_iff.mp hline
        rw [List.filter_cons_of_pos hholds]
        exact .cons ⟨fields, hloads, hfields⟩ (ih hcases)
      · rename_i hholds
        rw [List.filter_cons_of_neg hholds]
        exact ih h

/-- The loop returns the cases that the lines hold with their ids, when no id comes twice. -/
theorem parseLines_of_forall₂ {env : LoadEnvironment} {path : String} {lineno : ℕ}
    {firstSeen : List (String × ℕ)} {lines : List (List Char)} {cases : List LoadedCase}
    (h : List.Forall₂ (fun line case => ∃ fields,
        JsonReader.loads decodedHooks env.limits line = .ok (.obj fields) ∧ Holds fields case ∧
          fields.lookup "id" = some (.str case.id.text)) (lines.filter holdsText) cases)
    (hids : (cases.map LoadedCase.id).Nodup)
    (hfresh : ∀ case ∈ cases, firstSeen.lookup case.id.text = none) :
    parseLines env path lineno firstSeen lines = .ok cases := by
  induction lines generalizing lineno firstSeen cases with
  | nil =>
      rw [List.filter_nil, List.forall₂_nil_left_iff] at h
      rw [h]
      rfl
  | cons line lines ih =>
      rw [parseLines]
      by_cases hholds : holdsText line = true
      · rw [List.filter_cons_of_pos hholds, List.forall₂_cons_left_iff] at h
        obtain ⟨case, cases, ⟨fields, hloads, hfields, hid⟩, hrest, rfl⟩ := h
        rw [List.map_cons, List.nodup_cons] at hids
        rw [List.forall_mem_cons] at hfresh
        have hline : parseLine env path line lineno firstSeen
            = .ok (case, firstSeen ++ [(case.id.text, lineno)]) :=
          parseLine_eq_ok_iff.mpr ⟨fields, hloads, hfields, parseId_of_given hid hfresh.1⟩
        have hfresh' : ∀ other ∈ cases,
            (firstSeen ++ [(case.id.text, lineno)]).lookup other.id.text = none := by
          intro other hother
          -- The id of this line is new to the lines behind it.
          have hne : other.id.text ≠ case.id.text := fun heq =>
            hids.1 (NonBlank.text_injective heq ▸ List.mem_map_of_mem hother)
          rw [List.lookup_append, hfresh.2 other hother, Option.none_or, List.lookup_cons,
            beq_eq_false_iff_ne.mpr hne]
          exact List.lookup_nil
        have hrest : parseLines env path (lineno + 1) (firstSeen ++ [(case.id.text, lineno)]) lines
            = .ok cases := ih hrest hids.2 hfresh'
        rw [if_pos hholds, hline]
        show (do
          let cases ← parseLines env path (lineno + 1) (firstSeen ++ [(case.id.text, lineno)]) lines
          pure (case :: cases)) = _
        rw [hrest]
        rfl
      · rw [List.filter_cons_of_neg hholds] at h
        rw [if_neg hholds]
        exact ih h hids hfresh

/-- Ids that are generated come from different lines, so lines without ids load as well. -/
theorem parseLines_returns {env : LoadEnvironment} {path : String} (lineno : ℕ)
    {firstSeen : List (String × ℕ)} {lines : List (List Char)}
    (h : ∀ line ∈ lines.filter holdsText, ∃ fields,
      JsonReader.loads decodedHooks env.limits line = .ok (.obj fields) ∧
        fields.lookup "id" = none ∧ ∀ id, ∃ case, Holds fields case ∧ case.id = id) :
    ∃ cases, parseLines env path lineno firstSeen lines = .ok cases ∧
      (cases.map LoadedCase.id).Nodup ∧
      ∀ case ∈ cases, ∃ n, lineno ≤ n ∧ case.id = env.newId n := by
  induction lines generalizing lineno with
  | nil => exact ⟨[], rfl, List.nodup_nil, fun case hcase => absurd hcase List.not_mem_nil⟩
  | cons line lines ih =>
      rw [parseLines]
      by_cases hholds : holdsText line = true
      · rw [List.filter_cons_of_pos hholds, List.forall_mem_cons] at h
        obtain ⟨⟨fields, hloads, hid, hcase⟩, hrest⟩ := h
        obtain ⟨case, hfields, hcaseId⟩ := hcase (env.newId lineno)
        obtain ⟨cases, hcases, hnodup, hnew⟩ := ih (lineno + 1) hrest
        have hparseId : parseId env (s!"{path}:{lineno}") lineno firstSeen fields
            = .ok (case.id, firstSeen) := by
          rw [parseId, hid, hcaseId]
          rfl
        have hline : parseLine env path line lineno firstSeen = .ok (case, firstSeen) :=
          parseLine_eq_ok_iff.mpr ⟨fields, hloads, hfields, hparseId⟩
        refine ⟨case :: cases, ?_, ?_, ?_⟩
        · rw [if_pos hholds, hline]
          show (do
            let cases ← parseLines env path (lineno + 1) firstSeen lines
            pure (case :: cases)) = _
          rw [hcases]
          rfl
        · rw [List.map_cons, List.nodup_cons]
          refine ⟨fun hmem => ?_, hnodup⟩
          obtain ⟨other, hother, hsame⟩ := List.mem_map.mp hmem
          obtain ⟨n, hle, hn⟩ := hnew other hother
          have := env.newId_injective (hn.symm.trans (hsame.trans hcaseId))
          omega
        · rw [List.forall_mem_cons]
          refine ⟨⟨lineno, le_rfl, hcaseId⟩, fun other hother => ?_⟩
          obtain ⟨n, hle, hn⟩ := hnew other hother
          exact ⟨n, by omega, hn⟩
      · rw [List.filter_cons_of_neg hholds] at h
        rw [if_neg hholds]
        obtain ⟨cases, hcases, hnodup, hnew⟩ := ih (lineno + 1) h
        refine ⟨cases, hcases, hnodup, fun case hcase => ?_⟩
        obtain ⟨n, hle, hn⟩ := hnew case hcase
        exact ⟨n, by omega, hn⟩

/-! ### A written file -/

/-- A line of a JSONL file, and the case that it was written for. A blank line has none. -/
structure JsonlLine where
  text : List Char
  case : Option LoadedCase

/-- The cases that the lines were written for. -/
def casesOf (lines : List JsonlLine) : List LoadedCase := lines.filterMap JsonlLine.case

/-- The text of a file, with a newline behind every line. -/
def fileText (lines : List JsonlLine) : List Char := lines.flatMap fun line => line.text ++ ['\n']

/-- A file with the lines, in UTF-8. -/
def writtenFile (lines : List JsonlLine) : FileContent :=
  .ok (String.ofList (fileText lines)).toUTF8

/-- Two cases are equal, up to what equal arguments are: the keys of a `dict` have no order. -/
structure SameCase (same : List (String × Decoded) → List (String × Decoded) → Prop)
    (case written : LoadedCase) : Prop where
  input : case.input = written.input
  expectedOutput : case.expectedOutput = written.expectedOutput
  expectedRetrievalIds : case.expectedRetrievalIds = written.expectedRetrievalIds
  expectedToolCalls : List.Forall₂
    (fun call call' => call.name = call'.name ∧ Option.Rel same call.arguments call'.arguments)
    case.expectedToolCalls written.expectedToolCalls
  id : case.id = written.id

/-- The text is JSON for the case and its id. -/
def Encodes (same : List (String × Decoded) → List (String × Decoded) → Prop) (text : List Char)
    (case : LoadedCase) : Prop :=
  ∃ limits fields exact, JsonReader.loads decodedHooks limits text = .ok (.obj fields) ∧
    Holds fields exact ∧ fields.lookup "id" = some (.str exact.id.text) ∧ SameCase same exact case

/-- A line has no newline inside, and it is blank or JSON for its case. -/
structure JsonlLine.Written (same : List (String × Decoded) → List (String × Decoded) → Prop)
    (line : JsonlLine) : Prop where
  newline : '\n' ∉ line.text
  blank : line.case = none → ∀ c ∈ line.text, PyText.isSpace c = true
  encodes : ∀ case, line.case = some case → Encodes same line.text case

/-- No line break stands inside the object on the line, and it is within the limits of the
reader. -/
structure Readable (limits : JsonReader.Limits) (text : List Char) : Prop where
  unbroken : ∀ c ∈ Trimming.trim JsonReader.isSpace text, PyText.isLineBreak c = false
  within : ReadsWithinLimits limits text

variable {same : List (String × Decoded) → List (String × Decoded) → Prop}

theorem holdsText_of_spaces {line : List Char} (h : ∀ c ∈ line, PyText.isSpace c = true) :
    holdsText line = false := by
  simpa [holdsText] using h

theorem isSpace_of_json {c : Char} (h : JsonReader.isSpace c = true) :
    PyText.isSpace c = true := by
  simp only [JsonReader.isSpace, Bool.or_eq_true, beq_iff_eq] at h
  rcases h with ((h | h) | h) | h <;> simp [PyText.isSpace, h]

theorem holdsText_of_jsonSpaces (line : List Char)
    (h : ∀ c ∈ line, JsonReader.isSpace c = true) : holdsText line = false :=
  holdsText_of_spaces fun c hc => isSpace_of_json (h c hc)

theorem holdsText_of_mem {line : List Char} {c : Char} (hc : c ∈ line)
    (hspace : PyText.isSpace c = false) : holdsText line = true := by
  rw [holdsText, List.any_eq_true]
  exact ⟨c, hc, by simp [hspace]⟩

/-- The lines of a file that hold something are those of its written lines. -/
theorem filter_splitlines_fileText (lines : List JsonlLine) :
    (TextFiles.splitlines (TextFiles.universalNewlines (fileText lines))).filter holdsText
      = lines.flatMap fun line => TextFiles.linesHolding holdsText line.text := by
  have hempty : holdsText [] = false := rfl
  rw [TextFiles.filter_splitlines hempty]
  show TextFiles.linesHolding holdsText (fileText lines) = _
  induction lines with
  | nil => exact TextFiles.linesHolding_nil hempty
  | cons line lines ih =>
      have hnewline : PyText.isLineBreak '\n' = true := by decide
      have htext : fileText (line :: lines) = line.text ++ '\n' :: fileText lines := by
        simp [fileText]
      rw [htext, TextFiles.linesHolding_append_break _ hnewline, List.flatMap_cons, ih]

/-- The text of an object without a line break inside stands on one line. -/
theorem linesHolding_of_unbroken {u core w : List Char}
    (hu : ∀ c ∈ u, JsonReader.isSpace c = true) (hw : ∀ c ∈ w, JsonReader.isSpace c = true)
    (hbroken : ∀ c ∈ '{' :: (core ++ ['}']), PyText.isLineBreak c = false) :
    ∃ u' w', (∀ c ∈ u', JsonReader.isSpace c = true) ∧ (∀ c ∈ w', JsonReader.isSpace c = true) ∧
      TextFiles.linesHolding holdsText (u ++ '{' :: (core ++ '}' :: w))
        = [u' ++ '{' :: (core ++ '}' :: w')] := by
  obtain ⟨u', hu', hfront⟩ := TextFiles.linesHolding_spaces_append holdsText_of_jsonSpaces hu
    ('{' :: (core ++ '}' :: w))
  have hsplit : ∀ w, u' ++ '{' :: (core ++ '}' :: w) = (u' ++ '{' :: (core ++ ['}'])) ++ w := by
    intro w
    simp
  have hline : ∀ c ∈ u' ++ '{' :: (core ++ ['}']), PyText.isLineBreak c = false := by
    intro c hc
    rcases List.mem_append.mp hc with hc | hc
    · exact (hu' c hc).2
    · exact hbroken c hc
  obtain ⟨w', hw', hback⟩ := TextFiles.linesHolding_append_spaces holdsText_of_jsonSpaces hline
    (fun w' => holdsText_of_mem (c := '{') (by simp) (by decide)) hw
  refine ⟨u', w', fun c hc => (hu' c hc).1, hw', ?_⟩
  rw [hfront, hsplit w, hback, ← hsplit w']

/-- When every line of an object can be read, there is no line break inside. -/
theorem unbroken_of_lines {limits limits' : JsonReader.Limits} {u core w : List Char} {v : Decoded}
    (hu : ∀ c ∈ u, JsonReader.isSpace c = true) (hw : ∀ c ∈ w, JsonReader.isSpace c = true)
    (h : JsonReader.loads decodedHooks limits' (u ++ '{' :: (core ++ '}' :: w)) = .ok v)
    (hlines : ∀ line ∈ TextFiles.linesHolding holdsText (u ++ '{' :: (core ++ '}' :: w)),
      ∃ v, JsonReader.loads decodedHooks limits line = .ok v) :
    ∀ c ∈ '{' :: (core ++ ['}']), PyText.isLineBreak c = false := by
  by_contra hbroken
  obtain ⟨line, b, rest, hsplit, hline, hb⟩ := TextFiles.exists_first_break hbroken
  cases line with
  | nil =>
      -- A brace is no line break.
      cases (List.cons.inj hsplit).1
      cases hb
  | cons c line =>
      have hc : '{' = c := (List.cons.inj hsplit).1
      have hcore : core ++ ['}'] = line ++ b :: rest := (List.cons.inj hsplit).2
      obtain ⟨u', hu', hfront⟩ := TextFiles.linesHolding_spaces_append holdsText_of_jsonSpaces hu
        ('{' :: (core ++ '}' :: w))
      have htext : '{' :: (core ++ '}' :: w) = ('{' :: line) ++ b :: (rest ++ w) := by
        have hcore' : core ++ '}' :: w = (core ++ ['}']) ++ w := by simp
        rw [hcore', hcore]
        simp
      have hcut : ∃ v, JsonReader.loads decodedHooks limits (u' ++ '{' :: line) = .ok v := by
        have hbreak : ∀ d ∈ u' ++ '{' :: line, PyText.isLineBreak d = false := by
          intro d hd
          rcases List.mem_append.mp hd with hd | hd
          · exact (hu' d hd).2
          · rw [hc] at hd
            exact hline d hd
        refine hlines _ ?_
        rw [hfront, htext, ← List.append_assoc, TextFiles.linesHolding_append_break _ hb,
          TextFiles.linesHolding_singleton hbreak
            (holdsText_of_mem (c := '{') (by simp) (by decide))]
        exact List.mem_append_left _ List.mem_cons_self
      obtain ⟨v', hv'⟩ := hcut
      -- The whole object is the text of this line and more.
      have hwhole := JsonReader.loads_respace hu hw h (fun d hd => (hu' d hd).1)
        (fun d hd => absurd hd List.not_mem_nil : ∀ d ∈ ([] : List Char), _)
      have htail : '{' :: (core ++ ['}']) = ('{' :: line) ++ b :: rest := by
        rw [hsplit, hc]
      rw [htail, ← List.append_assoc] at hwhole
      refine JsonReader.loads_cut ?_ ?_ hwhole hv'
      · rw [JsonReader.skipSpace, List.dropWhile_append_of_pos fun d hd => (hu' d hd).1,
          List.dropWhile_cons_of_neg (by decide)]
        rfl
      · have hlast : (b :: rest).getLast? = some '}' := by
          have hends := congrArg List.getLast? hcore
          rw [List.getLast?_concat,
            List.getLast?_append_of_ne_nil _ (List.cons_ne_nil b rest)] at hends
          exact hends.symm
        exact ⟨'}', List.mem_of_getLast? hlast, by decide⟩

theorem not_isOther_obj {fields : List (String × Decoded)} :
    ¬JsonReader.IsOther decodedHooks (.obj fields) := by
  simp [JsonReader.IsOther, decodedHooks]

/-- What can be read within some limits can be read when it is within the limits. -/
theorem loads_of_within {limits limits' : JsonReader.Limits} {text : List Char} {v : Decoded}
    (h : JsonReader.loads decodedHooks limits' text = .ok v)
    (hwithin : ReadsWithinLimits limits text) :
    JsonReader.loads decodedHooks limits text = .ok v := by
  have hfollows : JsonReader.loads decodedHooks limits text = .ok (id v) ∨
      ∃ e, (e = .tooManyDigits ∨ e = .tooDeep) ∧
        JsonReader.loads decodedHooks limits text = .error e :=
    JsonReader.loads_follows (JsonReader.corresponds_id decodedHooks) (Or.inr (Or.inl rfl))
      (Or.inr (Or.inr rfl)) h
  rcases hfollows with hok | ⟨e, rfl | rfl, he⟩
  · exact hok
  · exact absurd he hwithin.1
  · exact absurd he hwithin.2

/-- The text of an object stands on one line and is read there, when it is readable. -/
theorem exists_line_of_readable {limits limits' : JsonReader.Limits} {text : List Char}
    {fields : List (String × Decoded)}
    (h : JsonReader.loads decodedHooks limits' text = .ok (.obj fields))
    (hreadable : Readable limits text) :
    ∃ line, TextFiles.linesHolding holdsText text = [line] ∧
      JsonReader.loads decodedHooks limits line = .ok (.obj fields) := by
  obtain ⟨u, core, w, rfl, hu, hw⟩ := JsonReader.exists_object_of_loads h not_isOther_obj
  have hbroken := hreadable.unbroken
  rw [JsonReader.trim_object hu hw] at hbroken
  obtain ⟨u', w', hu', hw', hline⟩ := linesHolding_of_unbroken hu hw hbroken
  refine ⟨_, hline, JsonReader.loads_respace hu hw ?_ hu' hw'⟩
  exact loads_of_within h hreadable.within

/-- The text of an object is readable when every line of it can be read. -/
theorem readable_of_lines {limits limits' : JsonReader.Limits} {text : List Char}
    {fields : List (String × Decoded)}
    (h : JsonReader.loads decodedHooks limits' text = .ok (.obj fields))
    (hlines : ∀ line ∈ TextFiles.linesHolding holdsText text,
      ∃ v, JsonReader.loads decodedHooks limits line = .ok v) : Readable limits text := by
  obtain ⟨u, core, w, rfl, hu, hw⟩ := JsonReader.exists_object_of_loads h not_isOther_obj
  have hbroken := unbroken_of_lines hu hw h hlines
  obtain ⟨u', w', hu', hw', hline⟩ := linesHolding_of_unbroken hu hw hbroken
  obtain ⟨v, hv⟩ := hlines _ (by rw [hline]; exact List.mem_singleton.mpr rfl)
  refine ⟨?_, readsWithinLimits_of_ok (JsonReader.loads_respace hu' hw' hv hu hw)⟩
  rw [JsonReader.trim_object hu hw]
  exact hbroken

/-- A blank line has no line that holds something. -/
theorem linesHolding_of_blank {text : List Char} (h : ∀ c ∈ text, PyText.isSpace c = true) :
    TextFiles.linesHolding holdsText text = [] :=
  TextFiles.linesHolding_spaces (fun _ => holdsText_of_spaces) h

/-- The lines of a readable file hold its cases, in order. -/
theorem exists_cases_of_readable {limits : JsonReader.Limits} {lines : List JsonlLine}
    (hlines : ∀ line ∈ lines, line.Written same)
    (hreadable : ∀ line ∈ lines, line.case.isSome → Readable limits line.text) :
    ∃ cases, List.Forall₂ (fun line case => ∃ fields,
        JsonReader.loads decodedHooks limits line = .ok (.obj fields) ∧ Holds fields case ∧
          fields.lookup "id" = some (.str case.id.text))
        (lines.flatMap fun line => TextFiles.linesHolding holdsText line.text) cases ∧
      List.Forall₂ (SameCase same) cases (casesOf lines) := by
  induction lines with
  | nil => exact ⟨[], .nil, .nil⟩
  | cons line lines ih =>
      rw [List.forall_mem_cons] at hlines hreadable
      obtain ⟨cases, hcases, hsame⟩ := ih hlines.2 hreadable.2
      rw [List.flatMap_cons]
      cases hcase : line.case with
      | none =>
          rw [linesHolding_of_blank (hlines.1.blank hcase), List.nil_append, casesOf,
            List.filterMap_cons_none hcase]
          exact ⟨cases, hcases, hsame⟩
      | some written =>
          obtain ⟨_, fields, exact, htext, hfields, hid, hsame'⟩ :=
            hlines.1.encodes written hcase
          obtain ⟨text, hline, hloads⟩ :=
            exists_line_of_readable htext (hreadable.1 (by rw [hcase]; rfl))
          rw [hline, casesOf, List.filterMap_cons_some hcase]
          exact ⟨exact :: cases, .cons ⟨fields, hloads, hfields, hid⟩ hcases, .cons hsame' hsame⟩

theorem LoadedDataset.init_eq_ok_iff {projectId name : String} {cases : List LoadedCase}
    {dataset : LoadedDataset} :
    LoadedDataset.init projectId name cases = .ok dataset ↔
      dataset.projectId.text = projectId ∧ dataset.name.text = name ∧ dataset.cases = cases := by
  obtain ⟨project, title, held, hne, hnodup⟩ := dataset
  unfold LoadedDataset.init
  constructor
  · intro h
    obtain ⟨project', hproject, h⟩ := ExceptRules.bind_eq_ok.mp h
    obtain ⟨title', htitle, h⟩ := ExceptRules.bind_eq_ok.mp h
    split_ifs at h
    cases h
    exact ⟨requireNonEmpty_eq_ok hproject, requireNonEmpty_eq_ok htitle, rfl⟩
  · rintro ⟨rfl, rfl, rfl⟩
    rw [requireNonEmpty_text, requireNonEmpty_text]
    simp [hne, hnodup]

/-- A file with a text loads when the loop over its lines returns cases for a dataset. -/
theorem loadJsonl_eq_ok_iff {env : LoadEnvironment} {path stem projectId : String}
    {name : Option String} {text : List Char} {dataset : LoadedDataset} :
    loadJsonl env path stem (.ok (String.ofList text).toUTF8) projectId name = .ok dataset ↔
      parseLines env path 1 [] (TextFiles.splitlines (TextFiles.universalNewlines text))
        = .ok dataset.cases ∧
      dataset.projectId.text = projectId ∧ dataset.name.text = datasetName stem name := by
  unfold loadJsonl
  dsimp only
  rw [TextFiles.readText_toUTF8, String.toList_ofList]
  dsimp only
  rw [ExceptRules.bind_eq_ok]
  constructor
  · rintro ⟨cases, hcases, h⟩
    split at h
    · cases h
    · obtain ⟨hproject, hname, rfl⟩ := LoadedDataset.init_eq_ok_iff.mp h
      exact ⟨hcases, hproject, hname⟩
  · rintro ⟨hcases, hproject, hname⟩
    refine ⟨_, hcases, ?_⟩
    rw [if_neg dataset.cases_ne_nil, LoadedDataset.init_eq_ok_iff]
    exact ⟨hproject, hname, rfl⟩

/-- What can be loaded is readable. -/
theorem readable_of_loadJsonl {env : LoadEnvironment} {path stem projectId : String}
    {name : Option String} {lines : List JsonlLine} {dataset : LoadedDataset}
    (hlines : ∀ line ∈ lines, line.Written same)
    (h : loadJsonl env path stem (writtenFile lines) projectId name = .ok dataset) :
    ∀ line ∈ lines, line.case.isSome → Readable env.limits line.text := by
  intro line hline hsome
  obtain ⟨hparse, -⟩ := loadJsonl_eq_ok_iff.mp h
  obtain ⟨written, hwritten⟩ := Option.isSome_iff_exists.mp hsome
  obtain ⟨_, _, _, hloads, _⟩ := (hlines line hline).encodes written hwritten
  refine readable_of_lines hloads fun text htext => ?_
  have hread := forall₂_of_parseLines hparse
  rw [filter_splitlines_fileText] at hread
  obtain ⟨_, _, fields, hloads, _⟩ := ListRules.exists_of_forall₂_of_mem hread
    (List.mem_flatMap.mpr ⟨line, hline, htext⟩)
  exact ⟨_, hloads⟩

/-- A written file loads as its cases exactly when the objects on its lines are readable, and the
dataset has a project and a name. -/
theorem loadJsonl_written_iff
    (same : List (String × Decoded) → List (String × Decoded) → Prop) (env : LoadEnvironment)
    (path stem projectId : String) (name : Option String) {lines : List JsonlLine}
    (hlines : ∀ line ∈ lines, line.Written same) (hcases : casesOf lines ≠ [])
    (hids : ((casesOf lines).map LoadedCase.id).Nodup) :
    (∃ dataset, loadJsonl env path stem (writtenFile lines) projectId name = .ok dataset ∧
        List.Forall₂ (SameCase same) dataset.cases (casesOf lines)) ↔
      PyText.isBlank projectId = false ∧ PyText.isBlank (datasetName stem name) = false ∧
        ∀ line ∈ lines, line.case.isSome → Readable env.limits line.text := by
  constructor
  · rintro ⟨dataset, hload, -⟩
    obtain ⟨-, hproject, hname⟩ := loadJsonl_eq_ok_iff.mp hload
    exact ⟨hproject ▸ dataset.projectId.nonblank, hname ▸ dataset.name.nonblank,
      readable_of_loadJsonl hlines hload⟩
  · rintro ⟨hproject, hname, hreadable⟩
    obtain ⟨cases, hread, hsame⟩ := exists_cases_of_readable hlines hreadable
    have hsameIds : cases.map LoadedCase.id = (casesOf lines).map LoadedCase.id :=
      ListRules.map_eq_map_of_forall₂ (hsame.imp fun _ _ h => h.id)
    have hne : cases ≠ [] := by
      rintro rfl
      exact hcases (List.map_eq_nil_iff.mp hsameIds.symm)
    rw [← hsameIds] at hids
    rw [← filter_splitlines_fileText] at hread
    refine ⟨⟨⟨projectId, hproject⟩, ⟨datasetName stem name, hname⟩, cases, hne, hids⟩, ?_, hsame⟩
    exact loadJsonl_eq_ok_iff.mpr ⟨parseLines_of_forall₂ hread hids fun _ _ => rfl, rfl, rfl⟩

/-! ### A line with a paragraph separator in a string -/

/-- A field whose value is a string. -/
def textField (field : String × Decoded) : Option (String × String) :=
  match field.2 with
  | .str s => some (field.1, s)
  | _ => none

/-- The keys and the strings of an object whose values are strings. -/
def textFields : Except JsonReader.ReadError Decoded → Option (List (String × String))
  | .ok (.obj fields) => fields.mapM textField
  | _ => none

theorem mapM_textField {fields : List (String × Decoded)} {texts : List (String × String)}
    (h : fields.mapM textField = some texts) :
    fields = texts.map fun field => (field.1, .str field.2) := by
  induction fields generalizing texts with
  | nil =>
      rw [List.mapM_nil] at h
      cases h
      rfl
  | cons field fields ih =>
      rw [List.mapM_cons] at h
      obtain ⟨text, htext, h⟩ := Option.bind_eq_some_iff.mp h
      obtain ⟨texts, htexts, h⟩ := Option.bind_eq_some_iff.mp h
      cases h
      obtain ⟨key, value⟩ := field
      have hfield : (key, value) = (text.1, .str text.2) := by
        cases value <;> cases htext
        rfl
      rw [List.map_cons, ← ih htexts, hfield]

theorem eq_of_textFields {result : Except JsonReader.ReadError Decoded}
    {texts : List (String × String)} (h : textFields result = some texts) :
    result = .ok (.obj (texts.map fun field => (field.1, .str field.2))) := by
  cases result with
  | error e => cases h
  | ok value =>
      cases value with
      | obj fields => rw [mapM_textField h]
      | _ => cases h

/-- The id of a number, in unary. -/
def unaryId (n : ℕ) : EntityId where
  text := String.ofList (List.replicate (n + 1) 'i')
  nonblank := PyText.isBlank_eq_false_of_mem (c := 'i') (by simp) (by decide)

theorem unaryId_injective : Function.Injective unaryId := by
  intro m n h
  have hlength := congrArg (fun id : EntityId => id.text.toList.length) h
  simpa [unaryId] using hlength

/-- An interpreter with its usual settings. -/
def usualEnvironment : LoadEnvironment where
  limits := defaultLimits
  decodeMessage _ := "Expecting value"
  newId := unaryId
  newId_injective := unaryId_injective

/-- A case whose input has a line separator. -/
def separatedCase : LoadedCase where
  input := ⟨"a\u2028b", by decide⟩
  expectedOutput := none
  expectedRetrievalIds := []
  expectedToolCalls := []
  id := ⟨"one", by decide⟩

/-- The case as an encoder writes it that leaves non-ASCII characters unescaped. -/
def separatedLine : JsonlLine where
  text := "\x7b\"input\": \"a\u2028b\", \"id\": \"one\"\x7d".toList
  case := some separatedCase

theorem loads_separatedLine :
    JsonReader.loads decodedHooks defaultLimits separatedLine.text
      = .ok (.obj [("input", .str "a\u2028b"), ("id", .str "one")]) := by
  have hfields : textFields (JsonReader.loads decodedHooks defaultLimits separatedLine.text)
      = some [("input", "a\u2028b"), ("id", "one")] := by decide +kernel
  exact eq_of_textFields hfields

theorem separatedLine_written : separatedLine.Written Eq where
  newline := by decide +kernel
  blank h := by cases h
  encodes case h := by
    cases h
    refine ⟨defaultLimits, _, separatedCase, loads_separatedLine, ?_, rfl, ?_⟩
    · exact ⟨by simp [allowedKeys], rfl, rfl, rfl, [], rfl, .nil⟩
    · exact ⟨rfl, rfl, rfl, .nil, rfl⟩

theorem loadJsonl_separatedLine :
    (∃ dataset, loadJsonl usualEnvironment "cases.jsonl" "cases" (writtenFile [separatedLine])
          "project" none = .ok dataset ∧
        List.Forall₂ (SameCase Eq) dataset.cases (casesOf [separatedLine])) ↔
      PyText.isBlank "project" = false ∧ PyText.isBlank (datasetName "cases" none) = false ∧
        ∀ line ∈ [separatedLine], line.case.isSome →
          Readable usualEnvironment.limits line.text :=
  loadJsonl_written_iff Eq usualEnvironment "cases.jsonl" "cases" "project" none
    (List.forall_mem_singleton.mpr separatedLine_written) (List.cons_ne_nil _ _)
    (List.nodup_singleton _)

/-- A line separator in a string breaks the line, and nothing is loaded. -/
theorem loadJsonl_misses_separatedLine :
    (∀ line ∈ [separatedLine], line.Written Eq) ∧ casesOf [separatedLine] ≠ [] ∧
      ((casesOf [separatedLine]).map LoadedCase.id).Nodup ∧
      ¬∃ dataset, loadJsonl usualEnvironment "cases.jsonl" "cases" (writtenFile [separatedLine])
          "project" none = .ok dataset ∧
        List.Forall₂ (SameCase Eq) dataset.cases (casesOf [separatedLine]) := by
  have hwritten := List.forall_mem_singleton.mpr separatedLine_written
  refine ⟨hwritten, List.cons_ne_nil _ _, List.nodup_singleton _, ?_⟩
  rintro ⟨dataset, hload, -⟩
  have hreadable := readable_of_loadJsonl hwritten hload separatedLine List.mem_cons_self rfl
  have hbreak := hreadable.unbroken '\u2028' (by decide +kernel)
  cases hbreak

end EvalOps
