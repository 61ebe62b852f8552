import EvalOps.Ci
import EvalOps.Lib.EffectRules
import EvalOps.Lib.Yields
import EvalOps.Proofs.Judge

/-!
# `EvalOps.Proofs.Ci`: when the summary is written

The renderer of a release check reads untrusted bytes. `CiInput` says when they are harmless for
the encoder of the summary's stream: `KeepsVerdict` holds of exactly those inputs. Each part of a
section has one lemma, which says what the part needs to be rendered to a text that can be
encoded.
-/

set_option autoImplicit false

namespace EvalOps

open Effect

/-! ### What can be printed -/

/-- The text of a value is there and can be encoded: a `repr` has no surrogates. -/
def ReportValue.Prints (encoder : Encoder) (reprDepth : ℕ) : ReportValue → Prop
  | .str s => s.Encodable encoder
  | value => value.nesting ≤ reprDepth

/-- The text of a field, or of its default. -/
def PrintsField (encoder : Encoder) (reprDepth : ℕ) (key : String) (default : ReportValue)
    (fields : ReportFields) : Prop :=
  ((getField key fields).getD default).Prints encoder reprDepth

/-- A number that a format for floats takes. -/
def FitsFloat : Option ReportValue → Prop
  | some (.int n) => |(n : ℚ)| < PyFloat.overflowBound
  | _ => True

variable {encoder : Encoder}

mutual

theorem ReportValue.encodable_repr (value : ReportValue) : PyStr.Encodable encoder value.repr := by
  cases value with
  | null => exact PyStr.encodable_ofString _
  | bool b => exact PyStr.encodable_ofString _
  | int n => exact PyStr.encodable_ofString _
  | float x =>
      cases x with
      | finite x => exact PyStr.encodable_ofString _
      | inf negative => exact PyStr.encodable_ofString _
      | nan => exact PyStr.encodable_ofString _
  | str s => exact PyStr.encodable_repr s
  | arr items =>
      simp only [ReportValue.repr, PyStr.encodable_append, PyStr.encodable_ofString, true_and,
        and_true, PyStr.encodable_join]
      exact ReportValue.encodable_reprItems items
  | obj fields =>
      simp only [ReportValue.repr, PyStr.encodable_append, PyStr.encodable_ofString, true_and,
        and_true, PyStr.encodable_join]
      exact ReportValue.encodable_reprFields fields

theorem ReportValue.encodable_reprItems (items : List ReportValue) :
    ∀ part ∈ ReportValue.reprItems items, PyStr.Encodable encoder part := by
  cases items with
  | nil => simp [ReportValue.reprItems]
  | cons item items =>
      rw [ReportValue.reprItems, List.forall_mem_cons]
      exact ⟨item.encodable_repr, ReportValue.encodable_reprItems items⟩

theorem ReportValue.encodable_reprFields (fields : List (PyStr × ReportValue)) :
    ∀ part ∈ ReportValue.reprFields fields, PyStr.Encodable encoder part := by
  cases fields with
  | nil => simp [ReportValue.reprFields]
  | cons field fields =>
      obtain ⟨key, value⟩ := field
      rw [ReportValue.reprFields, List.forall_mem_cons]
      simp only [PyStr.encodable_append, PyStr.encodable_repr, PyStr.encodable_ofString, true_and]
      exact ⟨value.encodable_repr, ReportValue.encodable_reprFields fields⟩

end

theorem yields_format {reprDepth : ℕ} (value : ReportValue) :
    Yields (PyStr.Encodable encoder) (value.format reprDepth) ↔ value.Prints encoder reprDepth := by
  have hcontainer : ∀ value : ReportValue, Yields (PyStr.Encodable encoder)
      (if reprDepth < value.nesting then
        (throw ⟨.other "RecursionError", "maximum recursion depth exceeded"⟩ : Py PyStr)
      else pure value.repr) ↔ value.nesting ≤ reprDepth := by
    intro value
    split
    · rename_i h
      simpa using h
    · rename_i h
      simpa [value.encodable_repr] using h
  cases value with
  | str s => simp [ReportValue.format, ReportValue.Prints]
  | null => exact hcontainer .null
  | bool b => exact hcontainer (.bool b)
  | int n => exact hcontainer (.int n)
  | float x => exact hcontainer (.float x)
  | arr items => exact hcontainer (.arr items)
  | obj fields => exact hcontainer (.obj fields)

theorem yields_formatNumber (format : PyFloat → String) (value : Option ReportValue) :
    Yields (PyStr.Encodable encoder) (formatNumber format value) ↔ FitsFloat value := by
  have hnone : Yields (PyStr.Encodable encoder) (pure noNumber : Py PyStr) ↔ True := by
    simp [noNumber, PyStr.encodable_ofString]
  unfold formatNumber FitsFloat
  cases value with
  | none => exact hnone
  | some value =>
      cases value with
      | int n =>
          by_cases h : PyFloat.overflowBound ≤ |(n : ℚ)|
          · simp [PyFloat.nearest, h, not_lt.mpr h]
          · simp [PyFloat.nearest, h, not_le.mp h, PyStr.encodable_ofString]
      | float x => simp [PyStr.encodable_ofString]
      | null => exact hnone
      | bool b => exact hnone
      | str s => exact hnone
      | arr items => exact hnone
      | obj fields => exact hnone

/-! ### The parts of a section -/

/-- Both versions of a context line have texts, if the line names them, and so have the counts. -/
structure ContextPrints (encoder : Encoder) (reprDepth : ℕ) (report : ReportFields) : Prop where
  versions : ∀ cand base, ReportValue.orEmpty (getField "candidate" report) = .obj cand →
    ReportValue.orEmpty (getField "baseline" report) = .obj base →
    ((getField "name" cand).getD .null).isTruthy = true → ∀ version ∈ [cand, base],
      PrintsField encoder reprDepth "name" .null version ∧
        PrintsField encoder reprDepth "version" (.str []) version
  counts : ∀ counts, ReportValue.orEmpty (getField "counts" report) = .obj counts →
    (getField "runs" counts).isSome = true → ∀ key ∈ ["cases", "runs", "failures"],
      PrintsField encoder reprDepth key (.str (PyStr.ofString "?")) counts

/-- A row of the table has a text. -/
structure RowPrints (encoder : Encoder) (reprDepth : ℕ) (m : ReportFields) : Prop where
  metric : PrintsField encoder reprDepth "metric" (.str (PyStr.ofString "?")) m
  numbers : ∀ key ∈ ["baseline_value", "candidate_value", "delta", "threshold"],
    FitsFloat (getField key m)
  outcome : ∀ outcome, getField "gate_outcome" m = some (.str outcome) → outcome.Encodable encoder

theorem yields_versionText {reprDepth : ℕ} (start : String) (version : ReportFields) :
    Yields (PyStr.Encodable encoder) (versionText reprDepth start version) ↔
      PrintsField encoder reprDepth "name" .null version ∧
        PrintsField encoder reprDepth "version" (.str []) version := by
  unfold versionText PrintsField
  simp only [Yields.bind_iff, Yields.pure_iff, PyStr.encodable_rstrip, PyStr.encodable_append,
    PyStr.encodable_ofString, true_and, and_true, Yields.and_iff, Yields.const_and_iff,
    yields_format]

theorem yields_versionsPart {reprDepth : ℕ} (report : ReportFields) :
    Yields (fun parts => ∀ part ∈ parts, PyStr.Encodable encoder part)
        (versionsPart reprDepth report) ↔
      ∀ cand base, ReportValue.orEmpty (getField "candidate" report) = .obj cand →
        ReportValue.orEmpty (getField "baseline" report) = .obj base →
        ((getField "name" cand).getD .null).isTruthy = true → ∀ version ∈ [cand, base],
          PrintsField encoder reprDepth "name" .null version ∧
            PrintsField encoder reprDepth "version" (.str []) version := by
  unfold versionsPart
  split
  · rename_i cand base hcand hbase
    have hboth : ∀ {p : ReportFields → ReportFields → Prop}, p cand base ↔
        ∀ cand' base', ReportValue.obj cand = .obj cand' → ReportValue.obj base = .obj base' →
          p cand' base' := by
      intro p
      constructor
      · intro h cand' base' hcand' hbase'
        cases hcand'
        cases hbase'
        exact h
      · exact fun h => h cand base rfl rfl
    rw [hcand, hbase, ← hboth]
    split
    · rename_i hname
      simp only [hname, true_imp_iff, Yields.bind_iff, Yields.pure_iff, List.forall_mem_singleton,
        List.forall_mem_cons, PyStr.encodable_append, Yields.and_iff, Yields.const_and_iff,
        yields_versionText]
    · rename_i hname
      simp [hname]
  · rename_i hnone
    simp only [Yields.pure_iff, List.not_mem_nil, false_imp_iff, implies_true, true_iff]
    intro cand base hcand hbase
    exact absurd hbase (hnone cand base hcand)

theorem yields_countsPart {reprDepth : ℕ} (report : ReportFields) :
    Yields (fun parts => ∀ part ∈ parts, PyStr.Encodable encoder part)
        (countsPart reprDepth report) ↔
      ∀ counts, ReportValue.orEmpty (getField "counts" report) = .obj counts →
        (getField "runs" counts).isSome = true → ∀ key ∈ ["cases", "runs", "failures"],
          PrintsField encoder reprDepth key (.str (PyStr.ofString "?")) counts := by
  unfold countsPart PrintsField
  split
  · rename_i counts hcounts
    simp only [hcounts, ReportValue.obj.injEq, forall_eq']
    split
    · rename_i hruns
      simp only [hruns, true_imp_iff, Yields.bind_iff, Yields.pure_iff, List.forall_mem_singleton,
        List.forall_mem_cons, PyStr.encodable_append, PyStr.encodable_ofString, and_true,
        Yields.and_iff, Yields.const_and_iff, yields_format, and_assoc]
    · rename_i hruns
      simp [hruns]
  · rename_i hnone
    simp only [Yields.pure_iff, List.not_mem_nil, false_imp_iff, implies_true, true_iff]
    exact fun counts hcounts => absurd hcounts (hnone counts)

theorem encodable_configPart (config : Option PyStr) :
    (∀ part ∈ configPart config, PyStr.Encodable encoder part) ↔
      ∀ c, config = some c → c.Encodable encoder := by
  cases config with
  | none => simp [configPart]
  | some c =>
      cases c with
      | nil => simp [configPart]
      | cons p c =>
          simp only [configPart, List.forall_mem_singleton, Option.some.injEq, forall_eq',
            PyStr.encodable_append, PyStr.encodable_ofString, true_and, and_true]

theorem yields_contextLine {reprDepth : ℕ} (report : Option ReportFields)
    (config : Option PyStr) :
    Yields (PyStr.Encodable encoder) (contextLine reprDepth report config) ↔
      (∀ c, config = some c → c.Encodable encoder) ∧
        ∀ fields, report = some fields → ContextPrints encoder reprDepth fields := by
  unfold contextLine
  cases report with
  | none => simp [PyStr.encodable_join, encodable_configPart]
  | some report =>
      simp only [Yields.bind_iff, Yields.pure_iff, PyStr.encodable_join, List.forall_mem_append,
        Yields.and_iff, Yields.const_and_iff, encodable_configPart, yields_versionsPart,
        yields_countsPart, Option.some.injEq, forall_eq', and_assoc]
      exact and_congr_right fun _ => ⟨fun h => ⟨h.1, h.2⟩, fun h => ⟨h.versions, h.counts⟩⟩

theorem yields_allowedText (threshold : Option ReportValue) :
    Yields (PyStr.Encodable encoder) (allowedText threshold) ↔ FitsFloat threshold := by
  have hnone : Yields (PyStr.Encodable encoder) (pure noNumber : Py PyStr) ↔ True := by
    simp [noNumber, PyStr.encodable_ofString]
  unfold allowedText
  split
  · exact hnone
  · exact hnone
  · exact yields_formatNumber percentText threshold

theorem encodable_outcomeLabel (outcome : Option ReportValue) :
    (outcomeLabel outcome).Encodable encoder ↔
      ∀ s, outcome = some (.str s) → s.Encodable encoder := by
  unfold outcomeLabel
  split
  · rename_i outcome
    simp only [Option.some.injEq, ReportValue.str.injEq, forall_eq']
    split
    · rename_i key label hfind
      have hkey : PyStr.ofString key = outcome := by simpa using List.find?_some hfind
      simp [← hkey, PyStr.encodable_ofString]
    · rfl
  · rename_i hstr
    simp only [noNumber, PyStr.encodable_ofString, true_iff]
    exact fun s hs => absurd hs (hstr s)

theorem yields_metricRow {reprDepth : ℕ} (m : ReportFields) :
    Yields (PyStr.Encodable encoder) (metricRow reprDepth m) ↔ RowPrints encoder reprDepth m := by
  unfold metricRow ciNum ciSigned
  simp only [Yields.bind_iff, Yields.pure_iff, PyStr.encodable_append, PyStr.encodable_ofString,
    true_and, and_true, Yields.and_iff, Yields.const_and_iff, yields_format, yields_formatNumber,
    yields_allowedText, encodable_outcomeLabel]
  constructor
  · rintro ⟨⟨⟨⟨⟨hmetric, hbaseline⟩, hcandidate⟩, hdelta⟩, hthreshold⟩, houtcome⟩
    exact
      { metric := hmetric, outcome := houtcome
        numbers := by simp [hbaseline, hcandidate, hdelta, hthreshold] }
  · intro h
    have hnumbers := h.numbers
    simp only [List.forall_mem_cons] at hnumbers
    exact ⟨⟨⟨⟨⟨h.metric, hnumbers.1⟩, hnumbers.2.1⟩, hnumbers.2.2.1⟩, hnumbers.2.2.2.1⟩,
      h.outcome⟩

theorem yields_metricTable {reprDepth : ℕ} (report : Option ReportFields) :
    Yields (fun table => ∀ line ∈ table, PyStr.Encodable encoder line)
        (metricTable reprDepth report) ↔
      ∀ m ∈ ReportValue.rows (report.bind (getField "metrics")), RowPrints encoder reprDepth m := by
  have hdata : ∀ data : List PyStr,
      Yields (fun table => ∀ line ∈ table, PyStr.Encodable encoder line)
      (if data.isEmpty then (pure [] : Py (List PyStr))
      else pure (PyStr.ofString "| Metric | Baseline | Candidate | Δ | Allowed | Outcome |" ::
        PyStr.ofString "| --- | ---: | ---: | ---: | ---: | --- |" :: data)) ↔
      ∀ line ∈ data, PyStr.Encodable encoder line := by
    intro data
    cases data with
    | nil => simp
    | cons line data => simp [PyStr.encodable_ofString]
  unfold metricTable
  rw [Yields.bind_iff, Yields.congr hdata, Yields.mapM_iff]
  simp only [yields_metricRow]

/-! ### The sections -/

/-- What a section shows of the report has texts. -/
structure SectionPrints (encoder : Encoder) (reprDepth : ℕ) (exitCode : ℤ)
    (report : ReportFields) : Prop where
  context : ContextPrints encoder reprDepth report
  metrics : ∀ m ∈ ReportValue.rows (getField "metrics" report), RowPrints encoder reprDepth m
  advisories : ∀ s ∈ ReportValue.strings (getField "advisories" report), s.Encodable encoder
  reasons : exitCode = 1 →
    ∀ s ∈ ReportValue.strings (getField "reasons" report), s.Encodable encoder

theorem encodable_part {lines : List PyStr} :
    (∀ line ∈ part lines, line.Encodable encoder) ↔ ∀ line ∈ lines, line.Encodable encoder := by
  cases lines with
  | nil => simp [part]
  | cons line lines => simp [part, or_imp, forall_and]

theorem encodable_contextLines {context : PyStr} :
    (∀ line ∈ contextLines context, line.Encodable encoder) ↔ context.Encodable encoder := by
  unfold contextLines
  rw [encodable_part]
  cases context with
  | nil => simp
  | cons p context => simp

theorem encodable_tableLines {table : List PyStr} :
    (∀ line ∈ tableLines table, line.Encodable encoder) ↔
      ∀ line ∈ table, line.Encodable encoder := by
  unfold tableLines
  rw [encodable_part]
  cases table with
  | nil => simp
  | cons line table => simp [PyStr.encodable_ofString]

theorem encodable_bullets {items : Option ReportValue} :
    (∀ line ∈ bullets items, line.Encodable encoder) ↔
      ∀ s ∈ ReportValue.strings items, s.Encodable encoder := by
  simp [bullets, PyStr.encodable_ofString]

theorem encodable_sectionText {gate : CiSection} {lines : List PyStr} :
    (sectionText gate lines).Encodable encoder ↔ ∀ line ∈ lines, line.Encodable encoder := by
  simp [sectionText, PyStr.encodable_rstrip, PyStr.encodable_join, PyStr.encodable_ofString]

/-- A list without items has no strings. -/
theorem strings_of_not_filled {items : Option ReportValue}
    (h : ¬ReportValue.isFilled items = true) : ReportValue.strings items = [] := by
  unfold ReportValue.isFilled at h
  unfold ReportValue.strings
  split
  · rename_i items
    cases items with
    | nil => rfl
    | cons item items => exact absurd rfl h
  · rfl

theorem encodable_adviceLines {heading : List String} {items : Option ReportValue} :
    (∀ line ∈ adviceLines heading items, line.Encodable encoder) ↔
      ∀ s ∈ ReportValue.strings items, s.Encodable encoder := by
  unfold adviceLines
  split
  · simp only [List.forall_mem_append, List.forall_mem_singleton, PyStr.encodable_nil, and_true,
      encodable_bullets, List.forall_mem_map, PyStr.encodable_ofString, implies_true, true_and]
  · rename_i h
    simp [strings_of_not_filled h]

theorem encodable_reasonLines {reasons : List PyStr} :
    (∀ line ∈ reasonLines reasons, line.Encodable encoder) ↔
      ∀ line ∈ reasons, line.Encodable encoder := by
  unfold reasonLines
  cases reasons with
  | nil => simp [PyStr.encodable_ofString]
  | cons line lines => simp [PyStr.encodable_ofString, or_imp, forall_and]

theorem encodable_missingLines (report : Option ReportFields) :
    ∀ line ∈ missingLines report, line.Encodable encoder := by
  unfold missingLines
  split <;> simp [PyStr.encodable_ofString]

variable {reprDepth : ℕ} {report : Option ReportFields} {config : Option PyStr}

/-- What a section needs of a report that may be missing. -/
theorem sectionPrints_iff {exitCode : ℤ} :
    ((∀ fields, report = some fields → ContextPrints encoder reprDepth fields) ∧
        (exitCode = 1 →
          ∀ s ∈ ReportValue.strings (report.bind (getField "reasons")), s.Encodable encoder) ∧
        (∀ s ∈ ReportValue.strings (report.bind (getField "advisories")), s.Encodable encoder) ∧
        ∀ m ∈ ReportValue.rows (report.bind (getField "metrics")), RowPrints encoder reprDepth m) ↔
      ∀ fields, report = some fields → SectionPrints encoder reprDepth exitCode fields := by
  cases report with
  | none => simp [ReportValue.strings, ReportValue.rows]
  | some fields =>
      simp only [Option.some.injEq, forall_eq', Option.bind_some]
      exact ⟨fun h => ⟨h.1, h.2.2.2, h.2.2.1, h.2.1⟩,
        fun h => ⟨h.context, h.reasons, h.advisories, h.metrics⟩⟩

theorem yields_renderPass :
    Yields (PyStr.Encodable encoder) (renderPass reprDepth report config) ↔
      (∀ c, config = some c → c.Encodable encoder) ∧
        ∀ fields, report = some fields → SectionPrints encoder reprDepth 0 fields := by
  unfold renderPass
  simp only [Yields.bind_iff, Yields.pure_iff, encodable_sectionText, List.forall_mem_append,
    encodable_contextLines, iff_true_intro (encodable_missingLines report), and_true,
    encodable_adviceLines, encodable_tableLines, Yields.and_iff, Yields.const_and_iff,
    yields_contextLine, yields_metricTable, and_assoc, ← sectionPrints_iff, zero_ne_one,
    false_imp_iff, true_and]

theorem yields_renderBlock :
    Yields (PyStr.Encodable encoder) (renderBlock reprDepth report config) ↔
      (∀ c, config = some c → c.Encodable encoder) ∧
        ∀ fields, report = some fields → SectionPrints encoder reprDepth 1 fields := by
  unfold renderBlock
  simp only [Yields.bind_iff, Yields.pure_iff, encodable_sectionText, List.forall_mem_append,
    encodable_contextLines, encodable_reasonLines, encodable_bullets, encodable_adviceLines,
    encodable_tableLines, Yields.and_iff, Yields.const_and_iff, yields_contextLine,
    yields_metricTable, and_assoc, ← sectionPrints_iff, true_imp_iff]

/-- The log is read without errors, and its bound keeps it so. -/
theorem encodable_boundLog {text : PyStr} (h : text.Encodable encoder) :
    (boundLog text).Encodable encoder := by
  have hstrip := PyStr.encodable_strip h
  unfold boundLog
  dsimp only
  split
  · exact PyStr.encodable_append.mpr
      ⟨PyStr.encodable_ofString _, PyStr.encodable_takeEnd hstrip _⟩
  · exact hstrip

theorem encodable_readTail (log : Option FileContent) : (readTail log).Encodable encoder := by
  unfold readTail
  split
  · exact PyStr.encodable_nil
  · exact PyStr.encodable_nil
  · exact encodable_boundLog (PyStr.encodable_ofChars _)

theorem encodable_renderError {exitCode : ℤ} {log : PyStr} (hlog : log.Encodable encoder) :
    (renderError exitCode log config).Encodable encoder ↔
      ∀ c, config = some c → c.Encodable encoder := by
  have hdiagnostic := encodable_boundLog hlog
  unfold renderError
  dsimp only
  rw [encodable_sectionText]
  simp only [List.forall_mem_append, encodable_part, encodable_configPart]
  split
  · simp [PyStr.encodable_ofString]
  · simp [PyStr.encodable_ofString, hdiagnostic]

theorem yields_renderPrSummary {exitCode : ℤ} {log : PyStr} (hlog : log.Encodable encoder) :
    Yields (PyStr.Encodable encoder) (renderPrSummary reprDepth report exitCode log config) ↔
      (∀ c, config = some c → c.Encodable encoder) ∧ (exitCode = 0 ∨ exitCode = 1 →
        ∀ fields, report = some fields → SectionPrints encoder reprDepth exitCode fields) := by
  unfold renderPrSummary
  split
  · rename_i hpass
    rw [hpass, yields_renderPass]
    simp
  · rename_i hpass
    split
    · rename_i hblock
      rw [hblock, yields_renderBlock]
      simp
    · rename_i hblock
      simp [encodable_renderError hlog, hpass, hblock]

/-! ### The heading -/

/-- The text of a section starts with its heading. -/
theorem heading_prefix_sectionText (gate : CiSection) (lines : List PyStr) :
    PyStr.ofString gate.heading <+: sectionText gate lines := by
  have hlast : (PyStr.ofString gate.heading).getLast?.any
      (fun last => !last.isSpace) = true := by
    cases gate <;> decide
  obtain ⟨last, hlast, hspace⟩ := (Option.any_eq_true _ _).mp hlast
  obtain ⟨start, heq⟩ := List.getLast?_eq_some_iff.mp hlast
  unfold sectionText
  refine List.IsPrefix.trans ?_ (List.prefix_append _ _)
  rw [heq]
  refine PyStr.prefix_rstrip (by simpa using hspace) ?_
  rw [PyStr.join, List.intercalate_cons_cons, List.append_assoc]
  exact List.prefix_append _ _

theorem heading_prefix_renderPass {text : PyStr}
    (h : renderPass reprDepth report config = .ok text) :
    PyStr.ofString CiSection.pass.heading <+: text := by
  unfold renderPass at h
  obtain ⟨_, _, h⟩ := ExceptRules.bind_eq_ok.mp h
  obtain ⟨_, _, h⟩ := ExceptRules.bind_eq_ok.mp h
  exact Except.ok.inj h ▸ heading_prefix_sectionText _ _

theorem heading_prefix_renderBlock {text : PyStr}
    (h : renderBlock reprDepth report config = .ok text) :
    PyStr.ofString CiSection.block.heading <+: text := by
  unfold renderBlock at h
  obtain ⟨_, _, h⟩ := ExceptRules.bind_eq_ok.mp h
  obtain ⟨_, _, h⟩ := ExceptRules.bind_eq_ok.mp h
  exact Except.ok.inj h ▸ heading_prefix_sectionText _ _

/-- The exit code alone says which section it is. -/
theorem heading_prefix_renderPrSummary {exitCode : ℤ} {log text : PyStr}
    (h : renderPrSummary reprDepth report exitCode log config = .ok text) :
    PyStr.ofString (sectionOf exitCode).heading <+: text := by
  unfold renderPrSummary at h
  unfold sectionOf
  by_cases hpass : exitCode = 0
  · rw [if_pos hpass] at h ⊢
    exact heading_prefix_renderPass h
  · rw [if_neg hpass] at h ⊢
    by_cases hblock : exitCode = 1
    · rw [if_pos hblock] at h ⊢
      exact heading_prefix_renderBlock h
    · rw [if_neg hblock] at h ⊢
      exact Except.ok.inj h ▸ heading_prefix_sectionText _ _

/-- No heading is the start of another one. -/
theorem heading_unique {text : PyStr} {gate gate' : CiSection}
    (h : PyStr.ofString gate.heading <+: text) (h' : PyStr.ofString gate'.heading <+: text) :
    gate = gate' := by
  have hor := List.prefix_or_prefix_of_prefix h h'
  rw [PyStr.ofString_prefix, PyStr.ofString_prefix, ← List.isPrefixOf_iff_prefix,
    ← List.isPrefixOf_iff_prefix] at hor
  revert hor
  cases gate <;> cases gate' <;> decide

/-! ### The command -/

/-- The command returns the exit code, and the one text that it writes has the section of this code
and no other one. -/
def KeepsVerdict (env : CiEnvironment) (args : CiArgs) : Prop :=
  ∃ text : PyStr, exec (ciMain env args) [] = (.ok args.exitCode, [⟨env.destination, text⟩]) ∧
    ∀ gate : CiSection, PyStr.ofString gate.heading <+: text ↔ gate = sectionOf args.exitCode

/-- The inputs that can be rendered for an encoder. -/
structure CiInput (encoder : Encoder) (env : CiEnvironment) (args : CiArgs) : Prop where
  config : ∀ c, args.config = some c → c.Encodable encoder
  report : ∀ data, args.report = .ok data → ∃ raw, TextFiles.readText data = some raw ∧
    (∀ e, JsonReader.loads reportBuilder env.limits raw = .error e → e = .malformed) ∧
    ∀ fields, JsonReader.loads reportBuilder env.limits raw = .ok (.obj fields) →
      args.exitCode = 0 ∨ args.exitCode = 1 →
        SectionPrints encoder env.reprDepth args.exitCode fields

/-- What is needed of the report is needed of the file. -/
theorem yields_loadReport {limits : JsonReader.Limits} {file : FileContent}
    {p : ReportFields → Prop} :
    Yields (fun report => ∀ fields, report = some fields → p fields) (loadReport limits file) ↔
      ∀ data, file = .ok data → ∃ raw, TextFiles.readText data = some raw ∧
        (∀ e, JsonReader.loads reportBuilder limits raw = .error e → e = .malformed) ∧
        ∀ fields, JsonReader.loads reportBuilder limits raw = .ok (.obj fields) → p fields := by
  unfold loadReport
  cases file with
  | error reason => simp
  | ok data =>
      simp only [Except.ok.injEq, forall_eq']
      cases TextFiles.readText data with
      | none => simp
      | some raw =>
          simp only [Option.some.injEq, exists_eq_left']
          cases JsonReader.loads reportBuilder limits raw with
          | error e => cases e <;> simp
          | ok value => cases value <;> simp

/-- A text is written when every code point is encoded. -/
theorem exec_writeSummary {env : CiEnvironment} {text : PyStr} {written log : List TextWrite} :
    exec (env.writeSummary text) written = (.ok (), log) ↔
      (∀ p ∈ text, env.encoding.takes p = true) ∧ log = written ++ [⟨env.destination, text⟩] := by
  unfold CiEnvironment.writeSummary
  rw [← List.all_eq_true]
  split
  · rename_i htakes
    rw [htakes]
    constructor
    · intro h
      exact ⟨rfl, (congrArg Prod.snd h).symm⟩
    · rintro ⟨_, rfl⟩
      rfl
  · rename_i htakes
    constructor
    · intro h
      exact nomatch congrArg Prod.fst h
    · exact fun h => absurd h.1 htakes

/-- The summary that the command renders. -/
def renderedSummary (env : CiEnvironment) (args : CiArgs) (report : Option ReportFields) :
    Py PyStr :=
  renderPrSummary env.reprDepth report args.exitCode
    (if args.exitCode = 0 ∨ args.exitCode = 1 then [] else readTail args.log) args.config

/-- A summary that can be encoded is written, and the exit code returned. -/
theorem exec_ciMain_of_rendered {env : CiEnvironment} {args : CiArgs}
    {report : Option ReportFields} {summary : PyStr}
    (hreport : loadReport env.limits args.report = .ok report)
    (hsummary : renderedSummary env args report = .ok summary)
    (htakes : ∀ p ∈ summary ++ PyStr.ofString "\n", env.encoding.takes p = true) :
    exec (ciMain env args) []
      = (.ok args.exitCode, [⟨env.destination, summary ++ PyStr.ofString "\n"⟩]) := by
  have hwrite : exec (env.writeSummary (summary ++ PyStr.ofString "\n")) []
      = (.ok (), [⟨env.destination, summary ++ PyStr.ofString "\n"⟩]) :=
    exec_writeSummary.mpr ⟨htakes, rfl⟩
  unfold ciMain
  exact exec_lift_bind_eq_ok.mpr ⟨report, hreport, exec_lift_bind_eq_ok.mpr
    ⟨summary, hsummary, exec_bind_eq_ok.mpr ⟨(), _, hwrite, rfl⟩⟩⟩

/-- The heading of the code is the start of the text, and there is no other one. -/
theorem heading_iff_of_rendered {env : CiEnvironment} {args : CiArgs}
    {report : Option ReportFields} {summary : PyStr}
    (hsummary : renderedSummary env args report = .ok summary) (gate : CiSection) :
    PyStr.ofString gate.heading <+: summary ++ PyStr.ofString "\n" ↔
      gate = sectionOf args.exitCode := by
  have hstart := (heading_prefix_renderPrSummary hsummary).trans
    (List.prefix_append summary (PyStr.ofString "\n"))
  exact ⟨fun h => heading_unique h hstart, fun h => h ▸ hstart⟩

/-- The command keeps the verdict when its summary is there and can be encoded. -/
theorem keepsVerdict_iff_yields {env : CiEnvironment} {args : CiArgs} :
    KeepsVerdict env args ↔ Yields (fun report => Yields
      (fun summary => ∀ p ∈ summary ++ PyStr.ofString "\n", env.encoding.takes p = true)
      (renderedSummary env args report)) (loadReport env.limits args.report) := by
  unfold KeepsVerdict
  constructor
  · rintro ⟨text, h, _⟩
    obtain ⟨report, hreport, h⟩ := exec_lift_bind_eq_ok.mp h
    obtain ⟨summary, hsummary, h⟩ := exec_lift_bind_eq_ok.mp h
    obtain ⟨_, _, hwrite, _⟩ := exec_bind_eq_ok.mp h
    exact ⟨report, hreport, summary, hsummary, (exec_writeSummary.mp hwrite).1⟩
  · rintro ⟨report, hreport, summary, hsummary, htakes⟩
    exact ⟨_, exec_ciMain_of_rendered hreport hsummary htakes, heading_iff_of_rendered hsummary⟩

/-- To a stream of Unicode the command writes exactly the inputs that can be rendered for it. -/
theorem keepsVerdict_iff_of_unicode {env : CiEnvironment} {args : CiArgs} {encoder : Encoder}
    (henc : env.encoding = .unicode encoder) :
    KeepsVerdict env args ↔ CiInput encoder env args := by
  have hlog : PyStr.Encodable encoder
      (if args.exitCode = 0 ∨ args.exitCode = 1 then [] else readTail args.log) := by
    split
    · exact PyStr.encodable_nil
    · exact encodable_readTail args.log
  have hreport : ∀ report : Option ReportFields,
      (args.exitCode = 0 ∨ args.exitCode = 1 → ∀ fields, report = some fields →
        SectionPrints encoder env.reprDepth args.exitCode fields) ↔
      ∀ fields, report = some fields → args.exitCode = 0 ∨ args.exitCode = 1 →
        SectionPrints encoder env.reprDepth args.exitCode fields :=
    fun report => ⟨fun h fields hfields hcode => h hcode fields hfields,
      fun h hcode fields hfields => h fields hfields hcode⟩
  have hnewline : ∀ summary : PyStr,
      (∀ p ∈ summary ++ PyStr.ofString "\n", (StdoutEncoding.unicode encoder).takes p = true) ↔
        summary.Encodable encoder := by
    intro summary
    show PyStr.Encodable encoder (summary ++ PyStr.ofString "\n") ↔ _
    rw [PyStr.encodable_append, and_iff_left (PyStr.encodable_ofString _)]
  rw [keepsVerdict_iff_yields, henc]
  simp only [hnewline, renderedSummary, yields_renderPrSummary hlog, Yields.const_and_iff, hreport,
    yields_loadReport]
  exact ⟨fun h => ⟨h.1, h.2⟩, fun h => ⟨h.config, h.report⟩⟩

/-- Another stream lacks a sign of the heading. -/
theorem not_keepsVerdict_of_legacy {env : CiEnvironment} {args : CiArgs} {takes : CodePoint → Bool}
    {lacks : ∀ gate : CiSection, ∃ c ∈ gate.heading.toList, takes (.char c) = false}
    (henc : env.encoding = .legacy takes lacks) : ¬KeepsVerdict env args := by
  rw [keepsVerdict_iff_yields, henc]
  rintro ⟨report, hreport, summary, hsummary, htakes⟩
  obtain ⟨c, hc, hlacks⟩ := lacks (sectionOf args.exitCode)
  have hmem : CodePoint.char c ∈ summary :=
    (heading_prefix_renderPrSummary hsummary).mem (List.mem_map_of_mem hc)
  have htaken := htakes _ (List.mem_append_left _ hmem)
  rw [StdoutEncoding.takes, hlacks] at htaken
  exact Bool.false_ne_true htaken

/-- `main` of `ci.py` keeps the verdict of the run exactly when it writes to a stream of Unicode
and the input can be rendered for the encoder of this stream. -/
theorem keepsVerdict_iff (env : CiEnvironment) (args : CiArgs) :
    KeepsVerdict env args ↔
      ∃ encoder, env.encoding = .unicode encoder ∧ CiInput encoder env args := by
  cases henc : env.encoding with
  | unicode encoder =>
      rw [keepsVerdict_iff_of_unicode henc]
      simp
  | legacy takes lacks =>
      simp [not_keepsVerdict_of_legacy henc]

/-- The byte of a config argument that is no text goes out again in a C locale. -/
example : KeepsVerdict ⟨defaultLimits, 1000, none, .unicode .surrogateEscape⟩
    ⟨0, .error "", none, some [.surrogate 0x480]⟩ := by
  refine (keepsVerdict_iff_of_unicode rfl).mpr ⟨?_, fun data h => nomatch h⟩
  rintro c ⟨⟩
  exact List.forall_mem_singleton.mpr (by decide)

/-- A report that is not UTF-8, with the exit code of a blocked release. -/
def garbledReport : CiArgs where
  exitCode := 1
  report := .ok ⟨#[0xFF]⟩
  log := none
  config := none

/-- The usual interpreter, and a summary on a standard output in strict UTF-8. -/
def ciDefaults : CiEnvironment := ⟨defaultLimits, 1000, none, .unicode .strict⟩

/-- A report that is not UTF-8 raises, and nothing is written. -/
theorem garbledReport_loses_verdict :
    ¬∀ (env : CiEnvironment) (args : CiArgs), KeepsVerdict env args := by
  intro h
  obtain ⟨text, hexec, _⟩ := h ciDefaults garbledReport
  have hread : TextFiles.readText ⟨#[0xFF]⟩ = none := by decide +kernel
  unfold ciMain at hexec
  obtain ⟨report, hreport, _⟩ := exec_lift_bind_eq_ok.mp hexec
  unfold loadReport garbledReport at hreport
  dsimp only at hreport
  rw [hread] at hreport
  exact nomatch hreport

end EvalOps
