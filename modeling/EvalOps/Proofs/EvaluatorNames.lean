import EvalOps.Dashboard.RunConfig

/-!
# `EvalOps.Proofs.EvaluatorNames`: unique names in the form and at the backend

The run form calls a row without a name by its type. The backend has its own default for each type,
and that of `groundedness` is `groundedness_lexical`. So the form misses a collision with that name,
and sees one with the name `groundedness` where there is none. The backend also stops at the first
row that it rejects for another reason, and does not compare the names after it.

`unique_names_agree_iff` says exactly for which rows the two sides agree.
-/

set_option autoImplicit false

namespace EvalOps.Dashboard

variable {env : SpecEnvironment}

/-! ### Names -/

/-- The row has no name of its own. -/
def IsUnnamed (row : EvaluatorRow) : Prop := JsText.trim row.name = ""

instance (row : EvaluatorRow) : Decidable (IsUnnamed row) := inferInstanceAs (Decidable (_ = _))

/-- The backend's name for a type. -/
def defaultName : EvaluatorType → String
  | .groundedness => "groundedness_lexical"
  | type => type.text

/-- The backend's name for a row. -/
def backendName (row : EvaluatorRow) : String :=
  if IsUnnamed row then defaultName row.type else JsText.trim row.name

/-- Two rows have the same name on both sides: the same name of their own, the same type without a
name, or a name of their own that is the default of the other, where both sides have the same
default. -/
def SameName (a b : EvaluatorRow) : Prop :=
  if IsUnnamed a then
    if IsUnnamed b then a.type = b.type
    else a.type ≠ .groundedness ∧ JsText.trim b.name = a.type.text
  else
    if IsUnnamed b then b.type ≠ .groundedness ∧ JsText.trim a.name = b.type.text
    else JsText.trim a.name = JsText.trim b.name

/-- One row is an unnamed `groundedness`, and the other has this name. -/
def NamesGroundedness (name : String) (a b : EvaluatorRow) : Prop :=
  (IsUnnamed a ∧ a.type = .groundedness ∧ JsText.trim b.name = name) ∨
    (IsUnnamed b ∧ b.type = .groundedness ∧ JsText.trim a.name = name)

theorem text_injective : Function.Injective EvaluatorType.text := by
  intro a b h
  cases a <;> cases b <;> first | rfl | exact absurd h (by decide)

theorem defaultName_injective : Function.Injective defaultName := by
  intro a b h
  cases a <;> cases b <;> first | rfl | exact absurd h (by decide)

theorem text_ne_empty (type : EvaluatorType) : type.text ≠ "" := by
  cases type <;> decide

theorem defaultName_of_ne {type : EvaluatorType} (h : type ≠ .groundedness) :
    defaultName type = type.text := by
  cases type <;> first | rfl | exact absurd rfl h

/-- The name of a row under some defaults. -/
def nameUnder (default : EvaluatorType → String) (row : EvaluatorRow) : String :=
  if IsUnnamed row then default row.type else JsText.trim row.name

/-- Two rows have equal names under defaults that are the types, apart from `groundedness`. -/
theorem nameUnder_eq_iff {default : EvaluatorType → String} (hinj : Function.Injective default)
    (htext : ∀ type, type ≠ .groundedness → default type = type.text)
    (hne : default .groundedness ≠ "") (a b : EvaluatorRow) :
    nameUnder default a = nameUnder default b ↔
      SameName a b ∨ NamesGroundedness (default .groundedness) a b := by
  unfold nameUnder SameName NamesGroundedness
  by_cases ha : IsUnnamed a
  · have ha' : JsText.trim a.name = "" := ha
    by_cases hb : IsUnnamed b
    · have hb' : JsText.trim b.name = "" := hb
      simp [ha, hb, ha', hb', hinj.eq_iff, hne.symm]
    · rw [if_pos ha, if_neg hb, if_pos ha, if_neg hb]
      by_cases hg : a.type = .groundedness
      · simpa [ha, hb, hg] using eq_comm
      · simpa [ha, hb, hg, htext _ hg] using eq_comm
  · by_cases hb : IsUnnamed b
    · rw [if_neg ha, if_pos hb, if_neg ha, if_pos hb]
      by_cases hg : b.type = .groundedness
      · simp [ha, hb, hg]
      · simp [ha, hb, hg, htext _ hg]
    · simp [ha, hb]

/-- The form's names of two rows are equal. -/
theorem effectiveEvaluatorName_eq_iff (a b : EvaluatorRow) :
    effectiveEvaluatorName a = effectiveEvaluatorName b ↔
      SameName a b ∨ NamesGroundedness "groundedness" a b :=
  nameUnder_eq_iff text_injective (fun _ _ => rfl) (text_ne_empty .groundedness) a b

/-- The backend's names of two rows are equal. -/
theorem backendName_eq_iff (a b : EvaluatorRow) :
    backendName a = backendName b ↔
      SameName a b ∨ NamesGroundedness "groundedness_lexical" a b :=
  nameUnder_eq_iff defaultName_injective (fun _ h => defaultName_of_ne h) (by decide) a b

/-! ### Pairs of rows -/

/-- Two rows of the list are related, the earlier one to the later one. -/
def Somewhere (R : EvaluatorRow → EvaluatorRow → Prop) (rows : List EvaluatorRow) : Prop :=
  ∃ a b, [a, b].Sublist rows ∧ R a b

theorem Somewhere.mono {R : EvaluatorRow → EvaluatorRow → Prop} {rows rows' : List EvaluatorRow}
    (h : rows.Sublist rows') : Somewhere R rows → Somewhere R rows' := by
  rintro ⟨a, b, hab, hR⟩
  exact ⟨a, b, hab.trans h, hR⟩

theorem somewhere_or {R S : EvaluatorRow → EvaluatorRow → Prop} {rows : List EvaluatorRow} :
    Somewhere (fun a b => R a b ∨ S a b) rows ↔ Somewhere R rows ∨ Somewhere S rows := by
  constructor
  · rintro ⟨a, b, hab, h | h⟩
    · exact Or.inl ⟨a, b, hab, h⟩
    · exact Or.inr ⟨a, b, hab, h⟩
  · rintro (⟨a, b, hab, h⟩ | ⟨a, b, hab, h⟩)
    · exact ⟨a, b, hab, Or.inl h⟩
    · exact ⟨a, b, hab, Or.inr h⟩

/-- Names repeat exactly when two rows have the same one. -/
theorem not_nodup_map_iff {β : Type} (f : EvaluatorRow → β) (rows : List EvaluatorRow) :
    ¬(rows.map f).Nodup ↔ Somewhere (fun a b => f a = f b) rows := by
  unfold Somewhere
  rw [List.Nodup, List.pairwise_map, List.pairwise_iff_forall_sublist]
  push Not
  rfl

/-! ### One row at the backend -/

theorem keys_fields (spec : EvaluatorSpec) : spec.fields.map Prod.fst =
    ["type", "name", "case_sensitive", "pattern"] ++
      spec.threshold.toList.map fun t => t.1.text := by
  unfold EvaluatorSpec.fields
  rw [List.map_append, List.map_map]
  rfl

theorem keys_fields_nodup (spec : EvaluatorSpec) : (spec.fields.map Prod.fst).Nodup := by
  rw [keys_fields]
  rcases spec.threshold with _ | ⟨key, x⟩
  · decide
  · cases key <;> simp [ThresholdKey.text]

/-- The value of a field of a spec. -/
theorem get?_toMapping {spec : EvaluatorSpec} {key : String} {value : Option SpecValue}
    (h : (key, value) ∈ spec.fields) : spec.toMapping.get? key = value :=
  Dict.get?_ofList_setFields (keys_fields_nodup spec) h

theorem get?_type (spec : EvaluatorSpec) :
    spec.toMapping.get? "type" = some (.str spec.type.text) :=
  get?_toMapping (by simp [EvaluatorSpec.fields])

theorem get?_name (spec : EvaluatorSpec) :
    spec.toMapping.get? "name" = spec.name.map SpecValue.str :=
  get?_toMapping (by simp [EvaluatorSpec.fields])

theorem get?_caseSensitive (spec : EvaluatorSpec) :
    spec.toMapping.get? "case_sensitive" = spec.caseSensitive.map SpecValue.bool :=
  get?_toMapping (by simp [EvaluatorSpec.fields])

theorem get?_pattern (spec : EvaluatorSpec) :
    spec.toMapping.get? "pattern" = spec.pattern.map SpecValue.str :=
  get?_toMapping (by simp [EvaluatorSpec.fields])

theorem get?_threshold {spec : EvaluatorSpec} {key : ThresholdKey}
    (h : ∀ t, spec.threshold = some t → t.1 = key) :
    spec.toMapping.get? key.text = spec.threshold.map fun t => SpecValue.float t.2 := by
  cases hthreshold : spec.threshold with
  | none =>
      refine Dict.get?_ofList_setFields_of_notMem (keys_fields_nodup spec) ?_
      rw [keys_fields, hthreshold]
      cases key <;> simp [ThresholdKey.text]
  | some t =>
      rw [← h t hthreshold]
      exact get?_toMapping (by simp [EvaluatorSpec.fields, hthreshold])

/-- The backend rejects the row whatever its name: its pattern does not compile, or its threshold is
not a number in the unit interval. -/
def rejects (env : SpecEnvironment) (row : EvaluatorRow) : Bool :=
  (decide (row.type = .regexMatch) && (env.compileError row.pattern).isSome) ||
    (row.type.thresholdKey.isSome && !decide (JsText.trim row.threshold = "") &&
      !isShare (JsText.toNumber row.threshold))

/-- The class that a type selects, for the types with a threshold. -/
def gradedType : EvaluatorType → Option GradedType
  | .exactMatch | .contains | .regexMatch => none
  | .retrievalRecall => some .retrievalRecall
  | .contextPrecision => some .contextPrecision
  | .groundedness => some .groundedness
  | .toolSelection => some .toolSelection
  | .toolArguments => some .toolArguments
  | .toolSuccess => some .toolSuccess
  | .toolTrajectory => some .toolTrajectory

/-- The name of a spec or the backend's default is the backend's name of its row. -/
theorem nameOr_evaluatorSpec (row : EvaluatorRow) :
    nameOr (evaluatorSpec row).name (defaultName row.type) = backendName row := by
  unfold evaluatorSpec backendName IsUnnamed
  by_cases h : JsText.trim row.name = ""
  · simp [h, nameOr]
  · simp [h, nameOr]

theorem specName_evaluatorSpec (row : EvaluatorRow) (label : String) :
    specName (evaluatorSpec row).toMapping label = .ok (evaluatorSpec row).name := by
  unfold specName
  rw [get?_name]
  cases (evaluatorSpec row).name <;> rfl

/-- An exception that is not about a repeated name. -/
def IsOtherError {α : Type} (x : Py α) : Prop := ∃ e, x = .error e ∧ ∀ n, e ≠ duplicateName n

/-- Messages that start differently are different. -/
theorem isOtherError_config {α : Type} {start rest : String} {c : Char} {cs : List Char}
    (hstart : start.toList = c :: cs) (hc : c ≠ 'd') :
    IsOtherError (.error (.config (start ++ rest)) : Py α) := by
  refine ⟨_, rfl, fun n h => hc ?_⟩
  have hhead := congrArg (fun e : PyError => e.message.toList.head?) h
  simp only [PyError.config, duplicateName, String.toList_append, hstart, List.cons_append,
    List.head?_cons] at hhead
  simpa using hhead

/-- A share is a threshold, and nothing else is. -/
theorem thresholded_of_isShare {value : PyFloat} (h : isShare value = true) (name field : String) :
    ∃ evaluator, thresholded value name field = .ok evaluator ∧ evaluator.name = name := by
  cases value with
  | finite x =>
      have hx : 0 ≤ x ∧ x ≤ 1 := of_decide_eq_true h
      unfold thresholded
      simp only [dif_pos hx.1, dif_pos hx.2]
      exact ⟨_, rfl, rfl⟩
  | inf negative => cases h
  | nan => cases h

theorem thresholded_of_not_isShare {value : PyFloat} (h : isShare value = false)
    (name field : String) : IsOtherError (thresholded value name field) := by
  have hrejected : thresholded value name field = .error (.config ("evaluator " ++
      (PyText.repr name ++ " " ++ field ++ " must be a number within [0, 1]"))) := by
    have hmessage : "evaluator " ++ (PyText.repr name ++ " " ++ field ++
        " must be a number within [0, 1]") = "evaluator " ++ PyText.repr name ++ " " ++ field ++
        " must be a number within [0, 1]" := by
      simp only [String.append_assoc]
    rw [hmessage]
    cases value with
    | finite x =>
        have hx : ¬(0 ≤ x ∧ x ≤ 1) := of_decide_eq_false h
        unfold thresholded
        by_cases h0 : 0 ≤ x
        · have h1 : ¬x ≤ 1 := fun h1 => hx ⟨h0, h1⟩
          simp only [dif_pos h0, dif_neg h1]
          rfl
        · simp only [dif_neg h0]
          rfl
    | inf negative => rfl
    | nan => rfl
  rw [hrejected]
  exact isOtherError_config rfl (by decide)

/-- The builder finds the class of a type with a threshold. -/
theorem ofType_text {type : EvaluatorType} {graded : GradedType}
    (h : gradedType type = some graded) :
    GradedType.ofType type.text = some graded ∧ defaultName type = graded.defaultName ∧
      ∃ key, type.thresholdKey = some key ∧ key.text = graded.field := by
  cases type <;> cases h <;>
    exact ⟨by decide +kernel, rfl, _, rfl, rfl⟩

theorem text_of_gradedType {type : EvaluatorType} {graded : GradedType}
    (h : gradedType type = some graded) :
    type.text ≠ "exact_match" ∧ type.text ≠ "contains" ∧ type.text ≠ "regex_match" ∧
      type.text ≠ "llm_judge" := by
  cases type <;> cases h <;> decide

/-- The evaluator of a row, before the names are compared. -/
abbrev rowEvaluator (env : SpecEnvironment) (label : String) (row : EvaluatorRow) :
    Py BuiltEvaluator :=
  buildEvaluator env label (some (evaluatorSpec row).toMapping)

/-- A graded row is built when its threshold is a share or blank. -/
theorem rowEvaluator_graded {row : EvaluatorRow} {graded : GradedType}
    (h : gradedType row.type = some graded) (label : String) :
    rowEvaluator env label row = (do
      let evaluator ← thresholded
        (if JsText.trim row.threshold = "" then .finite graded.defaultMinimum
          else JsText.toNumber row.threshold)
        (backendName row) graded.field
      pure (.graded graded evaluator)) := by
  obtain ⟨hclass, hdefault, key, hkey, hfield⟩ := ofType_text h
  obtain ⟨hexact, hcontains, hregex, hjudge⟩ := text_of_gradedType h
  have htype : (evaluatorSpec row).type = row.type := rfl
  have hthreshold : (evaluatorSpec row).threshold =
      if JsText.trim row.threshold = "" then none
      else some (key, JsText.toNumber row.threshold) := by
    unfold evaluatorSpec
    simp only [hkey]
  have hminimum : specFloat (evaluatorSpec row).toMapping graded.field label graded.defaultMinimum
      = .ok (if JsText.trim row.threshold = "" then .finite graded.defaultMinimum
          else JsText.toNumber row.threshold) := by
    unfold specFloat
    rw [← hfield, get?_threshold, hthreshold]
    · by_cases hblank : JsText.trim row.threshold = ""
      · simp only [if_pos hblank]
        rfl
      · simp only [if_neg hblank]
        rfl
    · intro t ht
      rw [hthreshold] at ht
      split at ht
      · cases ht
      · cases ht
        rfl
  unfold rowEvaluator buildEvaluator
  simp only [get?_type, htype, specName_evaluatorSpec, ExceptRules.ok_bind, if_neg hexact,
    if_neg hcontains, if_neg hregex, if_neg hjudge, hclass, hminimum, ← hdefault,
    nameOr_evaluatorSpec]

variable (env) in
/-- The threshold of a graded row that is used. -/
theorem isShare_threshold {row : EvaluatorRow} {graded : GradedType}
    (h : gradedType row.type = some graded) :
    isShare (if JsText.trim row.threshold = "" then .finite graded.defaultMinimum
      else JsText.toNumber row.threshold) = !rejects env row := by
  obtain ⟨_, _, key, hkey, _⟩ := ofType_text h
  have hregex : row.type ≠ .regexMatch := by
    intro htype
    rw [htype] at h
    cases h
  by_cases hblank : JsText.trim row.threshold = ""
  · have hdefault : isShare (.finite graded.defaultMinimum) = true := by
      cases graded <;> decide +kernel
    simp [rejects, hblank, hregex, hdefault]
  · simp [rejects, hblank, hregex, hkey]

theorem rowEvaluator_exactMatch {row : EvaluatorRow} (h : row.type = .exactMatch)
    (label : String) :
    rowEvaluator env label row = .ok (.exactMatch row.caseSensitive (backendName row)) := by
  have hname := nameOr_evaluatorSpec row
  have htype : (evaluatorSpec row).type.text = "exact_match" := congrArg EvaluatorType.text h
  have hcase : (evaluatorSpec row).caseSensitive = some row.caseSensitive := by
    simp [evaluatorSpec, h]
  rw [h] at hname
  unfold rowEvaluator buildEvaluator specBool
  simp only [get?_type, htype, specName_evaluatorSpec, ExceptRules.ok_bind, get?_caseSensitive,
    hcase]
  rw [← hname]
  rfl

theorem rowEvaluator_contains {row : EvaluatorRow} (h : row.type = .contains) (label : String) :
    rowEvaluator env label row = .ok (.contains row.caseSensitive (backendName row)) := by
  have hname := nameOr_evaluatorSpec row
  have htype : (evaluatorSpec row).type.text = "contains" := congrArg EvaluatorType.text h
  have hcase : (evaluatorSpec row).caseSensitive = some row.caseSensitive := by
    simp [evaluatorSpec, h]
  have hne : ("contains" : String) ≠ "exact_match" := by decide
  rw [h] at hname
  unfold rowEvaluator buildEvaluator specBool
  simp only [get?_type, htype, specName_evaluatorSpec, ExceptRules.ok_bind, get?_caseSensitive,
    hcase, if_neg hne]
  rw [← hname]
  rfl

theorem rowEvaluator_regexMatch {row : EvaluatorRow} (h : row.type = .regexMatch)
    (label : String) :
    rowEvaluator env label row = regexMatch env row.pattern (backendName row) := by
  have hname := nameOr_evaluatorSpec row
  have htype : (evaluatorSpec row).type.text = "regex_match" := congrArg EvaluatorType.text h
  have hpattern : (evaluatorSpec row).pattern = some row.pattern := by
    simp [evaluatorSpec, h]
  have hexact : ("regex_match" : String) ≠ "exact_match" := by decide
  have hcontains : ("regex_match" : String) ≠ "contains" := by decide
  rw [h] at hname
  unfold rowEvaluator buildEvaluator
  simp only [get?_type, htype, specName_evaluatorSpec, ExceptRules.ok_bind, get?_pattern,
    hpattern, if_neg hexact, if_neg hcontains]
  rw [← hname]
  rfl

/-- A row is built under the backend's name for it, unless the backend rejects it. -/
theorem rowEvaluator_cases (env : SpecEnvironment) (label : String) (row : EvaluatorRow) :
    (rejects env row = false ∧ ∃ evaluator, rowEvaluator env label row = .ok evaluator ∧
        evaluator.name = backendName row) ∨
      (rejects env row = true ∧ IsOtherError (rowEvaluator env label row)) := by
  cases hgraded : gradedType row.type with
  | some graded =>
      rw [rowEvaluator_graded hgraded]
      have hshare := isShare_threshold env hgraded
      cases hrejects : rejects env row with
      | false =>
          rw [hrejects] at hshare
          obtain ⟨evaluator, hevaluator, hname⟩ :=
            thresholded_of_isShare hshare (backendName row) graded.field
          rw [hevaluator]
          exact Or.inl ⟨rfl, _, rfl, hname⟩
      | true =>
          rw [hrejects] at hshare
          obtain ⟨e, he, hother⟩ :=
            thresholded_of_not_isShare hshare (backendName row) graded.field
          rw [he]
          exact Or.inr ⟨rfl, e, rfl, hother⟩
  | none =>
      -- The types without a threshold. Only a pattern can be rejected.
      cases htype : row.type with
      | exactMatch =>
          rw [rowEvaluator_exactMatch htype]
          exact Or.inl ⟨by simp [rejects, htype, EvaluatorType.thresholdKey], _, rfl, rfl⟩
      | contains =>
          rw [rowEvaluator_contains htype]
          exact Or.inl ⟨by simp [rejects, htype, EvaluatorType.thresholdKey], _, rfl, rfl⟩
      | regexMatch =>
          rw [rowEvaluator_regexMatch htype, regexMatch]
          cases hcompile : env.compileError row.pattern with
          | none =>
              exact Or.inl ⟨by simp [rejects, htype, hcompile, EvaluatorType.thresholdKey], _, rfl,
                rfl⟩
          | some exc =>
              refine Or.inr ⟨by simp [rejects, htype, hcompile], ?_⟩
              dsimp only
              by_cases hre : exc.kind = reError
              · rw [if_pos hre]
                simp only [String.append_assoc]
                exact isOtherError_config rfl (by decide)
              · -- Another exception passes the handler, and it is no `ConfigError`.
                rw [if_neg hre]
                refine ⟨exc, rfl, fun n hsame => ?_⟩
                exact env.compileError_foreign _ _ hcompile (congrArg PyError.kind hsame)
      | _ => cases htype ▸ hgraded

/-! ### The loop at the backend -/

/-- The rows before the first one that the backend rejects. -/
def reached (env : SpecEnvironment) (rows : List EvaluatorRow) : List EvaluatorRow :=
  rows.takeWhile fun row => !rejects env row

variable (env) in
/-- From names that were seen before, the loop reports a repeated name exactly when a row that it
reaches has one of them, or two such rows have the same one. -/
theorem foldlM_buildTurn_duplicate_iff (rows : List EvaluatorRow) (index : ℕ)
    (built : List BuiltEvaluator) (seen : List String) :
    (∃ n, ((rows.map fun row => some (evaluatorSpec row).toMapping).zipIdx index).foldlM
        (buildTurn env) (built, seen) = .error (duplicateName n)) ↔
      ¬(((reached env rows).map backendName).Nodup ∧
        ∀ row ∈ reached env rows, backendName row ∉ seen) := by
  induction rows generalizing index built seen with
  | nil => simp [reached]
  | cons row rows ih =>
      rw [List.map_cons, List.zipIdx_cons, List.foldlM_cons]
      rcases rowEvaluator_cases env s!"evaluators[{index}]" row with
        ⟨hrejects, evaluator, hevaluator, hname⟩ | ⟨hrejects, e, he, hother⟩
      · have hreached : reached env (row :: rows) = row :: reached env rows := by
          simp [reached, hrejects]
        by_cases hseen : backendName row ∈ seen
        · -- The name was seen before.
          have hturn : buildTurn env (built, seen)
              (some (evaluatorSpec row).toMapping, index)
                = .error (duplicateName evaluator.name) := by
            unfold buildTurn
            simp only [hevaluator, ExceptRules.ok_bind, hname, if_pos hseen]
            rfl
          rw [hturn, hreached]
          refine iff_of_true ⟨_, rfl⟩ fun h => h.2 row List.mem_cons_self hseen
        · have hturn : buildTurn env (built, seen)
              (some (evaluatorSpec row).toMapping, index)
                = .ok (built ++ [evaluator], backendName row :: seen) := by
            unfold buildTurn
            simp only [hevaluator, ExceptRules.ok_bind, hname, if_neg hseen]
            rfl
          rw [hturn, ExceptRules.ok_bind, ih, hreached]
          rw [List.map_cons, List.nodup_cons, List.forall_mem_cons]
          simp only [List.mem_map, List.mem_cons]
          grind
      · have hturn : buildTurn env (built, seen)
            (some (evaluatorSpec row).toMapping, index) = .error e := by
          unfold buildTurn
          simp only [he, ExceptRules.error_bind]
        have hreached : reached env (row :: rows) = [] := by
          simp [reached, hrejects]
        rw [hturn, hreached, ExceptRules.error_bind]
        refine iff_of_false ?_ (by simp)
        rintro ⟨n, hn⟩
        exact hother n (Except.error.inj hn)

/-- `build_evaluators` reports a repeated name exactly when two rows that it reaches have the same
name. -/
theorem buildRequested_duplicate_iff (env : SpecEnvironment) (state : RunConfigState) :
    (∃ n, buildRequested env (buildRunRequest state) = .error (duplicateName n)) ↔
      Somewhere (fun a b => backendName a = backendName b) (reached env state.evaluators) := by
  have hspecs : (buildRunRequest state).evaluators.map (fun spec => some spec.toMapping)
      = state.evaluators.map fun row => some (evaluatorSpec row).toMapping := by
    show (state.evaluators.map evaluatorSpec).map _ = _
    rw [List.map_map]
    rfl
  have hloop := foldlM_buildTurn_duplicate_iff env state.evaluators 0 [] []
  rw [← not_nodup_map_iff]
  unfold buildRequested buildEvaluators
  rw [hspecs]
  simp only [List.not_mem_nil, not_false_eq_true, implies_true, and_true] at hloop
  rw [← hloop]
  cases (((state.evaluators.map fun row => some (evaluatorSpec row).toMapping).zipIdx 0).foldlM
    (buildTurn env) ([], []) : Py (List BuiltEvaluator × List String)) <;> simp

/-! ### The two sides -/

/-- The form reports a repeated name exactly when two rows have the same name in the form. -/
theorem validateRunConfig_unique_iff (state : RunConfigState) :
    (validateRunConfig state).evaluators = some "Evaluator names must be unique." ↔
      Somewhere (fun a b => effectiveEvaluatorName a = effectiveEvaluatorName b)
        state.evaluators := by
  rw [← not_nodup_map_iff]
  show evaluatorsError state.evaluators = _ ↔ _
  unfold evaluatorsError
  cases hrows : state.evaluators with
  | nil =>
      simp only [List.isEmpty_nil, if_true, List.map_nil, List.nodup_nil, not_true_eq_false,
        iff_false]
      decide
  | cons row rows =>
      rw [← hrows]
      have hdedup : (state.evaluators.map effectiveEvaluatorName).dedup.length
          = state.evaluators.length ↔ (state.evaluators.map effectiveEvaluatorName).Nodup := by
        constructor
        · intro hlength
          rw [← List.dedup_eq_self]
          refine (List.dedup_sublist _).eq_of_length ?_
          rw [hlength, List.length_map]
        · intro hnodup
          rw [List.dedup_eq_self.mpr hnodup, List.length_map]
      rw [← hdedup]
      simp [hrows]

/-- The rows for which the form and the backend agree on repeated names. Either two rows that the
backend reaches have the same name on both sides. Or a reached unnamed `groundedness` meets the name
`groundedness_lexical`, and the form sees some repetition too. Or there is no repetition of either
kind, on either side. -/
def NamesAgree (env : SpecEnvironment) (rows : List EvaluatorRow) : Prop :=
  Somewhere SameName (reached env rows) ∨
    (Somewhere (NamesGroundedness "groundedness_lexical") (reached env rows) ∧
      (Somewhere SameName rows ∨ Somewhere (NamesGroundedness "groundedness") rows)) ∨
    (¬Somewhere (NamesGroundedness "groundedness_lexical") (reached env rows) ∧
      ¬Somewhere SameName rows ∧ ¬Somewhere (NamesGroundedness "groundedness") rows)

/-- The form reports repeated names when the backend does, exactly for rows whose names agree. -/
theorem unique_names_agree_iff (env : SpecEnvironment) (state : RunConfigState) :
    ((validateRunConfig state).evaluators = some "Evaluator names must be unique." ↔
      ∃ n, buildRequested env (buildRunRequest state) = .error (duplicateName n)) ↔
        NamesAgree env state.evaluators := by
  rw [validateRunConfig_unique_iff, buildRequested_duplicate_iff]
  simp only [effectiveEvaluatorName_eq_iff, backendName_eq_iff, somewhere_or]
  have hmono : Somewhere SameName (reached env state.evaluators) →
      Somewhere SameName state.evaluators :=
    Somewhere.mono (List.takeWhile_prefix _).sublist
  unfold NamesAgree
  -- Only how these four relations hold matters.
  generalize Somewhere SameName (reached env state.evaluators) = sameReached at hmono ⊢
  generalize Somewhere SameName state.evaluators = same at hmono ⊢
  generalize Somewhere (NamesGroundedness "groundedness_lexical")
    (reached env state.evaluators) = lexical
  generalize Somewhere (NamesGroundedness "groundedness") state.evaluators = plain
  tauto

/-- An unnamed `groundedness` and a row with its default name at the backend. -/
def collidingRows : List EvaluatorRow :=
  [⟨.groundedness, "", false, "", ""⟩, ⟨.contains, "groundedness_lexical", false, "", ""⟩]

/-- The form accepts two rows whose names collide at the backend. -/
theorem form_misses_groundedness_lexical :
    ¬∀ (env : SpecEnvironment) (state : RunConfigState),
      (validateRunConfig state).evaluators = some "Evaluator names must be unique." ↔
        ∃ n, buildRequested env (buildRunRequest state) = .error (duplicateName n) := by
  intro h
  let env : SpecEnvironment :=
    ⟨fun _ => none, compiles_foreign, fun _ label _ => .error (.config label)⟩
  have hagree := h env ⟨.mock, "", "", collidingRows⟩
  rw [buildRequested_duplicate_iff] at hagree
  have hreached : reached env collidingRows = collidingRows := by decide +kernel
  have hcollide : Somewhere (fun a b => backendName a = backendName b)
      (reached env collidingRows) :=
    ⟨_, _, by rw [hreached]; exact List.Sublist.refl _, by decide +kernel⟩
  have hform : (validateRunConfig ⟨.mock, "", "", collidingRows⟩).evaluators = none := by
    decide +kernel
  rw [hform] at hagree
  exact absurd (hagree.mpr hcollide) (by simp)

end EvalOps.Dashboard
