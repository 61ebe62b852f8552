import EvalOps.AgentEvaluators
import EvalOps.Lib.JsonEquality
import EvalOps.Proofs.Returns

/-!
# `EvalOps.Proofs.ToolArguments`: when the arguments of a tool call match

`_canonical` encodes objects and arrays as tuples and leaves booleans to Python's `==`, which
takes them for numbers. So the comparison sees all of two values but the types at their
corresponding places.

* `pyEq_canonical_iff`: canonical forms are equal exactly when the values are alike at all
  corresponding places.
* `canonical_exact_iff`: so they are equal for the same values alone unless a boolean faces a
  number, or an object an array, and nothing else tells the values apart; and `ToolArguments`
  counts an exact match unless a labelled expectation meets such arguments.
* `perfect_trajectory_iff`: what `ToolArguments` says of a trajectory that is exactly as expected.
-/

set_option autoImplicit false

namespace EvalOps

/-! ### Canonical forms of containers -/

theorem canonicalItems_eq (items : List Json) : canonicalItems items = items.map canonical := by
  induction items with
  | nil => rfl
  | cons item items ih => rw [canonicalItems, ih, List.map_cons]

theorem canonicalFields_eq (fields : List (String × Json)) :
    canonicalFields fields = fields.map fun p => (p.1, canonical p.2) := by
  induction fields with
  | nil => rfl
  | cons field fields ih =>
      show (field.1, canonical field.2) :: canonicalFields fields = _
      rw [ih, List.map_cons]

theorem canonical_arr (items : List Json) :
    canonical (.arr items) = .tuple (items.map canonical) := by
  rw [canonical, canonicalItems_eq]

/-- An object is taken for an array. -/
theorem canonical_obj (fields : List (String × Json)) :
    canonical (.obj fields) = canonical (.arr (Json.asArray fields)) := by
  rw [canonical_arr, canonical, canonicalFields_eq,
    Sorting.sortedOn_map (f := fun p : String × Json => (p.1, canonical p.2)) fun _ => rfl,
    Json.asArray, List.map_map, List.map_map]
  congr 1

/-- That array is well formed. -/
theorem wellFormed_asArray {fields : List (String × Json)} (h : (Json.obj fields).WellFormed) :
    (Json.arr (Json.asArray fields)).WellFormed := by
  rw [Json.wellFormed_obj_iff] at h
  rw [Json.wellFormed_arr_iff]
  intro x hx
  obtain ⟨p, hp, rfl⟩ := List.mem_map.mp hx
  have hvalue := h.2 p ((Sorting.sortedOn_perm _ _).mem_iff.mp hp)
  rw [Json.wellFormed_arr_iff]
  simpa [Json.WellFormed] using hvalue

/-! ### Equal canonical forms -/

/-- Python's `==` on the canonical forms. -/
def FormsEqual (a b : Json) : Prop := (canonical a).pyEq (canonical b) = true

theorem pyEqItems_iff {xs ys : List Canonical} :
    Canonical.pyEqItems xs ys = true ↔ List.Forall₂ (fun x y => x.pyEq y = true) xs ys := by
  induction xs generalizing ys with
  | nil => cases ys <;> simp [Canonical.pyEqItems]
  | cons x xs ih => cases ys <;> simp [Canonical.pyEqItems, ih]

theorem formsEqual_arr_iff {xs ys : List Json} :
    FormsEqual (.arr xs) (.arr ys) ↔ List.Forall₂ FormsEqual xs ys := by
  rw [FormsEqual, canonical_arr, canonical_arr, Canonical.pyEq, pyEqItems_iff,
    List.forall₂_map_left_iff, List.forall₂_map_right_iff]
  exact Iff.rfl

theorem formsEqual_obj_iff {fields others : List (String × Json)} :
    FormsEqual (.obj fields) (.obj others) ↔
      List.Forall₂ (fun p q => p.1 = q.1 ∧ FormsEqual p.2 q.2)
        (Sorting.sortedOn Prod.fst fields) (Sorting.sortedOn Prod.fst others) := by
  rw [FormsEqual, canonical_obj, canonical_obj, ← FormsEqual, formsEqual_arr_iff,
    Json.asArray, Json.asArray, List.forall₂_map_left_iff, List.forall₂_map_right_iff]
  refine ListRules.forall₂_congr fun p _ q _ => ?_
  rw [formsEqual_arr_iff]
  simp [FormsEqual, canonical, Canonical.pyEq]

/-- What the comparison says of a value is told by the corresponding places. -/
def FormTells (a : Json) : Prop :=
  a.WellFormed → ∀ b, b.WellFormed → (FormsEqual a b ↔ Json.Everywhere Json.Alike a b)

/-- A leaf is compared by its value. -/
theorem formTells_leaf {a : Json} (h : a.scalar? ≠ none)
    (hform : ∀ b, FormsEqual a b ↔ Json.Alike a b) : FormTells a := by
  intro _ b _
  rw [hform, Json.everywhere_leaf (.inl h)]

theorem formTells_str (s : String) : FormTells (.str s) := by
  refine formTells_leaf (by simp [Json.scalar?]) fun b => ?_
  cases b <;> simp [FormsEqual, canonical, Canonical.pyEq, Canonical.number?, Json.Alike,
    Json.scalar?]

/-- Items whose forms tell everything have tuples that tell everything. -/
theorem formTells_arr {xs : List Json} (h : ∀ x ∈ xs, FormTells x) : FormTells (.arr xs) := by
  intro ha
  have hitems := Json.wellFormed_arr_iff.mp ha
  -- The other value is an array, is taken for one, or is a leaf.
  have harr : ∀ ys, (Json.arr ys).WellFormed →
      (FormsEqual (.arr xs) (.arr ys) ↔ Json.Everywhere Json.Alike (.arr xs) (.arr ys)) := by
    intro ys hb
    rw [Json.wellFormed_arr_iff] at hb
    rw [formsEqual_arr_iff, Json.everywhere_arr_iff Iff.rfl]
    exact ListRules.forall₂_congr fun x hx y hy => h x hx (hitems x hx) y (hb y hy)
  intro b hb
  cases b with
  | arr ys => exact harr ys hb
  | obj fields =>
      rw [FormsEqual, canonical_obj, ← FormsEqual, harr _ (wellFormed_asArray hb),
        Json.everywhere_arr_obj]
      exact (and_iff_right rfl).symm
  | _ =>
      simp [FormsEqual, canonical, Canonical.pyEq, Canonical.number?, Json.everywhere_leaf,
        Json.Alike, Json.scalar?]

theorem formTells_obj {fields : List (String × Json)} (h : ∀ p ∈ fields, FormTells p.2) :
    FormTells (.obj fields) := by
  -- The array for the object holds pairs of a key and a value.
  have hpairs : ∀ x ∈ Json.asArray fields, FormTells x := by
    intro x hx
    obtain ⟨p, hp, rfl⟩ := List.mem_map.mp hx
    have hvalue := h p ((Sorting.sortedOn_perm _ _).mem_iff.mp hp)
    exact formTells_arr (by simpa using ⟨formTells_str p.1, hvalue⟩)
  intro ha b hb
  have hfields := Json.wellFormed_obj_iff.mp ha
  cases b with
  | obj others =>
      have hothers := Json.wellFormed_obj_iff.mp hb
      rw [formsEqual_obj_iff, Json.everywhere_obj_iff hfields.1 hothers.1 Iff.rfl]
      refine ListRules.forall₂_congr fun p hp q hq => and_congr_right fun _ => ?_
      have hp' := (Sorting.sortedOn_perm _ _).mem_iff.mp hp
      have hq' := (Sorting.sortedOn_perm _ _).mem_iff.mp hq
      exact h p hp' (hfields.2 p hp') q.2 (hothers.2 q hq')
  | arr ys =>
      rw [FormsEqual, canonical_obj, ← FormsEqual,
        formTells_arr hpairs (wellFormed_asArray ha) _ hb, Json.everywhere_obj_arr]
      exact (and_iff_right rfl).symm
  | _ =>
      simp [FormsEqual, canonical, Canonical.pyEq, Canonical.number?, Json.everywhere_leaf,
        Json.Alike, Json.scalar?]

/-- Canonical forms are equal exactly when the values are alike at all corresponding places. -/
theorem formTells (a : Json) : FormTells a := by
  induction a using Json.induction with
  | null =>
      refine formTells_leaf (by simp [Json.scalar?]) fun b => ?_
      cases b <;> simp [FormsEqual, canonical, Canonical.pyEq, Canonical.number?, Json.Alike,
        Json.scalar?]
  | bool c =>
      refine formTells_leaf (by simp [Json.scalar?]) fun b => ?_
      cases b <;> simp [FormsEqual, canonical, Canonical.pyEq, Canonical.number?, Json.Alike,
        Json.scalar?]
  | int n =>
      refine formTells_leaf (by simp [Json.scalar?]) fun b => ?_
      cases b <;> simp [FormsEqual, canonical, Canonical.pyEq, Canonical.number?, Json.Alike,
        Json.scalar?]
  | float x =>
      refine formTells_leaf (by simp [Json.scalar?]) fun b => ?_
      cases b <;> simp [FormsEqual, canonical, Canonical.pyEq, Canonical.number?, Json.Alike,
        Json.scalar?]
  | str s => exact formTells_str s
  | arr items ih => exact formTells_arr ih
  | obj fields ih => exact formTells_obj ih

theorem pyEq_canonical_iff {a b : Json} (ha : a.WellFormed) (hb : b.WellFormed) :
    (canonical a).pyEq (canonical b) = true ↔ Json.Everywhere Json.Alike a b :=
  formTells a ha b hb

/-- The same values have equal canonical forms. -/
theorem pyEq_of_same {a b : Json} (ha : a.WellFormed) (hb : b.WellFormed)
    (h : a.same b = true) : (canonical a).pyEq (canonical b) = true := by
  rw [Json.same_iff_everywhere a ha b hb] at h
  rw [pyEq_canonical_iff ha hb]
  exact fun x y hxy => (h x y hxy).1

/-! ### The matched expectations -/

/-- The labelled expectations of a case, in order. -/
def labelledCalls (reference : DatasetCase) : List ExpectedToolCall :=
  reference.expectedToolCalls.filter fun e => e.arguments.isSome

/-- The observed call for an expectation: the `k`-th call of its tool, where `k` labelled
expectations of the tool come earlier. -/
def pairedCall (calls : List ToolCall) (earlier : List ExpectedToolCall)
    (expected : ExpectedToolCall) : Option ToolCall :=
  (calls.filter fun c => decide (c.name = expected.name))[
    earlier.countP fun e => decide (e.name = expected.name)]?

/-- Labelled expectations with their observed calls, after some `earlier` ones. -/
def pairings (calls : List ToolCall) (earlier : List ExpectedToolCall) :
    List ExpectedToolCall → List (ExpectedToolCall × Option ToolCall)
  | [] => []
  | expected :: rest =>
      (expected, pairedCall calls earlier expected) ::
        pairings calls (earlier ++ [expected]) rest

/-- The observed call compares equal to the expectation. -/
def comparesEqual (p : ExpectedToolCall × Option ToolCall) : Bool :=
  match p.2 with
  | some call => (canonical (.obj call.arguments)).pyEq (canonicalArguments p.1.arguments)
  | none => false

/-- The observed call has exactly the arguments of the expectation. -/
def carriesArguments (p : ExpectedToolCall × Option ToolCall) : Bool :=
  match p.2, p.1.arguments with
  | some call, some arguments => (Json.obj call.arguments).same (.obj arguments)
  | _, _ => false

/-- The candidates that the loop looks up are the calls of the tool. -/
theorem getD_group_name (calls : List ToolCall) (name : NonBlank) :
    ((Dict.group ToolCall.name calls).get? name).getD []
      = calls.filter fun c => decide (c.name = name) := by
  rw [Dict.get?_group]
  split
  · rename_i hnil
    exact hnil.symm
  · rfl

/-- The loop counts the expectations whose observed call compares equal. -/
theorem matched_eq (calls : List ToolCall) (labelled : List ExpectedToolCall) :
    ToolArguments.matched calls labelled = (pairings calls [] labelled).countP comparesEqual := by
  -- `seen` holds the number of earlier labelled expectations of each tool.
  have loop : ∀ (rest earlier : List ExpectedToolCall) (state : Dict NonBlank ℕ × ℕ),
      (∀ name, (state.1.get? name).getD 0 = earlier.countP fun e => decide (e.name = name)) →
      (rest.foldl (ToolArguments.matchTurn (Dict.group ToolCall.name calls)) state).2
        = state.2 + (pairings calls earlier rest).countP comparesEqual := by
    intro rest
    induction rest with
    | nil =>
        intro earlier state _
        rfl
    | cons expected rest ih =>
        intro earlier state hseen
        have hturn : ToolArguments.matchTurn (Dict.group ToolCall.name calls) state expected
            = (state.1.insert expected.name
                ((earlier.countP fun e => decide (e.name = expected.name)) + 1),
              state.2 + if comparesEqual (expected, pairedCall calls earlier expected) then 1
                else 0) := by
          unfold ToolArguments.matchTurn comparesEqual pairedCall
          dsimp only
          rw [getD_group_name, hseen]
          generalize (calls.filter fun c => decide (c.name = expected.name))[
            earlier.countP fun e => decide (e.name = expected.name)]? = paired
          cases paired with
          | none => rfl
          | some call =>
              dsimp only
              split
              · rfl
              · rfl
        rw [List.foldl_cons, hturn, ih (earlier ++ [expected]), pairings, List.countP_cons]
        · dsimp only
          omega
        · intro name
          dsimp only
          rw [Dict.get?_insert, List.countP_append, List.countP_singleton]
          by_cases hname : name = expected.name
          · simp [hname]
          · rw [if_neg hname, hseen, if_neg (by simpa using Ne.symm hname), Nat.add_zero]
  have h := loop labelled [] (.empty, 0) fun name => by simp [Dict.empty, Dict.get?]
  rw [Nat.zero_add] at h
  exact h

/-! ### Exactly when the comparison is exact -/

/-- A value whose objects have distinct keys at every level, as Python has it. -/
structure JsonValue where
  value : Json
  wellFormed : value.WellFormed

/-- The arguments of the observed and of the expected calls are Python dicts. -/
structure DictArguments (run : EvaluationRun) (reference : DatasetCase) : Prop where
  observed : ∀ call ∈ run.toolCalls, (Json.obj call.arguments).WellFormed
  expected : ∀ e ∈ reference.expectedToolCalls, ∀ arguments, e.arguments = some arguments →
    (Json.obj arguments).WellFormed

/-- No boolean faces a number and no object faces an array at corresponding places of the values,
or the values are told apart at some corresponding places by more than that. -/
def TypesDoNotMatter (a b : Json) : Prop :=
  (∀ x y, Json.Facing a b x y → ¬Json.TypesClash x y) ∨
    ∃ x y, Json.Facing a b x y ∧ ¬Json.Alike x y

/-- The comparison of two values is exact unless their types alone tell them apart. -/
theorem pyEq_exact_iff {a b : Json} (ha : a.WellFormed) (hb : b.WellFormed) :
    ((canonical a).pyEq (canonical b) = true ↔ a.same b = true) ↔ TypesDoNotMatter a b := by
  rw [pyEq_canonical_iff ha hb, Json.same_iff_everywhere a ha b hb]
  constructor
  · intro hexact
    by_cases halike : Json.Everywhere Json.Alike a b
    · exact .inl fun x y hxy => (hexact.mp halike x y hxy).2
    · unfold Json.Everywhere at halike
      push Not at halike
      exact .inr halike
  · rintro (hclash | ⟨x, y, hxy, hdiffer⟩)
    · exact ⟨fun h x y hxy => ⟨h x y hxy, hclash x y hxy⟩, fun h x y hxy => (h x y hxy).1⟩
    · exact ⟨fun h => absurd (h x y hxy) hdiffer, fun h => absurd (h x y hxy).1 hdiffer⟩

theorem mem_of_pairedCall {calls : List ToolCall} {earlier : List ExpectedToolCall}
    {expected : ExpectedToolCall} {call : ToolCall}
    (h : pairedCall calls earlier expected = some call) : call ∈ calls :=
  (List.mem_filter.mp (List.mem_of_getElem? h)).1

/-- A pairing takes an expectation and an observed call. -/
theorem mem_pairings {calls : List ToolCall} {earlier labelled : List ExpectedToolCall}
    {p : ExpectedToolCall × Option ToolCall} (h : p ∈ pairings calls earlier labelled) :
    p.1 ∈ labelled ∧ ∀ call, p.2 = some call → call ∈ calls := by
  induction labelled generalizing earlier with
  | nil => exact absurd h List.not_mem_nil
  | cons expected rest ih =>
      rcases List.mem_cons.mp h with rfl | h
      · exact ⟨List.mem_cons_self, fun call hcall => mem_of_pairedCall hcall⟩
      · obtain ⟨hmem, hcalls⟩ := ih h
        exact ⟨List.mem_cons_of_mem _ hmem, hcalls⟩

theorem length_pairings (calls : List ToolCall) (earlier labelled : List ExpectedToolCall) :
    (pairings calls earlier labelled).length = labelled.length := by
  induction labelled generalizing earlier with
  | nil => rfl
  | cons expected rest ih => rw [pairings, List.length_cons, ih, List.length_cons]

/-- `ToolArguments.evaluate` of a case with a labelled expectation. -/
theorem ToolArguments.evaluate_eq (evaluator : ToolArguments) (run : EvaluationRun)
    {reference : DatasetCase} (h : labelledCalls reference ≠ []) :
    evaluator.evaluate run reference
      = evaluator.scored .deterministic
          (ToolArguments.matched run.toolCalls (labelledCalls reference)
            / (labelledCalls reference).length) := by
  have hexpected : reference.expectedToolCalls.isEmpty = false := by
    cases hcalls : reference.expectedToolCalls with
    | nil => exact absurd (by rw [labelledCalls, hcalls]; rfl) h
    | cons e rest => rfl
  have hlabelled : (labelledCalls reference).isEmpty = false := by
    cases hcalls : labelledCalls reference with
    | nil => exact absurd hcalls h
    | cons e rest => rfl
  unfold ToolArguments.evaluate expectedCalls
  rw [hexpected]
  dsimp only [Bool.false_eq_true, if_false]
  show (if (labelledCalls reference).isEmpty then _ else _) = _
  rw [hlabelled]
  rfl

section

variable {run : EvaluationRun} {reference : DatasetCase} (hdict : DictArguments run reference)

include hdict

/-- On a pairing of two dicts the comparison is exact unless the types matter. -/
theorem comparesEqual_exact_iff {p : ExpectedToolCall × Option ToolCall}
    (hp : p ∈ pairings run.toolCalls [] (labelledCalls reference)) :
    (carriesArguments p = true → comparesEqual p = true) ∧
      ((comparesEqual p = true → carriesArguments p = true) ↔
        ∀ call arguments, p.2 = some call → p.1.arguments = some arguments →
          TypesDoNotMatter (.obj call.arguments) (.obj arguments)) := by
  obtain ⟨expected, paired⟩ := p
  obtain ⟨hmem, hcalls⟩ := mem_pairings hp
  obtain ⟨hexpected, hlabel⟩ := List.mem_filter.mp hmem
  obtain ⟨arguments, harguments⟩ := Option.isSome_iff_exists.mp hlabel
  dsimp only at harguments hexpected
  cases paired with
  | none => simp [carriesArguments, comparesEqual]
  | some call =>
      have hcall := hdict.observed call (hcalls call rfl)
      have hargs := hdict.expected expected hexpected arguments harguments
      have hexact := pyEq_exact_iff hcall hargs
      have hforget := pyEq_of_same hcall hargs
      simp only [carriesArguments, comparesEqual, harguments, canonicalArguments,
        Option.some.injEq]
      refine ⟨hforget, ?_⟩
      constructor
      · rintro h _ _ rfl rfl
        exact hexact.mp ⟨h, hforget⟩
      · intro h
        exact (hexact.mpr (h call arguments rfl rfl)).mp

/-- The comparison of canonical forms is exact, for two values, unless a boolean faces a number or
an object faces an array and nothing else tells the values apart. `ToolArguments` counts the exact
matches unless the arguments of a labelled expectation and of its observed call are such values. -/
theorem canonical_exact_iff (a b : JsonValue) :
    (((canonical a.value).pyEq (canonical b.value) = true ↔ a.value.same b.value = true) ↔
      TypesDoNotMatter a.value b.value) ∧
    (ToolArguments.matched run.toolCalls (labelledCalls reference)
        = (pairings run.toolCalls [] (labelledCalls reference)).countP carriesArguments ↔
      ∀ p ∈ pairings run.toolCalls [] (labelledCalls reference), ∀ call arguments,
        p.2 = some call → p.1.arguments = some arguments →
          TypesDoNotMatter (.obj call.arguments) (.obj arguments)) ∧
    (labelledCalls reference ≠ [] → ∀ evaluator : ToolArguments,
      evaluator.evaluate run reference
        = evaluator.scored .deterministic
            (ToolArguments.matched run.toolCalls (labelledCalls reference)
              / (labelledCalls reference).length)) := by
  refine ⟨pyEq_exact_iff a.wellFormed b.wellFormed, ?_,
    fun h evaluator => evaluator.evaluate_eq run h⟩
  rw [matched_eq, ListRules.countP_eq_countP_iff fun p hp => (comparesEqual_exact_iff hdict hp).1]
  exact forall₂_congr fun p hp => (comparesEqual_exact_iff hdict hp).2

end

/-- A successful call. -/
def agentCall (name : NonBlank) (arguments : List (String × Json)) : ToolCall where
  name
  arguments
  result := .null
  ok := true
  error := none
  ok_no_error := fun _ => rfl

/-- A run in which the agent made the given calls. -/
def agentRun (calls : List ToolCall) : EvaluationRun where
  experimentId := offlineId 0
  systemVersionId := offlineId 0
  caseId := offlineId 0
  repeatIndex := 0
  output := ""
  usage := UsageMetrics.zero
  error := none
  retrieval := []
  toolCalls := calls
  id := offlineId 0
  createdAt := 0

/-- A case that expects the given calls. -/
def agentCase (expected : List ExpectedToolCall) : DatasetCase :=
  { offlineCase 0 with expectedToolCalls := expected }

/-- A tool. -/
def getTool : NonBlank := ⟨"get", by decide⟩

/-- An expectation of `get` with an empty array as an argument. -/
def emptyArrayCase : DatasetCase := agentCase [⟨getTool, some [("x", .arr [])]⟩]

/-- A call of `get` with an empty object as an argument. -/
def emptyObjectRun : EvaluationRun := agentRun [agentCall getTool [("x", .obj [])]]

theorem emptyObject_dict : DictArguments emptyObjectRun emptyArrayCase where
  observed := by simp [emptyObjectRun, agentRun, agentCall, Json.WellFormed, Json.FieldsWellFormed]
  expected := by
    simp [emptyArrayCase, agentCase, Json.WellFormed, Json.FieldsWellFormed,
      Json.ItemsWellFormed]

/-- The empty object and the empty array, as values and as arguments. -/
theorem canonical_exact_iff_empty :
    (((canonical (.obj [])).pyEq (canonical (.arr [])) = true ↔
        (Json.obj []).same (.arr []) = true) ↔ TypesDoNotMatter (.obj []) (.arr [])) ∧
    (ToolArguments.matched emptyObjectRun.toolCalls (labelledCalls emptyArrayCase)
        = (pairings emptyObjectRun.toolCalls [] (labelledCalls emptyArrayCase)).countP
            carriesArguments ↔
      ∀ p ∈ pairings emptyObjectRun.toolCalls [] (labelledCalls emptyArrayCase),
        ∀ call arguments, p.2 = some call → p.1.arguments = some arguments →
          TypesDoNotMatter (.obj call.arguments) (.obj arguments)) :=
  have h := canonical_exact_iff emptyObject_dict
    ⟨.obj [], by simp [Json.WellFormed, Json.FieldsWellFormed]⟩
    ⟨.arr [], by simp [Json.WellFormed, Json.ItemsWellFormed]⟩
  ⟨h.1, h.2.1⟩

/-- Different JSON types compare equal: the empty object and the empty array, an object and the
array of its pairs, `true` and `1`. So `ToolArguments` scores an empty object as a match for an
empty array. -/
theorem canonical_conflates_types :
    ((canonical (.obj [])).pyEq (canonical (.arr [])) = true ∧
      (Json.obj []).same (.arr []) = false) ∧
    ((canonical (.obj [("a", .int 1)])).pyEq (canonical (.arr [.arr [.str "a", .int 1]])) = true ∧
      (Json.obj [("a", .int 1)]).same (.arr [.arr [.str "a", .int 1]]) = false) ∧
    ((canonical (.bool true)).pyEq (canonical (.int 1)) = true ∧
      (Json.bool true).same (.int 1) = false) ∧
    ToolArguments.matched emptyObjectRun.toolCalls (labelledCalls emptyArrayCase) = 1 ∧
    (pairings emptyObjectRun.toolCalls [] (labelledCalls emptyArrayCase)).countP carriesArguments
      = 0 := by
  decide

/-! ### Perfect trajectories -/

/-- The observed calls are the expected ones in the expected order, and each call in the position
of a labelled expectation has its arguments. -/
def PerfectTrajectory (run : EvaluationRun) (reference : DatasetCase) : Prop :=
  List.Forall₂ (fun e c => c.name = e.name ∧ ∀ arguments, e.arguments = some arguments →
    (Json.obj c.arguments).same (.obj arguments) = true) reference.expectedToolCalls run.toolCalls

/-- No labelled expectation of a tool comes after an unlabelled expectation of the tool. -/
def LabelledFirst (expected : List ExpectedToolCall) : Prop :=
  expected.Pairwise fun e later => later.name = e.name → later.arguments.isSome = true →
    e.arguments.isSome = true

/-- In a perfect trajectory with the labelled expectations first, the paired call of a labelled
expectation is the call in its position. -/
theorem pairedCall_of_labelledFirst {done rest : List (ExpectedToolCall × ToolCall)}
    {z : ExpectedToolCall × ToolCall} (hlabel : z.1.arguments.isSome = true)
    (hnames : ∀ y ∈ done ++ z :: rest, y.2.name = y.1.name)
    (hfirst : LabelledFirst ((done ++ z :: rest).map Prod.fst)) :
    pairedCall ((done ++ z :: rest).map Prod.snd)
      ((done.map Prod.fst).filter fun e => e.arguments.isSome) z.1 = some z.2 := by
  -- The earlier expectations of the tool are labelled, and their calls are those of the tool.
  have hcount : ((done.map Prod.fst).filter fun e => e.arguments.isSome).countP
      (fun e => decide (e.name = z.1.name))
      = ((done.map Prod.snd).filter fun c => decide (c.name = z.1.name)).length := by
    rw [List.countP_filter, ← List.countP_eq_length_filter, List.countP_map, List.countP_map]
    apply List.countP_congr
    intro y hy
    have hname := hnames y (List.mem_append_left _ hy)
    rw [LabelledFirst, List.map_append, List.pairwise_append] at hfirst
    have hlabelled := hfirst.2.2 y.1 (List.mem_map_of_mem hy) z.1 (by simp)
    simp only [Function.comp_apply, hname, Bool.and_eq_true, decide_eq_true_eq]
    exact ⟨fun h => h.1, fun h => ⟨h, hlabelled h.symm hlabel⟩⟩
  have hz : z.2.name = z.1.name := hnames z (by simp)
  unfold pairedCall
  rw [hcount, List.map_append, List.filter_append, List.map_cons,
    List.filter_cons_of_pos (by simpa using hz), List.getElem?_append_right (le_refl _),
    Nat.sub_self]
  rfl

/-- So every pairing compares equal. -/
theorem comparesEqual_of_labelledFirst (done rest : List (ExpectedToolCall × ToolCall))
    (hperfect : ∀ y ∈ done ++ rest, y.2.name = y.1.name ∧ ∀ arguments,
      y.1.arguments = some arguments →
        (canonical (.obj y.2.arguments)).pyEq (canonical (.obj arguments)) = true)
    (hfirst : LabelledFirst ((done ++ rest).map Prod.fst)) :
    ∀ p ∈ pairings ((done ++ rest).map Prod.snd)
        ((done.map Prod.fst).filter fun e => e.arguments.isSome)
        ((rest.map Prod.fst).filter fun e => e.arguments.isSome), comparesEqual p = true := by
  induction rest generalizing done with
  | nil => simp [pairings]
  | cons z rest ih =>
      have hnext := ih (done ++ [z])
      have hdone : ((done ++ [z]).map Prod.fst).filter (fun e => e.arguments.isSome)
          = ((done.map Prod.fst).filter fun e => e.arguments.isSome)
            ++ ([z].map Prod.fst).filter fun e => e.arguments.isSome := by
        rw [List.map_append, List.filter_append]
      rw [List.append_assoc, hdone] at hnext
      cases hlabel : z.1.arguments with
      | none =>
          -- An unlabelled expectation is not counted.
          have hskip : ([z].map Prod.fst).filter (fun e => e.arguments.isSome) = [] := by
            simp [hlabel]
          rw [hskip, List.append_nil] at hnext
          rw [List.map_cons, List.filter_cons_of_neg (by simp [hlabel])]
          exact hnext hperfect hfirst
      | some arguments =>
          have hkeep : ([z].map Prod.fst).filter (fun e => e.arguments.isSome) = [z.1] := by
            simp [hlabel]
          rw [hkeep] at hnext
          rw [List.map_cons, List.filter_cons_of_pos (by simp [hlabel]), pairings,
            List.forall_mem_cons]
          refine ⟨?_, hnext hperfect hfirst⟩
          rw [comparesEqual, pairedCall_of_labelledFirst (by simp [hlabel])
            (fun y hy => (hperfect y hy).1) hfirst, hlabel]
          exact (hperfect z (by simp)).2 arguments hlabel

section

variable {run : EvaluationRun} {reference : DatasetCase}

/-- The score of a perfect trajectory is one exactly when each labelled expectation compares equal
with the call it is paired with: the `k`-th labelled expectation of a tool with the `k`-th observed
call of the tool. It is one when no labelled expectation of a tool comes after an unlabelled
one. -/
theorem perfect_trajectory_iff (hdict : DictArguments run reference)
    (hperfect : PerfectTrajectory run reference) (hlabelled : labelledCalls reference ≠ [])
    (evaluator : ToolArguments) :
    ∃ score : ℚ, evaluator.evaluate run reference = evaluator.scored .deterministic score ∧
      (score = 1 ↔ ∀ p ∈ pairings run.toolCalls [] (labelledCalls reference),
        comparesEqual p = true) ∧
      (LabelledFirst reference.expectedToolCalls → score = 1) := by
  have hlength : (pairings run.toolCalls [] (labelledCalls reference)).length
      = (labelledCalls reference).length := length_pairings _ _ _
  have hpos : ((labelledCalls reference).length : ℚ) ≠ 0 := by
    exact_mod_cast (List.length_pos_iff.mpr hlabelled).ne'
  have hone : (ToolArguments.matched run.toolCalls (labelledCalls reference) : ℚ)
        / (labelledCalls reference).length = 1 ↔
      ∀ p ∈ pairings run.toolCalls [] (labelledCalls reference), comparesEqual p = true := by
    rw [div_eq_one_iff_eq hpos, Nat.cast_inj, matched_eq, ← hlength, List.countP_eq_length]
  refine ⟨_, evaluator.evaluate_eq run hlabelled, hone, fun hfirst => hone.mpr ?_⟩
  -- Line the expectations up with their calls.
  have hexpected : (reference.expectedToolCalls.zip run.toolCalls).map Prod.fst
      = reference.expectedToolCalls := List.map_fst_zip hperfect.length_eq.le
  have hobserved : (reference.expectedToolCalls.zip run.toolCalls).map Prod.snd
      = run.toolCalls := List.map_snd_zip hperfect.length_eq.ge
  have hall := comparesEqual_of_labelledFirst []
    (reference.expectedToolCalls.zip run.toolCalls) ?_ (by rwa [List.nil_append, hexpected])
  · rw [List.nil_append, hexpected, hobserved] at hall
    exact hall
  · rintro ⟨e, c⟩ hmem
    rw [List.nil_append] at hmem
    obtain ⟨hname, hsame⟩ := (List.forall₂_iff_zip.mp hperfect).2 hmem
    obtain ⟨he, hc⟩ := List.of_mem_zip hmem
    refine ⟨hname, fun arguments harguments => ?_⟩
    exact pyEq_of_same (hdict.observed c hc) (hdict.expected e he arguments harguments)
      (hsame arguments harguments)

end

/-- Two calls of `get`, of which the second is labelled, observed exactly as expected. -/
def lateLabelCase : DatasetCase :=
  agentCase [⟨getTool, none⟩, ⟨getTool, some [("id", .int 1)]⟩]

/-- The calls that `lateLabelCase` expects, the first with arguments of its own. -/
def lateLabelRun : EvaluationRun :=
  agentRun [agentCall getTool [], agentCall getTool [("id", .int 1)]]

theorem lateLabel_perfect : PerfectTrajectory lateLabelRun lateLabelCase := by
  refine List.Forall₂.cons ⟨rfl, ?_⟩ (List.Forall₂.cons ⟨rfl, ?_⟩ List.Forall₂.nil)
  · rintro _ h
    exact nomatch h
  · rintro _ h
    cases h
    decide

theorem lateLabel_dict : DictArguments lateLabelRun lateLabelCase where
  observed := by simp [lateLabelRun, agentRun, agentCall, Json.WellFormed, Json.FieldsWellFormed]
  expected := by
    simp [lateLabelCase, agentCase, Json.WellFormed, Json.FieldsWellFormed]

/-- A perfect trajectory that scores zero: the labelled expectation is compared with the first
call of its tool. -/
theorem perfect_trajectory_zero :
    DictArguments lateLabelRun lateLabelCase ∧ PerfectTrajectory lateLabelRun lateLabelCase ∧
      labelledCalls lateLabelCase ≠ [] ∧
      ∃ s, ToolArguments.default.evaluate lateLabelRun lateLabelCase = .ok s ∧ s.score = 0 := by
  refine ⟨lateLabel_dict, lateLabel_perfect, by simp [labelledCalls, lateLabelCase, agentCase], ?_⟩
  rw [ToolArguments.default.evaluate_eq lateLabelRun
    (by simp [labelledCalls, lateLabelCase, agentCase])]
  have hmatched :
      ToolArguments.matched lateLabelRun.toolCalls (labelledCalls lateLabelCase) = 0 := by
    decide
  rw [hmatched, Nat.cast_zero, zero_div, Thresholded.scored, EvaluatorScore.make]
  exact ⟨_, rfl, rfl⟩

/-- The same calls of `get`, of which the first is labelled. -/
def earlyLabelCase : DatasetCase :=
  agentCase [⟨getTool, some [("id", .int 1)]⟩, ⟨getTool, none⟩]

/-- The calls that `earlyLabelCase` expects. -/
def earlyLabelRun : EvaluationRun :=
  agentRun [agentCall getTool [("id", .int 1)], agentCall getTool []]

theorem earlyLabel_perfect : PerfectTrajectory earlyLabelRun earlyLabelCase := by
  refine List.Forall₂.cons ⟨rfl, ?_⟩ (List.Forall₂.cons ⟨rfl, ?_⟩ List.Forall₂.nil)
  · rintro _ h
    cases h
    decide
  · rintro _ h
    exact nomatch h

theorem earlyLabel_dict : DictArguments earlyLabelRun earlyLabelCase where
  observed := by simp [earlyLabelRun, agentRun, agentCall, Json.WellFormed, Json.FieldsWellFormed]
  expected := by
    simp [earlyLabelCase, agentCase, Json.WellFormed, Json.FieldsWellFormed]

/-- The trajectory with the late label, counted against the first call, and the trajectory with the
early one, which scores one. -/
theorem perfect_trajectory_iff_labels :
    (∃ score : ℚ, ToolArguments.default.evaluate lateLabelRun lateLabelCase
        = ToolArguments.default.scored .deterministic score ∧
      (score = 1 ↔ ∀ p ∈ pairings lateLabelRun.toolCalls [] (labelledCalls lateLabelCase),
        comparesEqual p = true)) ∧
      ToolArguments.default.evaluate earlyLabelRun earlyLabelCase
        = ToolArguments.default.scored .deterministic 1 := by
  constructor
  · obtain ⟨score, heval, hone, -⟩ := perfect_trajectory_iff lateLabel_dict lateLabel_perfect
      (by simp [labelledCalls, lateLabelCase, agentCase]) ToolArguments.default
    exact ⟨score, heval, hone⟩
  · obtain ⟨score, heval, -, hfirst⟩ := perfect_trajectory_iff earlyLabel_dict earlyLabel_perfect
      (by simp [labelledCalls, earlyLabelCase, agentCase]) ToolArguments.default
    have hscore : score = 1 := hfirst (by simp [LabelledFirst, earlyLabelCase, agentCase])
    rw [heval, hscore]

end EvalOps
