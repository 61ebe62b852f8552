import EvalOps.RagEvaluators
import Mathlib.Algebra.Order.Field.Basic
import Mathlib.Data.Finset.Union

/-!
# `EvalOps.Proofs.Rag`: retrieval scores depend on sets

`RagLaws` states the laws of the three evaluators of retrieved context, and `ragLaws` proves them
for every run and case. The scores are shares of finite sets: of the relevant identifiers, of the
retrieved identifiers, and of the words of the answer.

`contentTokens_intercalate` is the step for the joined contents. The separator is a blank, which
is no word character, so no word crosses from one content to the next.
-/

set_option autoImplicit false

namespace EvalOps

/-! ### Identifiers without repetition -/

section

variable {α : Type} [DecidableEq α]

/-- The loop of `_unique_ordered` keeps `seen` and `out` at the same elements. -/
theorem uniqueTurn_foldl (ids : List α) (state : Finset α × List α)
    (hseen : state.2.toFinset = state.1) (hnodup : state.2.Nodup) :
    (ids.foldl uniqueTurn state).2.Nodup ∧
      ∀ x, x ∈ (ids.foldl uniqueTurn state).2 ↔ x ∈ state.2 ∨ x ∈ ids := by
  induction ids generalizing state with
  | nil => exact ⟨hnodup, by simp⟩
  | cons id ids ih =>
      rw [List.foldl_cons, uniqueTurn]
      split
      · -- A new identifier joins both.
        rename_i hnew
        have hnotMem : id ∉ state.2 := by
          rwa [← List.mem_toFinset, hseen]
        obtain ⟨hrest, hmem⟩ := ih (insert id state.1, state.2 ++ [id])
          (by
            ext x
            simp [← hseen])
          (by
            rw [List.nodup_append]
            refine ⟨hnodup, by simp, ?_⟩
            rintro x hx y hy rfl
            exact hnotMem (List.mem_singleton.mp hy ▸ hx))
        refine ⟨hrest, fun x => ?_⟩
        rw [hmem]
        simp [or_assoc]
      · rename_i hold
        have hmem' : id ∈ state.2 := by
          rw [← List.mem_toFinset, hseen]
          exact not_not.mp hold
        obtain ⟨hrest, hmem⟩ := ih state hseen hnodup
        refine ⟨hrest, fun x => ?_⟩
        rw [hmem, List.mem_cons]
        constructor
        · rintro (hx | hx)
          · exact .inl hx
          · exact .inr (.inr hx)
        · rintro (hx | rfl | hx)
          · exact .inl hx
          · exact .inl hmem'
          · exact .inr hx

theorem nodup_uniqueOrdered (ids : List α) : (uniqueOrdered ids).Nodup :=
  (uniqueTurn_foldl ids (∅, []) rfl List.nodup_nil).1

theorem mem_uniqueOrdered {ids : List α} {x : α} : x ∈ uniqueOrdered ids ↔ x ∈ ids := by
  rw [uniqueOrdered, (uniqueTurn_foldl ids (∅, []) rfl List.nodup_nil).2 x]
  simp

theorem toFinset_uniqueOrdered (ids : List α) : (uniqueOrdered ids).toFinset = ids.toFinset := by
  ext x
  rw [List.mem_toFinset, List.mem_toFinset, mem_uniqueOrdered]

theorem uniqueOrdered_eq_nil_iff {ids : List α} : uniqueOrdered ids = [] ↔ ids = [] := by
  rw [List.eq_nil_iff_forall_not_mem, List.eq_nil_iff_forall_not_mem]
  simp only [mem_uniqueOrdered]

end

/-! ### Words -/

/-- The words of two texts that a separator keeps apart. -/
theorem findWords_append_cons {a b : List Char} {c : Char} (hc : isWordChar c = false) :
    findWords (String.ofList (a ++ c :: b))
      = findWords (String.ofList a) ++ findWords (String.ofList b) := by
  unfold findWords
  simp only [String.toList_ofList]
  rw [List.splitOnP_append_cons a b (by simp [hc]), List.filter_append, List.map_append]

/-- The words of texts that are joined by blanks. -/
theorem findWords_lower_intercalate (texts : List String) :
    findWords (PyText.lower (" ".intercalate texts))
      = texts.flatMap fun text => findWords (PyText.lower text) := by
  have hlower : ∀ s t : String, PyText.lower (s ++ " " ++ t)
      = String.ofList (s.toList.flatMap PyText.lowerChar ++
          ' ' :: t.toList.flatMap PyText.lowerChar) := by
    intro s t
    simp [PyText.lower, PyText.lowerChar]
  induction texts with
  | nil => rfl
  | cons text texts ih =>
      cases texts with
      | nil => simp
      | cons next texts =>
          rw [String.intercalate_cons_cons, hlower, findWords_append_cons (by decide),
            List.flatMap_cons, ← ih]
          rfl

/-- The content words of joined texts are those of the texts. -/
theorem contentTokens_intercalate (texts : List String) :
    contentTokens (" ".intercalate texts) = texts.toFinset.biUnion contentTokens := by
  ext token
  unfold contentTokens
  rw [findWords_lower_intercalate]
  simp only [List.mem_toFinset, List.mem_filter, List.mem_flatMap, Finset.mem_biUnion]
  constructor
  · rintro ⟨⟨text, htext, hword⟩, hcontent⟩
    exact ⟨text, htext, hword, hcontent⟩
  · rintro ⟨text, htext, hword, hcontent⟩
    exact ⟨⟨text, htext, hword⟩, hcontent⟩

/-! ### Shares -/

section

variable {α : Type} [DecidableEq α]

/-- The share of a finite set that lies in another, `0` of the empty set. -/
def share (part whole : Finset α) : ℚ := (whole ∩ part).card / whole.card

theorem share_nonneg (part whole : Finset α) : 0 ≤ share part whole :=
  div_nonneg (Nat.cast_nonneg _) (Nat.cast_nonneg _)

theorem share_le_one (part whole : Finset α) : share part whole ≤ 1 :=
  div_le_one_of_le₀ (by exact_mod_cast Finset.card_le_card Finset.inter_subset_left)
    (Nat.cast_nonneg _)

/-- A larger part has a larger share. -/
theorem share_mono {part part' : Finset α} (h : part ⊆ part') (whole : Finset α) :
    share part whole ≤ share part' whole := by
  apply div_le_div_of_nonneg_right _ (Nat.cast_nonneg _)
  exact_mod_cast Finset.card_le_card (Finset.inter_subset_inter_left h)

/-- The share is one when all of the set, which is not empty, lies in the part. -/
theorem share_eq_one_iff {part whole : Finset α} :
    share part whole = 1 ↔ whole.Nonempty ∧ whole ⊆ part := by
  rcases whole.eq_empty_or_nonempty with rfl | hne
  · simp [share]
  · have hpos : (whole.card : ℚ) ≠ 0 := by
      exact_mod_cast (Finset.card_pos.mpr hne).ne'
    rw [share, div_eq_one_iff_eq hpos, Nat.cast_inj, and_iff_right hne]
    constructor
    · intro hcard
      exact Finset.inter_eq_left.mp
        (Finset.eq_of_subset_of_card_le Finset.inter_subset_left hcard.ge)
    · intro hsubset
      rw [Finset.inter_eq_left.mpr hsubset]

end

/-! ### The scores -/

/-- The relevant identifiers of a case. -/
def relevantSet (reference : DatasetCase) : Finset NonBlank :=
  reference.expectedRetrievalIds.toFinset

/-- The identifiers of retrieved items. -/
def retrievedSet (items : List RetrievedItem) : Finset NonBlank :=
  (items.map RetrievedItem.docId).toFinset

/-- The content words of retrieved items, item by item. -/
def contextTokens (items : List RetrievedItem) : Finset String :=
  items.toFinset.biUnion fun item => contentTokens item.content

/-- The share of the content words of an answer that the context has, `1` of an answer without
any. -/
def groundedness (answer context : Finset String) : ℚ :=
  if answer = ∅ then 1 else share context answer

theorem relevantIds_eq (reference : DatasetCase) (name : String) :
    relevantIds reference name
      = if reference.expectedRetrievalIds = [] then
          .error (.config ("evaluator " ++ PyText.repr name ++
            " requires expected_retrieval_ids, but case " ++ PyText.repr reference.id.text ++
            " has none"))
        else .ok (uniqueOrdered reference.expectedRetrievalIds) := by
  unfold relevantIds
  simp only [List.isEmpty_iff, uniqueOrdered_eq_nil_iff]
  rfl

/-- `RetrievalRecall.evaluate`: the share of the relevant identifiers that were retrieved. -/
theorem RetrievalRecall.evaluate_eq (evaluator : RetrievalRecall) (run : EvaluationRun)
    (reference : DatasetCase) :
    evaluator.evaluate run reference
      = (do
        let _ ← relevantIds reference evaluator.name
        evaluator.scored .statistical
          (share (retrievedSet run.retrieval) (relevantSet reference))) := by
  unfold RetrievalRecall.evaluate
  rw [relevantIds_eq]
  split
  · rfl
  · dsimp only
    rw [ExceptRules.ok_bind, ExceptRules.ok_bind, retrievedIds, toFinset_uniqueOrdered,
      toFinset_uniqueOrdered]
    rfl

/-- `ContextPrecision.evaluate`: the share of the retrieved identifiers that are relevant. -/
theorem ContextPrecision.evaluate_eq (evaluator : ContextPrecision) (run : EvaluationRun)
    (reference : DatasetCase) :
    evaluator.evaluate run reference
      = (do
        let _ ← relevantIds reference evaluator.name
        evaluator.scored .statistical
          (share (relevantSet reference) (retrievedSet run.retrieval))) := by
  have hcard : (retrievedIds run).length = (retrievedSet run.retrieval).card := by
    rw [retrievedSet, ← toFinset_uniqueOrdered,
      List.toFinset_card_of_nodup (nodup_uniqueOrdered _)]
    rfl
  have hcount : (retrievedIds run).countP (fun rid => decide (rid ∈ relevantSet reference))
      = (retrievedSet run.retrieval ∩ relevantSet reference).card := by
    have hnodup : (retrievedIds run).Nodup := nodup_uniqueOrdered _
    rw [List.countP_eq_length_filter, ← List.toFinset_card_of_nodup (hnodup.filter _)]
    congr 1
    ext id
    simp [retrievedIds, retrievedSet, mem_uniqueOrdered]
  unfold ContextPrecision.evaluate
  rw [relevantIds_eq]
  split
  · rfl
  · dsimp only
    rw [ExceptRules.ok_bind, ExceptRules.ok_bind, toFinset_uniqueOrdered]
    change evaluator.scored .statistical (if (retrievedIds run).isEmpty then 0 else
      ((retrievedIds run).countP fun rid => decide (rid ∈ relevantSet reference) : ℚ)
        / (retrievedIds run).length) = _
    rw [hcount, hcard]
    split
    · -- Nothing retrieved: the share of the empty set is zero too.
      rename_i hempty
      have hzero : (retrievedSet run.retrieval).card = 0 := by
        rw [← hcard, List.isEmpty_iff.mp hempty, List.length_nil]
      rw [share, hzero, Nat.cast_zero, div_zero]
    · rfl

/-- The content words of the joined contents are those of the items. -/
theorem contentTokens_join (items : List RetrievedItem) :
    contentTokens (" ".intercalate (items.map RetrievedItem.content)) = contextTokens items := by
  rw [contentTokens_intercalate]
  ext token
  simp [contextTokens]

/-- `GroundednessLexical.evaluate`: the share of the words of the answer that the items have. -/
theorem GroundednessLexical.evaluate_eq (evaluator : GroundednessLexical) (run : EvaluationRun)
    (reference : DatasetCase) :
    evaluator.evaluate run reference
      = evaluator.scored .deterministic
          (groundedness (contentTokens run.output) (contextTokens run.retrieval)) := by
  unfold GroundednessLexical.evaluate groundedness
  dsimp only
  rw [contentTokens_join]
  split
  · -- An answer without content words passes at every minimum.
    unfold Thresholded.scored
    rw [decide_eq_true evaluator.minScore_le_one]
  · rfl

/-! ### The laws -/

/-- The run with other retrieved items. -/
def EvaluationRun.withRetrieval (run : EvaluationRun) (items : List RetrievedItem) :
    EvaluationRun :=
  { run with retrieval := items }

/-- The case with other relevant identifiers. -/
def DatasetCase.withRelevant (reference : DatasetCase) (ids : List NonBlank) : DatasetCase :=
  { reference with expectedRetrievalIds := ids }

/-- The items are the same documents with the same contents, in any order and number. -/
def SameRetrieval (items items' : List RetrievedItem) : Prop :=
  ∀ docId content, (∃ x ∈ items, x.docId = docId ∧ x.content = content) ↔
    ∃ x ∈ items', x.docId = docId ∧ x.content = content

/-- The scores of retrieved context are functions of sets. -/
structure RagLaws (run : EvaluationRun) (reference : DatasetCase) : Prop where
  same_sets : ∀ items ids, SameRetrieval items run.retrieval →
    (∀ id, id ∈ ids ↔ id ∈ reference.expectedRetrievalIds) →
    (∀ evaluator : RetrievalRecall,
      evaluator.evaluate (run.withRetrieval items) (reference.withRelevant ids)
        = evaluator.evaluate run reference) ∧
    (∀ evaluator : ContextPrecision,
      evaluator.evaluate (run.withRetrieval items) (reference.withRelevant ids)
        = evaluator.evaluate run reference) ∧
    ∀ evaluator : GroundednessLexical,
      evaluator.evaluate (run.withRetrieval items) (reference.withRelevant ids)
        = evaluator.evaluate run reference
  recall_score : reference.expectedRetrievalIds ≠ [] → ∃ s : ℚ,
    (∀ evaluator : RetrievalRecall,
      evaluator.evaluate run reference = evaluator.scored .statistical s) ∧
    0 ≤ s ∧ s ≤ 1 ∧
    (s = 1 ↔ ∀ id ∈ reference.expectedRetrievalIds, ∃ x ∈ run.retrieval, x.docId = id) ∧
    ∀ items, run.retrieval ⊆ items → ∃ s' : ℚ, s ≤ s' ∧ ∀ evaluator : RetrievalRecall,
      evaluator.evaluate (run.withRetrieval items) reference = evaluator.scored .statistical s'
  precision_score : reference.expectedRetrievalIds ≠ [] → ∃ s : ℚ,
    (∀ evaluator : ContextPrecision,
      evaluator.evaluate run reference = evaluator.scored .statistical s) ∧
    0 ≤ s ∧ s ≤ 1 ∧
    (s = 1 ↔ run.retrieval ≠ [] ∧
      ∀ x ∈ run.retrieval, x.docId ∈ reference.expectedRetrievalIds)
  groundedness_score : ∃ s : ℚ,
    (∀ evaluator : GroundednessLexical,
      evaluator.evaluate run reference = evaluator.scored .deterministic s) ∧
    0 ≤ s ∧ s ≤ 1 ∧
    s = groundedness (contentTokens run.output) (contextTokens run.retrieval) ∧
    ∀ items, run.retrieval ⊆ items → ∃ s' : ℚ, s ≤ s' ∧ ∀ evaluator : GroundednessLexical,
      evaluator.evaluate (run.withRetrieval items) reference = evaluator.scored .deterministic s'
  joined_tokens :
    contentTokens (" ".intercalate (run.retrieval.map RetrievedItem.content))
      = contextTokens run.retrieval

/-- The documents of the same retrieval. -/
theorem retrievedSet_eq {items items' : List RetrievedItem} (h : SameRetrieval items items') :
    retrievedSet items = retrievedSet items' := by
  have hsubset : ∀ {xs ys : List RetrievedItem}, SameRetrieval xs ys →
      ∀ id, id ∈ retrievedSet xs → id ∈ retrievedSet ys := by
    intro xs ys hsame id hid
    obtain ⟨x, hx, rfl⟩ := List.mem_map.mp (List.mem_toFinset.mp hid)
    obtain ⟨y, hy, hdoc, _⟩ := (hsame x.docId x.content).mp ⟨x, hx, rfl, rfl⟩
    exact List.mem_toFinset.mpr (List.mem_map.mpr ⟨y, hy, hdoc⟩)
  exact Finset.Subset.antisymm (hsubset h) (hsubset fun d c => (h d c).symm)

/-- The words of the same retrieval. -/
theorem contextTokens_eq {items items' : List RetrievedItem} (h : SameRetrieval items items') :
    contextTokens items = contextTokens items' := by
  have hsubset : ∀ {xs ys : List RetrievedItem}, SameRetrieval xs ys →
      ∀ token, token ∈ contextTokens xs → token ∈ contextTokens ys := by
    intro xs ys hsame token htoken
    obtain ⟨x, hx, hx'⟩ := Finset.mem_biUnion.mp htoken
    obtain ⟨y, hy, _, hcontent⟩ :=
      (hsame x.docId x.content).mp ⟨x, List.mem_toFinset.mp hx, rfl, rfl⟩
    exact Finset.mem_biUnion.mpr ⟨y, List.mem_toFinset.mpr hy, hcontent ▸ hx'⟩
  exact Finset.Subset.antisymm (hsubset h) (hsubset fun d c => (h d c).symm)

/-- An answer is grounded in more words by more context. -/
theorem groundedness_mono (answer : Finset String) {context context' : Finset String}
    (h : context ⊆ context') : groundedness answer context ≤ groundedness answer context' := by
  unfold groundedness
  split
  · exact le_refl 1
  · exact share_mono h answer

theorem groundedness_mem_unit (answer context : Finset String) :
    0 ≤ groundedness answer context ∧ groundedness answer context ≤ 1 := by
  unfold groundedness
  split
  · exact ⟨zero_le_one, le_refl 1⟩
  · exact ⟨share_nonneg _ _, share_le_one _ _⟩

section SameLabels

variable {reference : DatasetCase} {ids : List NonBlank}

theorem relevantSet_withRelevant (h : ∀ id, id ∈ ids ↔ id ∈ reference.expectedRetrievalIds) :
    relevantSet (reference.withRelevant ids) = relevantSet reference := by
  ext id
  simp [relevantSet, DatasetCase.withRelevant, h]

/-- The check for labels passes, or raises the same, when the labels are the same set. -/
theorem relevantIds_withRelevant_bind {β : Type}
    (h : ∀ id, id ∈ ids ↔ id ∈ reference.expectedRetrievalIds) (name : String) (next : Py β) :
    (relevantIds (reference.withRelevant ids) name >>= fun _ => next)
      = relevantIds reference name >>= fun _ => next := by
  have hempty : (reference.withRelevant ids).expectedRetrievalIds = [] ↔
      reference.expectedRetrievalIds = [] := by
    show ids = [] ↔ _
    rw [List.eq_nil_iff_forall_not_mem, List.eq_nil_iff_forall_not_mem]
    simp only [h]
  rw [relevantIds_eq, relevantIds_eq]
  by_cases hnil : reference.expectedRetrievalIds = []
  · rw [if_pos hnil, if_pos (hempty.mpr hnil)]
    rfl
  · rw [if_neg hnil, if_neg (hempty.not.mpr hnil)]
    rfl

end SameLabels

/-- With labels, recall is the share of the labelled documents among the retrieved ones. -/
theorem RetrievalRecall.evaluate_withRetrieval (evaluator : RetrievalRecall) (run : EvaluationRun)
    {reference : DatasetCase} (h : reference.expectedRetrievalIds ≠ [])
    (items : List RetrievedItem) :
    evaluator.evaluate (run.withRetrieval items) reference = evaluator.scored .statistical
      (share (retrievedSet items) (relevantSet reference)) := by
  rw [evaluator.evaluate_eq, relevantIds_eq, if_neg h]
  rfl

/-- With labels, precision is the share of the retrieved documents among the labelled ones. -/
theorem ContextPrecision.evaluate_of_labels (evaluator : ContextPrecision) (run : EvaluationRun)
    {reference : DatasetCase} (h : reference.expectedRetrievalIds ≠ []) :
    evaluator.evaluate run reference = evaluator.scored .statistical
      (share (relevantSet reference) (retrievedSet run.retrieval)) := by
  rw [evaluator.evaluate_eq, relevantIds_eq, if_neg h]
  rfl

/-- The laws hold for every run and case. -/
theorem ragLaws (run : EvaluationRun) (reference : DatasetCase) : RagLaws run reference := by
  constructor
  case same_sets =>
    intro items ids hitems hids
    have hretrieved : retrievedSet (run.withRetrieval items).retrieval
        = retrievedSet run.retrieval := retrievedSet_eq hitems
    have htokens : contextTokens (run.withRetrieval items).retrieval
        = contextTokens run.retrieval := contextTokens_eq hitems
    refine ⟨fun evaluator => ?_, fun evaluator => ?_, fun evaluator => ?_⟩
    · rw [evaluator.evaluate_eq, evaluator.evaluate_eq, relevantSet_withRelevant hids, hretrieved]
      exact relevantIds_withRelevant_bind hids _ _
    · rw [evaluator.evaluate_eq, evaluator.evaluate_eq, relevantSet_withRelevant hids, hretrieved]
      exact relevantIds_withRelevant_bind hids _ _
    · rw [evaluator.evaluate_eq, evaluator.evaluate_eq, htokens]
      rfl
  case recall_score =>
    intro hne
    refine ⟨_, fun evaluator => evaluator.evaluate_withRetrieval run hne run.retrieval,
      share_nonneg _ _, share_le_one _ _, ?_, ?_⟩
    · rw [share_eq_one_iff, and_iff_right (by simpa [relevantSet] using hne)]
      simp [relevantSet, retrievedSet, Finset.subset_iff]
    · intro items hitems
      refine ⟨_, share_mono ?_ _, fun evaluator => evaluator.evaluate_withRetrieval run hne items⟩
      exact fun id hid => List.mem_toFinset.mpr
        (List.map_subset _ hitems (List.mem_toFinset.mp hid))
  case precision_score =>
    intro hne
    refine ⟨_, fun evaluator => evaluator.evaluate_of_labels run hne, share_nonneg _ _,
      share_le_one _ _, ?_⟩
    rw [share_eq_one_iff]
    simp [relevantSet, retrievedSet, Finset.subset_iff]
  case groundedness_score =>
    have hunit := groundedness_mem_unit (contentTokens run.output) (contextTokens run.retrieval)
    refine ⟨_, fun evaluator => evaluator.evaluate_eq run reference, hunit.1, hunit.2, rfl, ?_⟩
    intro items hitems
    refine ⟨_, groundedness_mono _ ?_, fun evaluator => evaluator.evaluate_eq _ reference⟩
    exact Finset.biUnion_subset_biUnion_of_subset_left _
      fun x hx => List.mem_toFinset.mpr (hitems (List.mem_toFinset.mp hx))
  case joined_tokens => exact contentTokens_join run.retrieval

end EvalOps
