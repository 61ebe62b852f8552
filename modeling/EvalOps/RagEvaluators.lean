import EvalOps.Evaluators
import Mathlib.Data.Finset.Card
import Mathlib.Data.Finset.Lattice.Basic

/-!
# `EvalOps.RagEvaluators`: the evaluators of retrieved context

`rag_evaluators.py`. `RetrievalRecall` and `ContextPrecision` compare the retrieved documents with
the `expected_retrieval_ids` of the case. `GroundednessLexical` compares the words of the answer
with the words of the retrieved contents.

The minimum score of an evaluator is its `min_recall`, `min_precision` or `min_groundedness`.
-/

set_option autoImplicit false

namespace EvalOps

/-- `_STOPWORDS`. -/
def stopwords : List String :=
  ["a", "an", "the", "this", "that", "these", "those", "and", "or", "but", "if", "then", "else",
   "of", "to", "in", "on", "at", "by", "for", "with", "from", "as", "is", "are", "was", "were",
   "be", "been", "being", "it", "its", "he", "she", "they", "them", "his", "her", "their", "you",
   "your", "we", "our", "i", "me", "my", "do", "does", "did", "not", "no", "yes", "can", "will",
   "would", "should", "could", "may", "might", "must", "have", "has", "had", "there", "here",
   "what", "which", "who", "whom", "whose", "than"]

/-- One turn of the loop of `_unique_ordered`. The state is `(seen, out)`. -/
def uniqueTurn {α : Type} [DecidableEq α] (state : Finset α × List α) (value : α) :
    Finset α × List α :=
  if value ∉ state.1 then (insert value state.1, state.2 ++ [value]) else state

/-- `_unique_ordered`. -/
def uniqueOrdered {α : Type} [DecidableEq α] (ids : List α) : List α :=
  (ids.foldl uniqueTurn (∅, [])).2

/-- `_relevant_ids`. -/
def relevantIds (reference : DatasetCase) (evaluatorName : String) : Py (List NonBlank) :=
  let relevant := uniqueOrdered reference.expectedRetrievalIds
  if relevant.isEmpty then
    throw (.config ("evaluator " ++ PyText.repr evaluatorName ++
      " requires expected_retrieval_ids, but case " ++ PyText.repr reference.id.text ++
      " has none"))
  else pure relevant

/-- `_retrieved_ids`. -/
def retrievedIds (run : EvaluationRun) : List NonBlank :=
  uniqueOrdered (run.retrieval.map RetrievedItem.docId)

/-- A code point of `[a-z0-9]`. -/
def isWordChar (c : Char) : Bool :=
  let n := c.toNat
  (97 ≤ n && n ≤ 122) || (48 ≤ n && n ≤ 57)

/-- `_WORD_RE.findall(text)`: the maximal parts of `[a-z0-9]`. -/
def findWords (text : String) : List String :=
  ((text.toList.splitOnP fun c => !isWordChar c).filter fun word => !word.isEmpty).map
    String.ofList

/-- `_content_tokens`. -/
def contentTokens (text : String) : Finset String :=
  ((findWords (PyText.lower text)).filter fun t =>
    decide (1 < t.length) && !decide (t ∈ stopwords)).toFinset

/-- `RetrievalRecall`. -/
structure RetrievalRecall extends Thresholded

namespace RetrievalRecall

/-- `RetrievalRecall()`. -/
def default : RetrievalRecall where
  minScore := 1
  name := "retrieval_recall"
  minScore_nonneg := one_nonneg
  minScore_le_one := one_le_unit

/-- `RetrievalRecall.evaluate`. -/
def evaluate (evaluator : RetrievalRecall) (run : EvaluationRun) (reference : DatasetCase) :
    Py EvaluatorScore := do
  let relevant := (← relevantIds reference evaluator.name).toFinset
  let retrieved := (retrievedIds run).toFinset
  evaluator.scored .statistical ((relevant ∩ retrieved).card / relevant.card)

end RetrievalRecall

/-- `ContextPrecision`. -/
structure ContextPrecision extends Thresholded

namespace ContextPrecision

/-- `ContextPrecision()`. -/
def default : ContextPrecision where
  minScore := 1
  name := "context_precision"
  minScore_nonneg := one_nonneg
  minScore_le_one := one_le_unit

/-- `ContextPrecision.evaluate`. -/
def evaluate (evaluator : ContextPrecision) (run : EvaluationRun) (reference : DatasetCase) :
    Py EvaluatorScore := do
  let relevant := (← relevantIds reference evaluator.name).toFinset
  let retrieved := retrievedIds run
  let precision : ℚ :=
    if retrieved.isEmpty then 0
    else retrieved.countP (fun rid => decide (rid ∈ relevant)) / retrieved.length
  evaluator.scored .statistical precision

end ContextPrecision

/-- `GroundednessLexical`. -/
structure GroundednessLexical extends Thresholded

namespace GroundednessLexical

/-- The default minimum groundedness is a share. -/
theorem default_mem_unit : (0 : ℚ) ≤ 8 / 10 ∧ (8 / 10 : ℚ) ≤ 1 := by norm_num

/-- `GroundednessLexical()`. -/
def default : GroundednessLexical where
  minScore := 8 / 10
  name := "groundedness_lexical"
  minScore_nonneg := default_mem_unit.1
  minScore_le_one := default_mem_unit.2

/-- `GroundednessLexical.evaluate`. -/
def evaluate (evaluator : GroundednessLexical) (run : EvaluationRun) (_ : DatasetCase) :
    Py EvaluatorScore :=
  let answerTokens := contentTokens run.output
  if answerTokens = ∅ then
    EvaluatorScore.make evaluator.name .deterministic 1 (some true)
  else
    let contextTokens := contentTokens (" ".intercalate (run.retrieval.map RetrievedItem.content))
    evaluator.scored .deterministic ((answerTokens ∩ contextTokens).card / answerTokens.card)

end GroundednessLexical

end EvalOps
