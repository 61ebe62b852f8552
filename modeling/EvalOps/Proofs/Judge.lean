import EvalOps.Calibration
import EvalOps.Proofs.Adapters

/-!
# `EvalOps.Proofs.Judge`: how a judgement ends

A reply is answered with a verdict or with a `JudgeError`, unless reading it hits a limit of the
interpreter: `parseJudgeVerdict_sound_iff`. The limits are the number of digits of an integer
literal, the depth of nested containers, and the range of a double for an integer score.

On every other reply an exception goes through `parse_judge_verdict`, and `calibrate_judge` does
not catch it either: `parseJudgeVerdict_ends`.
-/

set_option autoImplicit false

namespace EvalOps

/-! ### One reply -/

/-- A verdict with a score in the unit interval, or a `JudgeError`. -/
def SoundJudgement (result : Py JudgeVerdict) : Prop :=
  (∃ verdict, result = .ok verdict ∧ 0 ≤ verdict.score ∧ verdict.score ≤ 1) ∨
    ∃ exc, result = .error exc ∧ exc.kind = .judgeError

/-- An exception that `calibrate_judge` does not catch. -/
def Escapes (result : Py JudgeVerdict) : Prop :=
  ∃ exc, result = .error exc ∧ isJudgeFailure exc = false

/-- Decoding a text hits neither the digit limit nor the recursion limit. -/
def ReadsWithinLimits (limits : JsonReader.Limits) (body : List Char) : Prop :=
  JsonReader.loads decodedHooks limits body ≠ .error .tooManyDigits ∧
    JsonReader.loads decodedHooks limits body ≠ .error .tooDeep

/-- An integer score beside a verdict is in the range of a double. -/
def ScoreFitsFloat (obj : List (String × Decoded)) : Prop :=
  ∀ n : ℤ, (parseVerdict (obj.lookup "verdict")).isSome →
    obj.lookup "score" = some (.int n) → |(n : ℚ)| < PyFloat.overflowBound

/-- A reply that `parse_judge_verdict` can handle. -/
def Harmless (limits : JsonReader.Limits) (text : String) : Prop :=
  ∀ body, jsonText text = some body →
    ReadsWithinLimits limits body ∧
      ∀ obj, JsonReader.loads decodedHooks limits body = .ok (.obj obj) → ScoreFitsFloat obj

/-- The limits of an interpreter with its usual settings. -/
def defaultLimits : JsonReader.Limits := ⟨4300, 1000, by decide⟩

theorem soundJudgement_judge (message : String) : SoundJudgement (.error (.judge message)) :=
  Or.inr ⟨_, rfl, rfl⟩

/-- An exception that escapes is no `JudgeError`. -/
theorem Escapes.not_sound {result : Py JudgeVerdict} (h : Escapes result) :
    ¬ SoundJudgement result := by
  obtain ⟨exc, rfl, hfailure⟩ := h
  rintro (⟨_, hok, _⟩ | ⟨_, herror, hkind⟩)
  · exact nomatch hok
  · cases herror
    simp [isJudgeFailure, hkind] at hfailure

theorem floatOfInt_of_lt {n : ℤ} (h : |(n : ℚ)| < PyFloat.overflowBound) :
    floatOfInt n = .ok (n : ℚ) := by
  rw [floatOfInt, PyFloat.ofRat_of_lt h]
  rfl

theorem floatOfInt_of_le {n : ℤ} (h : PyFloat.overflowBound ≤ |(n : ℚ)|) :
    floatOfInt n = .error ⟨.other "OverflowError", "int too large to convert to float"⟩ := by
  rw [floatOfInt, PyFloat.ofRat_of_le h]
  rfl

/-- How the check of a score ends. -/
def SoundScore (result : Py ℚ) : Prop :=
  (∃ score, result = .ok score ∧ 0 ≤ score ∧ score ≤ 1) ∨
    ∃ message, result = .error (.judge message)

theorem requireUnitScore_sound (evaluator : String) (raw : Decoded) (value : PyFloat) :
    SoundScore (requireUnitScore evaluator raw value) := by
  unfold requireUnitScore
  dsimp only
  split
  · rename_i x
    split_ifs with hunit
    · exact Or.inl ⟨x, rfl, hunit.1, hunit.2⟩
    · exact Or.inr ⟨_, rfl⟩
  · exact Or.inr ⟨_, rfl⟩

/-- A score is accepted or rejected, unless it is an integer that does not fit a float. -/
theorem parseScore_sound (evaluator : String) (passed : Bool) {rawScore : Option Decoded}
    (h : ∀ n : ℤ, rawScore = some (.int n) → |(n : ℚ)| < PyFloat.overflowBound) :
    SoundScore (parseScore evaluator passed rawScore) := by
  have hderived : SoundScore (.ok (if passed then 1 else 0)) := by
    refine Or.inl ⟨_, rfl, ?_, ?_⟩ <;> cases passed <;> simp
  cases rawScore with
  | none => exact hderived
  | some raw =>
      cases raw with
      | null => exact hderived
      | int n =>
          have hfloat := floatOfInt_of_lt (h n rfl)
          rw [parseScore, hfloat, ExceptRules.ok_bind]
          exact requireUnitScore_sound evaluator _ _
      | float x => exact requireUnitScore_sound evaluator _ x
      | bool b => exact Or.inr ⟨_, rfl⟩
      | str s => exact Or.inr ⟨_, rfl⟩
      | arr items => exact Or.inr ⟨_, rfl⟩
      | obj fields => exact Or.inr ⟨_, rfl⟩

/-- What is done with a decoded object. -/
theorem parseJudgeVerdict_of_obj {limits : JsonReader.Limits} {text evaluator : String}
    {obj : List (String × Decoded)} (h : extractJsonObject limits text = .ok (some obj)) :
    parseJudgeVerdict limits text evaluator =
      match parseVerdict (obj.lookup "verdict") with
      | none =>
          .error (.judge ("evaluator " ++ PyText.repr evaluator ++
            ": judge 'verdict' must be 'pass' or 'fail', got " ++ reprField (obj.lookup "verdict")))
      | some passed =>
          (parseScore evaluator passed (obj.lookup "score")).map fun score =>
            { passed, score, reasoning := parseReasoning (obj.lookup "reasoning") } := by
  unfold parseJudgeVerdict
  rw [h, ExceptRules.ok_bind]
  dsimp only
  cases parseVerdict (obj.lookup "verdict") with
  | none => rfl
  | some passed => cases parseScore evaluator passed (obj.lookup "score") <;> rfl

/-- What is done with a reply without an object. -/
theorem parseJudgeVerdict_of_none {limits : JsonReader.Limits} {text : String} (evaluator : String)
    (h : extractJsonObject limits text = .ok none) :
    parseJudgeVerdict limits text evaluator = .error (.judge ("evaluator " ++
      PyText.repr evaluator ++ ": judge reply is not a JSON object: " ++ snippet text)) := by
  unfold parseJudgeVerdict
  rw [h]
  rfl

/-- A reply whose object is missing, or is no object, is a `JudgeError`. -/
theorem parseJudgeVerdict_sound_of_none {limits : JsonReader.Limits} {text : String}
    (evaluator : String) (h : extractJsonObject limits text = .ok none) :
    SoundJudgement (parseJudgeVerdict limits text evaluator) := by
  rw [parseJudgeVerdict_of_none evaluator h]
  exact soundJudgement_judge _

/-- An object is answered soundly, unless an integer score beside a verdict does not fit a
float. -/
theorem parseJudgeVerdict_ends_of_obj {limits : JsonReader.Limits} {text evaluator : String}
    {obj : List (String × Decoded)} (h : extractJsonObject limits text = .ok (some obj)) :
    (ScoreFitsFloat obj ∧ SoundJudgement (parseJudgeVerdict limits text evaluator)) ∨
      (¬ ScoreFitsFloat obj ∧ Escapes (parseJudgeVerdict limits text evaluator)) := by
  rw [parseJudgeVerdict_of_obj h]
  cases hverdict : parseVerdict (obj.lookup "verdict") with
  | none =>
      refine Or.inl ⟨fun n hsome => ?_, soundJudgement_judge _⟩
      rw [hverdict] at hsome
      exact nomatch hsome
  | some passed =>
      dsimp only
      by_cases hfits : ScoreFitsFloat obj
      · refine Or.inl ⟨hfits, ?_⟩
        have hrange := fun n => hfits n (by rw [hverdict]; rfl)
        rcases parseScore_sound evaluator passed hrange with ⟨score, hscore, h0, h1⟩ |
          ⟨message, hscore⟩
        · rw [hscore]
          exact Or.inl ⟨_, rfl, h0, h1⟩
        · rw [hscore]
          exact soundJudgement_judge _
      · refine Or.inr ⟨hfits, ?_⟩
        simp only [ScoreFitsFloat, not_forall, not_lt] at hfits
        obtain ⟨n, _, hscore, hrange⟩ := hfits
        -- The conversion raises `OverflowError`, which nothing catches.
        rw [hscore, parseScore, floatOfInt_of_le hrange]
        exact ⟨_, rfl, by decide⟩

/-- How the object of a reply is found, by what `json.loads` does with the text in braces. -/
theorem extractJsonObject_eq (limits : JsonReader.Limits) {text : String} {body : List Char}
    (h : jsonText text = some body) :
    extractJsonObject limits text =
      match JsonReader.loads decodedHooks limits body with
      | .error .malformed => .ok none
      | .error e => .error (readException limits e)
      | .ok (.obj fields) => .ok (some fields)
      | .ok _ => .ok none := by
  unfold extractJsonObject jsonLoads
  rw [h]
  dsimp only
  cases JsonReader.loads decodedHooks limits body with
  | error e => cases e <;> rfl
  | ok v => cases v <;> rfl

/-- A text in braces is harmless by what `json.loads` does with it. -/
theorem harmless_iff {limits : JsonReader.Limits} {text : String} {body : List Char}
    (h : jsonText text = some body) :
    Harmless limits text ↔
      ReadsWithinLimits limits body ∧
        ∀ obj, JsonReader.loads decodedHooks limits body = .ok (.obj obj) →
          ScoreFitsFloat obj := by
  constructor
  · exact fun hall => hall body h
  · intro hbody body' hbody'
    cases h.symm.trans hbody'
    exact hbody

theorem readsWithinLimits_of_ok {limits : JsonReader.Limits} {body : List Char} {v : Decoded}
    (h : JsonReader.loads decodedHooks limits body = .ok v) : ReadsWithinLimits limits body := by
  constructor <;> rw [h] <;> exact nofun

/-- A reply with an object is harmless when its score is. -/
theorem harmless_obj_iff {limits : JsonReader.Limits} {text : String} {body : List Char}
    {fields : List (String × Decoded)} (h : jsonText text = some body)
    (hloads : JsonReader.loads decodedHooks limits body = .ok (.obj fields)) :
    Harmless limits text ↔ ScoreFitsFloat fields := by
  rw [harmless_iff h]
  constructor
  · exact fun hbody => hbody.2 fields hloads
  · intro hfits
    refine ⟨readsWithinLimits_of_ok hloads, fun obj hobj => ?_⟩
    cases hloads.symm.trans hobj
    exact hfits

/-- An exception that is no `JSONDecodeError` goes through `parse_judge_verdict`. -/
theorem parseJudgeVerdict_escapes {limits : JsonReader.Limits} {text : String} {exc : PyError}
    (evaluator : String) (h : extractJsonObject limits text = .error exc)
    (hfailure : isJudgeFailure exc = false) :
    Escapes (parseJudgeVerdict limits text evaluator) := by
  unfold parseJudgeVerdict
  rw [h]
  exact ⟨exc, rfl, hfailure⟩

/-- A harmless reply is answered soundly. On any other reply, an exception escapes. -/
theorem parseJudgeVerdict_ends (limits : JsonReader.Limits) (text evaluator : String) :
    (Harmless limits text ∧ SoundJudgement (parseJudgeVerdict limits text evaluator)) ∨
      (¬ Harmless limits text ∧ Escapes (parseJudgeVerdict limits text evaluator)) := by
  cases hbody : jsonText text with
  | none =>
      have hextract : extractJsonObject limits text = .ok none := by
        unfold extractJsonObject
        rw [hbody]
        rfl
      refine Or.inl ⟨fun body h => ?_, parseJudgeVerdict_sound_of_none evaluator hextract⟩
      rw [hbody] at h
      exact nomatch h
  | some body =>
      have hextract := extractJsonObject_eq limits hbody
      cases hloads : JsonReader.loads decodedHooks limits body with
      | error e =>
          rw [hloads] at hextract
          cases e with
          | malformed =>
              refine Or.inl ⟨(harmless_iff hbody).mpr ?_,
                parseJudgeVerdict_sound_of_none evaluator hextract⟩
              rw [ReadsWithinLimits, hloads]
              exact ⟨⟨nofun, nofun⟩, nofun⟩
          | tooManyDigits =>
              refine Or.inr ⟨fun h => (h body hbody).1.1 hloads, ?_⟩
              exact parseJudgeVerdict_escapes evaluator hextract rfl
          | tooDeep =>
              refine Or.inr ⟨fun h => (h body hbody).1.2 hloads, ?_⟩
              exact parseJudgeVerdict_escapes evaluator hextract rfl
      | ok v =>
          rw [hloads] at hextract
          cases v with
          | obj fields =>
              rw [harmless_obj_iff hbody hloads]
              exact parseJudgeVerdict_ends_of_obj hextract
          | _ =>
              refine Or.inl ⟨(harmless_iff hbody).mpr ⟨readsWithinLimits_of_ok hloads, ?_⟩,
                parseJudgeVerdict_sound_of_none evaluator hextract⟩
              rw [hloads]
              exact nofun

/-- A reply is answered with a verdict or a `JudgeError` exactly when it is harmless. -/
theorem parseJudgeVerdict_sound_iff (limits : JsonReader.Limits) (text evaluator : String) :
    SoundJudgement (parseJudgeVerdict limits text evaluator) ↔ Harmless limits text := by
  rcases parseJudgeVerdict_ends limits text evaluator with ⟨hharmless, hsound⟩ |
    ⟨hharmless, hescapes⟩
  · exact iff_of_true hsound hharmless
  · exact iff_of_false hescapes.not_sound hharmless

end EvalOps
