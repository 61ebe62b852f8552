import EvalOps.Lib.JsonReading

/-!
# `EvalOps.Lib.JsonLimits`: reading JSON without limits

A text has no more digits and no more levels than it has characters, so limits that come from its
length stop no reader (`JsonReader.loads_textLimits`). `JsonReader.readAll` reads without limits:
what it returns is what a reader with some limits returns (`JsonReader.readAll_eq_some_iff`).
-/

set_option autoImplicit false

namespace JsonReader

variable {S V : Type}

/-- The limits that a text of a length cannot reach. -/
def textLimits (cs : List Char) : Limits := ⟨cs.length, cs.length + 1, Nat.succ_pos _⟩

/-- How a reader fails is bound by the length of the text, unless the text is malformed. -/
def FailsWithin {α : Type} (allowed : ReadError → ℕ → Prop) (reader : Reader α) : Prop :=
  ∀ cs e, reader cs = .error e → e = .malformed ∨ allowed e cs.length

theorem FailsWithin.map {α β : Type} {allowed : ReadError → ℕ → Prop} {reader : Reader α}
    (h : FailsWithin allowed reader) (f : α → β) :
    FailsWithin allowed fun cs => (reader cs).map fun r => (f r.1, r.2) := by
  intro cs e he
  cases hr : reader cs with
  | error e' =>
      simp only [hr] at he
      cases he
      exact h cs e hr
  | ok r =>
      simp only [hr] at he
      cases he

theorem consUnit_eq_error {unit : ℕ} {units : Except ReadError (List ℕ × List Char)}
    {e : ReadError} (h : consUnit unit units = .error e) : units = .error e := by
  cases units with
  | error e' =>
      cases h
      rfl
  | ok r => cases h

/-- A string is malformed or it is read. -/
theorem readUnits_error (state : StringState) {cs : List Char} {e : ReadError}
    (h : readUnits state cs = .error e) : e = .malformed := by
  induction cs generalizing state with
  | nil =>
      cases state <;>
      · cases h
        rfl
  | cons c cs ih =>
      have hcons : ∀ state' unit, consUnit unit (readUnits state' cs) = .error e →
          e = .malformed := fun state' unit h => ih state' (consUnit_eq_error h)
      cases state with
      | plain =>
          rw [readUnits] at h
          split_ifs at h
          · exact ih _ h
          · cases h
            rfl
          · exact hcons _ _ h
      | escape =>
          rw [readUnits] at h
          split_ifs at h
          · exact ih _ h
          · cases he : unescape c with
            | none =>
                rw [he] at h
                cases h
                rfl
            | some d =>
                rw [he] at h
                exact hcons _ _ h
      | hex left value =>
          rw [readUnits] at h
          cases hd : hexValue c with
          | none =>
              rw [hd] at h
              cases h
              rfl
          | some digit =>
              rw [hd] at h
              cases left with
              | zero => exact hcons _ _ h
              | succ left => exact ih _ h

variable [StringUnits S]

theorem readString_failsWithin (allowed : ReadError → ℕ → Prop) :
    FailsWithin allowed (readString : Reader S) := by
  have hunits : FailsWithin allowed (readUnits .plain) :=
    fun cs e he => Or.inl (readUnits_error .plain he)
  exact hunits.map StringUnits.ofUnits

theorem readKey_error {cs : List Char} {e : ReadError}
    (h : (readKey cs : Except ReadError (S × List Char)) = .error e) : e = .malformed := by
  cases cs with
  | nil =>
      cases h
      rfl
  | cons c cs =>
      rw [readKey] at h
      split_ifs at h
      · cases hs : (readString cs : Except ReadError (S × List Char)) with
        | error e' =>
            rw [hs] at h
            cases h
            exact (readString_failsWithin (fun _ _ => False) cs e hs).resolve_right id
        | ok r =>
            rw [hs] at h
            dsimp only at h
            split at h
            · cases h
            · cases h
              rfl
      · cases h
        rfl

omit [StringUnits S] in
theorem readNumber_failsWithin (hooks : Builder S V) {maxDigits : ℕ}
    {allowed : ReadError → ℕ → Prop} (hdigits : ∀ n, maxDigits < n → allowed .tooManyDigits n) :
    FailsWithin allowed (readNumber hooks maxDigits) := by
  intro cs e h
  unfold readNumber at h
  cases hscan : Numeral.scan cs with
  | none =>
      rw [hscan] at h
      cases h
      exact Or.inl rfl
  | some r =>
      have hlength : r.1.whole.length ≤ cs.length := Numeral.whole_length_le hscan
      rw [hscan] at h
      dsimp only at h
      split_ifs at h with hfloat hlimit
      cases h
      exact Or.inr (hdigits _ (by omega))

section Containers

variable {allowed : ReadError → ℕ → Prop} {value : Reader V}

omit [StringUnits S] in
/-- The loop over the items fails at a value that is not longer than the items. -/
theorem readItems_failsWithin (hmono : ∀ e m n, m ≤ n → allowed e m → allowed e n)
    (hvalue : FailsWithin allowed value) (hconsumes : Consumes value) (fuel : ℕ) (done : List V) :
    FailsWithin allowed (readItems value fuel done) := by
  induction fuel generalizing done with
  | zero =>
      intro cs e h
      cases h
      exact Or.inl rfl
  | succ fuel ih =>
      intro cs e h
      cases hv : value cs with
      | error e' =>
          rw [readItems, hv] at h
          cases h
          exact hvalue cs e hv
      | ok r =>
          rw [readItems_succ hv] at h
          have hlt := hconsumes cs r.1 r.2 hv
          split at h
          · cases h
          · rename_i rest hcomma
            have hrest := length_lt_of_skipSpace hcomma
            have hskip := skipSpace_length_le rest
            exact (ih _ _ e h).imp_right (hmono e _ _ (by omega))
          · cases h
            exact Or.inl rfl

omit [StringUnits S] in
theorem readArray_failsWithin (hooks : Builder S V)
    (hmono : ∀ e m n, m ≤ n → allowed e m → allowed e n) (hvalue : FailsWithin allowed value)
    (hconsumes : Consumes value) : FailsWithin allowed (readArray hooks value) := by
  intro cs e h
  unfold readArray at h
  split at h
  · cases h
  · have hitems := (readItems_failsWithin hmono hvalue hconsumes (skipSpace cs).length []).map
      hooks.arr
    exact (hitems (skipSpace cs) e h).imp_right (hmono e _ _ (skipSpace_length_le cs))

variable [DecidableEq S]

/-- The loop over the members fails at a value that is not longer than the members. -/
theorem readMembers_failsWithin (hmono : ∀ e m n, m ≤ n → allowed e m → allowed e n)
    (hvalue : FailsWithin allowed value) (hconsumes : Consumes value) (fuel : ℕ)
    (done : List (S × V)) : FailsWithin allowed (readMembers value fuel done) := by
  induction fuel generalizing done with
  | zero =>
      intro cs e h
      cases h
      exact Or.inl rfl
  | succ fuel ih =>
      intro cs e h
      cases hkey : (readKey cs : Except ReadError (S × List Char)) with
      | error e' =>
          rw [readMembers, hkey] at h
          cases h
          exact Or.inl (readKey_error hkey)
      | ok r =>
          have hlt := readKey_consumes cs r.1 r.2 hkey
          have hle := skipSpace_length_le r.2
          cases hv : value (skipSpace r.2) with
          | error e' =>
              rw [readMembers, hkey] at h
              dsimp only at h
              rw [hv] at h
              cases h
              exact (hvalue _ e hv).imp_right (hmono e _ _ (by omega))
          | ok r' =>
              rw [readMembers_succ hkey hv] at h
              have hlt' := hconsumes (skipSpace r.2) r'.1 r'.2 hv
              split at h
              · cases h
              · rename_i rest hcomma
                have hrest := length_lt_of_skipSpace hcomma
                have hskip := skipSpace_length_le rest
                exact (ih _ _ e h).imp_right (hmono e _ _ (by omega))
              · cases h
                exact Or.inl rfl

theorem readObject_failsWithin (hooks : Builder S V)
    (hmono : ∀ e m n, m ≤ n → allowed e m → allowed e n) (hvalue : FailsWithin allowed value)
    (hconsumes : Consumes value) : FailsWithin allowed (readObject hooks value) := by
  intro cs e h
  unfold readObject at h
  split at h
  · cases h
  · have hmembers := (readMembers_failsWithin hmono hvalue hconsumes (skipSpace cs).length []).map
      hooks.obj
    exact (hmembers (skipSpace cs) e h).imp_right (hmono e _ _ (skipSpace_length_le cs))

end Containers

/-- A container takes up a character before it can fail. -/
theorem readNode_failsWithin (hooks : Builder S V) {maxDigits : ℕ}
    {inner allowed : ReadError → ℕ → Prop}
    (hdigits : ∀ n, maxDigits < n → allowed .tooManyDigits n)
    (hstep : ∀ e n, inner e n → allowed e (n + 1)) {object array : Reader V}
    (hobject : FailsWithin inner object) (harray : FailsWithin inner array) :
    FailsWithin allowed (readNode hooks maxDigits object array) := by
  intro cs e h
  cases cs with
  | nil =>
      cases h
      exact Or.inl rfl
  | cons c cs =>
      rw [readNode] at h
      split_ifs at h
      · cases hs : (readString cs : Except ReadError (S × List Char)) with
        | error e' =>
            rw [hs] at h
            cases h
            exact Or.inl ((readString_failsWithin (fun _ _ => False) cs e hs).resolve_right id)
        | ok r =>
            rw [hs] at h
            cases h
      · exact (hobject cs e h).imp_right (hstep e _)
      · exact (harray cs e h).imp_right (hstep e _)
      · cases hword : readConstant hooks (c :: cs) with
        | some r =>
            rw [hword] at h
            cases h
        | none =>
            rw [hword] at h
            exact readNumber_failsWithin hooks hdigits (c :: cs) e h

/-- A text that is stopped at a limit is longer than the limit. -/
def LongerThan (maxDigits depth : ℕ) : ReadError → ℕ → Prop
  | .malformed, _ => False
  | .tooManyDigits, n => maxDigits < n
  | .tooDeep, n => depth < n

variable [DecidableEq S]

theorem readValue_failsWithin (hooks : Builder S V) (maxDigits depth : ℕ) :
    FailsWithin (LongerThan maxDigits depth) (readValue hooks maxDigits depth) := by
  have hmono : ∀ depth e m n, m ≤ n → LongerThan maxDigits depth e m →
      LongerThan maxDigits depth e n := by
    intro depth e m n hle h
    cases e with
    | malformed => exact h
    | tooManyDigits => exact lt_of_lt_of_le h hle
    | tooDeep => exact lt_of_lt_of_le h hle
  induction depth with
  | zero =>
      have hdeep : FailsWithin (fun e _ => e = .tooDeep)
          fun _ => (.error .tooDeep : Except ReadError (V × List Char)) := by
        intro cs e h
        cases h
        exact Or.inr rfl
      refine readNode_failsWithin hooks (fun n h => h) (fun e n h => ?_) hdeep hdeep
      rw [h]
      exact Nat.succ_pos n
  | succ depth ih =>
      have hconsumes := readValue_consumes hooks maxDigits depth
      refine readNode_failsWithin hooks (fun n h => h) (fun e n h => ?_)
        (readObject_failsWithin hooks (hmono depth) ih hconsumes)
        (readArray_failsWithin hooks (hmono depth) ih hconsumes)
      cases e with
      | malformed => exact h
      | tooManyDigits => exact lt_of_lt_of_le h (Nat.le_succ n)
      | tooDeep => exact Nat.succ_lt_succ h

/-- Limits that come from the length of the text stop no reader. -/
theorem loads_textLimits {hooks : Builder S V} {cs : List Char} {e : ReadError}
    (h : loads hooks (textLimits cs) cs = .error e) : e = .malformed := by
  unfold loads at h
  split at h
  · cases h
    rfl
  · cases hr : readValue hooks (textLimits cs).maxDigits (textLimits cs).maxDepth (skipSpace cs)
      with
    | error e' =>
        rw [hr] at h
        cases h
        have hlength := skipSpace_length_le cs
        rcases readValue_failsWithin hooks _ _ _ _ hr with he | he
        · exact he
        · cases e with
          | malformed => rfl
          | tooManyDigits => exact absurd he (by simp [LongerThan, textLimits]; omega)
          | tooDeep => exact absurd he (by simp [LongerThan, textLimits]; omega)
    | ok r =>
        rw [hr] at h
        dsimp only at h
        split at h
        · cases h
        · cases h
          rfl

/-- Reads a text without limits. -/
def readAll (hooks : Builder S V) (cs : List Char) : Option V :=
  (loads hooks (textLimits cs) cs).toOption

theorem readAll_eq_some_iff_loads {hooks : Builder S V} {cs : List Char} {v : V} :
    readAll hooks cs = some v ↔ loads hooks (textLimits cs) cs = .ok v := by
  rw [readAll]
  cases loads hooks (textLimits cs) cs <;> simp [Except.toOption]

/-- What some reader reads as a value, a reader without limits reads as the corresponding one. -/
theorem readAll_of_loads {W : Type} {f : V → W} {hooks : Builder S V} {other : Builder S W}
    (hcorresponds : Corresponds f hooks other) {limits : Limits} {cs : List Char} {v : V}
    (h : loads hooks limits cs = .ok v) : readAll other cs = some (f v) := by
  rw [readAll_eq_some_iff_loads]
  have hfollows : loads other (textLimits cs) cs = .ok (f v) ∨
      ∃ e, e ≠ .malformed ∧ loads other (textLimits cs) cs = .error e :=
    loads_follows hcorresponds (Or.inr nofun) (Or.inr nofun) h
  rcases hfollows with hok | ⟨e, he, herror⟩
  · exact hok
  · exact absurd (loads_textLimits herror) he

theorem readAll_eq_some_iff {hooks : Builder S V} {cs : List Char} {v : V} :
    readAll hooks cs = some v ↔ ∃ limits, loads hooks limits cs = .ok v := by
  constructor
  · exact fun h => ⟨textLimits cs, readAll_eq_some_iff_loads.mp h⟩
  · rintro ⟨limits, h⟩
    exact readAll_of_loads (corresponds_id hooks) h

/-- What is read without limits is read the same within limits, unless it is stopped by them. -/
theorem loads_of_readAll {W : Type} {f : V → W} {hooks : Builder S V} {other : Builder S W}
    (hcorresponds : Corresponds f hooks other) {limits : Limits} {cs : List Char} {v : V}
    (h : readAll hooks cs = some v) :
    loads other limits cs = .ok (f v) ∨
      loads other limits cs = .error .tooManyDigits ∨ loads other limits cs = .error .tooDeep := by
  have hfollows : loads other limits cs = .ok (f v) ∨
      ∃ e, (e = .tooManyDigits ∨ e = .tooDeep) ∧ loads other limits cs = .error e :=
    loads_follows hcorresponds (Or.inr (Or.inl rfl)) (Or.inr (Or.inr rfl))
      (readAll_eq_some_iff_loads.mp h)
  rcases hfollows with hok | ⟨e, rfl | rfl, he⟩
  · exact Or.inl hok
  · exact Or.inr (Or.inl he)
  · exact Or.inr (Or.inr he)

end JsonReader
