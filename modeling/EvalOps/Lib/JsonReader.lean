import EvalOps.Lib.Dict
import EvalOps.Lib.Doubles
import EvalOps.Lib.ExceptRules
import EvalOps.Lib.Numerals

/-!
# `EvalOps.Lib.JsonReader`: reading JSON

`JsonReader.loads` is Python's `json.loads` on the code points of a text. What a decoded value is
built from is a parameter, the `Builder`, with the words for the numbers that are not finite, which
RFC 8259 does not have and Python reads. A text that is not JSON is `malformed`. Python's reader
has two more ways to fail, and they come in the order in which the text is read: an integer literal
with too many digits, and containers that are nested too deeply.

A nesting level is a level of the recursion. The loop over the members of a container runs on fuel,
which is the length of the text: each member takes up at least one character, so this fuel is as
good as more (`JsonReader.readValue_fuel`).

What a string is read as is given by `StringUnits`. A `String` has no lone surrogates: an escape for
one reads as the replacement character.
-/

set_option autoImplicit false

namespace JsonReader

/-- How reading fails. -/
inductive ReadError
  /-- `json.JSONDecodeError`. -/
  | malformed
  /-- The `ValueError` of `int` for a literal above the digit limit. -/
  | tooManyDigits
  /-- `RecursionError`. -/
  | tooDeep
deriving DecidableEq

/-- The limits of the interpreter. A container at the top is within them. -/
structure Limits where
  maxDigits : ℕ
  maxDepth : ℕ
  maxDepth_pos : 0 < maxDepth

/-- What decoded values are built from. Without the extension, `NaN`, `Infinity` and `-Infinity` are
no words. -/
structure Builder (S V : Type) where
  null : V
  bool : Bool → V
  int : ℤ → V
  float : PyFloat → V
  str : S → V
  arr : List V → V
  obj : List (S × V) → V
  extended : Bool := true

/-- What values with plain strings are built from. -/
abbrev Hooks (V : Type) := Builder String V

/-- A reader at the front of a text: a result, and the rest of the text. -/
abbrev Reader (α : Type) := List Char → Except ReadError (α × List Char)

/-- Whitespace between the tokens. -/
def isSpace (c : Char) : Bool :=
  c.toNat == 32 || c.toNat == 9 || c.toNat == 10 || c.toNat == 13

/-- Skips whitespace. -/
def skipSpace (cs : List Char) : List Char := cs.dropWhile isSpace

/-! ### Strings -/

/-- The character that a backslash and a letter stand for. -/
def unescape (c : Char) : Option Char :=
  if c = PyText.doubleQuote ∨ c = PyText.backslash ∨ c = '/' then some c
  else if c = 'b' then some (Char.ofNat 8)
  else if c = 'f' then some (Char.ofNat 12)
  else if c = 'n' then some (Char.ofNat 10)
  else if c = 'r' then some (Char.ofNat 13)
  else if c = 't' then some (Char.ofNat 9)
  else none

/-- The value of a hexadecimal digit. -/
def hexValue (c : Char) : Option ℕ :=
  let n := c.toNat
  if 48 ≤ n ∧ n ≤ 57 then some (n - 48)
  else if 97 ≤ n ∧ n ≤ 102 then some (n - 87)
  else if 65 ≤ n ∧ n ≤ 70 then some (n - 55)
  else none

/-- A code unit in front of those that are read next. -/
def consUnit (unit : ℕ) (units : Except ReadError (List ℕ × List Char)) :
    Except ReadError (List ℕ × List Char) :=
  units.map fun r => (unit :: r.1, r.2)

/-- Where the reader of a string is: between characters, after a backslash, or before the digits of
a code unit, with the number of digits after the next one and the value of those before it. -/
inductive StringState
  | plain
  | escape
  | hex (left value : ℕ)

/-- The units of a string up to its closing quote: code points, and the code units of escapes. -/
def readUnits : StringState → Reader (List ℕ)
  | _, [] => .error .malformed
  | .plain, c :: cs =>
      if c = PyText.doubleQuote then .ok ([], cs)
      else if c = PyText.backslash then readUnits .escape cs
      else if c.toNat < 32 then .error .malformed
      else consUnit c.toNat (readUnits .plain cs)
  | .escape, c :: cs =>
      if c = 'u' then readUnits (.hex 3 0) cs
      else
        match unescape c with
        | some e => consUnit e.toNat (readUnits .plain cs)
        | none => .error .malformed
  | .hex left value, c :: cs =>
      match hexValue c with
      | none => .error .malformed
      | some digit =>
          match left with
          | 0 => consUnit (value * 16 + digit) (readUnits .plain cs)
          | left + 1 => readUnits (.hex left (value * 16 + digit)) cs

/-- A high surrogate. -/
def isHigh (unit : ℕ) : Bool := decide (0xD800 ≤ unit ∧ unit < 0xDC00)

/-- A low surrogate. -/
def isLow (unit : ℕ) : Bool := decide (0xDC00 ≤ unit ∧ unit < 0xE000)

/-- The character of a unit on its own. -/
def unitChar (unit : ℕ) : Char :=
  if isHigh unit || isLow unit then Char.ofNat 0xFFFD else Char.ofNat unit

/-- The characters of a sequence of units: a high surrogate and a low one after it are one. -/
def joinUnits : List ℕ → List Char
  | [] => []
  | [unit] => [unitChar unit]
  | high :: low :: units =>
      if isHigh high && isLow low then
        Char.ofNat (0x10000 + (high - 0xD800) * 0x400 + (low - 0xDC00)) :: joinUnits units
      else unitChar high :: joinUnits (low :: units)

/-- Strings that are built of units: code points, and the code units of escapes. -/
class StringUnits (S : Type) where
  ofUnits : List ℕ → S

instance : StringUnits String := ⟨fun units => String.ofList (joinUnits units)⟩

/-- A string after its opening quote. -/
def readString {S : Type} [StringUnits S] : Reader S := fun cs =>
  (readUnits .plain cs).map fun r => (StringUnits.ofUnits r.1, r.2)

/-! ### Values -/

section Values

variable {S V : Type} [StringUnits S] [DecidableEq S]

/-- The words that stand for a value. -/
def constants (hooks : Builder S V) : List (String × V) :=
  [("null", hooks.null), ("true", hooks.bool true), ("false", hooks.bool false)] ++
    if hooks.extended then
      [("NaN", hooks.float .nan), ("Infinity", hooks.float (.inf false)),
        ("-Infinity", hooks.float (.inf true))]
    else []

/-- A word at the front of a text. -/
def readConstant (hooks : Builder S V) (cs : List Char) : Option (V × List Char) :=
  (constants hooks).findSome? fun word =>
    if word.1.toList.isPrefixOf cs then some (word.2, cs.drop word.1.toList.length) else none

/-- A number. -/
def readNumber (hooks : Builder S V) (maxDigits : ℕ) : Reader V := fun cs =>
  match Numeral.scan cs with
  | none => .error .malformed
  | some (n, rest) =>
      if n.isFloat then .ok (hooks.float (PyFloat.nearest n.value), rest)
      else if maxDigits < n.whole.length then .error .tooManyDigits
      else .ok (hooks.int n.intValue, rest)

/-- A value, given the readers of a container after its opening bracket. -/
def readNode (hooks : Builder S V) (maxDigits : ℕ) (object array : Reader V) : Reader V
  | [] => .error .malformed
  | c :: cs =>
      if c = PyText.doubleQuote then (readString cs).map fun r => (hooks.str r.1, r.2)
      else if c = '{' then object cs
      else if c = '[' then array cs
      else
        match readConstant hooks (c :: cs) with
        | some r => .ok r
        | none => readNumber hooks maxDigits (c :: cs)

/-- The key of a member and the colon after it. -/
def readKey : Reader S
  | [] => .error .malformed
  | c :: cs =>
      if c = PyText.doubleQuote then
        match readString cs with
        | .error e => .error e
        | .ok (key, rest) =>
            match skipSpace rest with
            | ':' :: rest => .ok (key, rest)
            | _ => .error .malformed
      else .error .malformed

/-- The members of an object from a key on, after the members read so far. A later member with the
same key overwrites an earlier one. -/
def readMembers (value : Reader V) :
    (fuel : ℕ) → List (S × V) → Reader (List (S × V))
  | 0, _, _ => .error .malformed
  | fuel + 1, done, cs =>
      match readKey cs with
      | .error e => .error e
      | .ok (key, rest) =>
          match value (skipSpace rest) with
          | .error e => .error e
          | .ok (v, rest) =>
              match skipSpace rest with
              | '}' :: rest => .ok (Dict.insertEntries done key v, rest)
              | ',' :: rest =>
                  readMembers value fuel (Dict.insertEntries done key v) (skipSpace rest)
              | _ => .error .malformed

/-- An object after its opening brace. -/
def readObject (hooks : Builder S V) (value : Reader V) : Reader V := fun cs =>
  match skipSpace cs with
  | '}' :: rest => .ok (hooks.obj [], rest)
  | cs => (readMembers value cs.length [] cs).map fun r => (hooks.obj r.1, r.2)

/-- The items of an array from an item on, after the items read so far. -/
def readItems (value : Reader V) : (fuel : ℕ) → List V → Reader (List V)
  | 0, _, _ => .error .malformed
  | fuel + 1, done, cs =>
      match value cs with
      | .error e => .error e
      | .ok (v, rest) =>
          match skipSpace rest with
          | ']' :: rest => .ok (done ++ [v], rest)
          | ',' :: rest => readItems value fuel (done ++ [v]) (skipSpace rest)
          | _ => .error .malformed

/-- An array after its opening bracket. -/
def readArray (hooks : Builder S V) (value : Reader V) : Reader V := fun cs =>
  match skipSpace cs with
  | ']' :: rest => .ok (hooks.arr [], rest)
  | cs => (readItems value cs.length [] cs).map fun r => (hooks.arr r.1, r.2)

/-- A value with at most `depth` levels of containers. -/
def readValue (hooks : Builder S V) (maxDigits : ℕ) : (depth : ℕ) → Reader V
  | 0 => readNode hooks maxDigits (fun _ => .error .tooDeep) fun _ => .error .tooDeep
  | depth + 1 =>
      readNode hooks maxDigits (readObject hooks (readValue hooks maxDigits depth))
        (readArray hooks (readValue hooks maxDigits depth))

/-- The byte order mark, which no text may start with. -/
def byteOrderMark : Char := Char.ofNat 0xFEFF

/-- `json.loads` of a text. -/
def loads (hooks : Builder S V) (limits : Limits) (cs : List Char) : Except ReadError V :=
  if cs.head? = some byteOrderMark then .error .malformed
  else
    match readValue hooks limits.maxDigits limits.maxDepth (skipSpace cs) with
    | .error e => .error e
    | .ok (v, rest) => if (skipSpace rest).isEmpty then .ok v else .error .malformed

/-! ### Progress -/

/-- What the reader leaves is shorter than the text. -/
def Consumes {α : Type} (reader : Reader α) : Prop :=
  ∀ cs a rest, reader cs = .ok (a, rest) → rest.length < cs.length

theorem skipSpace_length_le (cs : List Char) : (skipSpace cs).length ≤ cs.length :=
  (List.dropWhile_sublist _).length_le

theorem length_lt_of_skipSpace {c : Char} {cs rest : List Char} (h : skipSpace cs = c :: rest) :
    rest.length < cs.length := by
  have hle := skipSpace_length_le cs
  rw [h, List.length_cons] at hle
  omega

theorem consUnit_eq_ok {unit : ℕ} {units : Except ReadError (List ℕ × List Char)}
    {us : List ℕ} {rest : List Char} (h : consUnit unit units = .ok (us, rest)) :
    ∃ us', units = .ok (us', rest) ∧ us = unit :: us' := by
  cases units with
  | error e => cases h
  | ok r =>
      cases h
      exact ⟨r.1, rfl, rfl⟩

theorem readUnits_consumes (state : StringState) : Consumes (readUnits state) := by
  intro cs
  induction cs generalizing state with
  | nil =>
      intro units rest h
      cases state <;> cases h
  | cons c cs ih =>
      -- Whatever the state, the rest of the string is read from `cs`.
      have hcons : ∀ state' unit units rest,
          consUnit unit (readUnits state' cs) = .ok (units, rest) →
            rest.length < (c :: cs).length := by
        intro state' unit units rest h
        obtain ⟨us, hus, _⟩ := consUnit_eq_ok h
        exact (ih state' us rest hus).trans (by simp)
      have hnext : ∀ state' units rest, readUnits state' cs = .ok (units, rest) →
          rest.length < (c :: cs).length := fun state' units rest h =>
        (ih state' units rest h).trans (by simp)
      intro units rest h
      cases state with
      | plain =>
          rw [readUnits] at h
          split_ifs at h
          · cases h
            simp
          · exact hnext _ _ _ h
          · exact hcons _ _ _ _ h
      | escape =>
          rw [readUnits] at h
          split_ifs at h
          · exact hnext _ _ _ h
          · cases he : unescape c with
            | none =>
                rw [he] at h
                cases h
            | some e =>
                rw [he] at h
                exact hcons _ _ _ _ h
      | hex left value =>
          rw [readUnits] at h
          cases hd : hexValue c with
          | none =>
              rw [hd] at h
              cases h
          | some digit =>
              rw [hd] at h
              cases left with
              | zero => exact hcons _ _ _ _ h
              | succ left => exact hnext _ _ _ h

/-- A function of the result leaves the same text. -/
theorem Consumes.map {α β : Type} {reader : Reader α} (h : Consumes reader) (f : α → β) :
    Consumes fun cs => (reader cs).map fun r => (f r.1, r.2) := by
  intro cs b rest hb
  cases hr : reader cs with
  | error e =>
      simp only [hr] at hb
      cases hb
  | ok r =>
      simp only [hr] at hb
      cases hb
      exact h cs r.1 r.2 hr

omit [DecidableEq S] in
theorem readString_consumes : Consumes (readString : Reader S) :=
  (readUnits_consumes .plain).map StringUnits.ofUnits

omit [StringUnits S] [DecidableEq S] in
theorem readConstant_length_lt {hooks : Builder S V} {cs rest : List Char} {v : V}
    (h : readConstant hooks cs = some (v, rest)) (hcs : 0 < cs.length) :
    rest.length < cs.length := by
  obtain ⟨word, hword, heq⟩ := List.exists_of_findSome?_eq_some h
  split at heq
  · cases heq
    have hpos : 0 < word.1.toList.length := by
      rw [constants, List.mem_append] at hword
      rcases hword with hword | hword
      · simp only [List.mem_cons, List.not_mem_nil, or_false] at hword
        rcases hword with rfl | rfl | rfl <;> simp
      · split at hword
        · simp only [List.mem_cons, List.not_mem_nil, or_false] at hword
          rcases hword with rfl | rfl | rfl <;> simp
        · exact absurd hword List.not_mem_nil
    rw [List.length_drop]
    omega
  · cases heq

omit [StringUnits S] [DecidableEq S] in
theorem readNumber_consumes (hooks : Builder S V) (maxDigits : ℕ) :
    Consumes (readNumber hooks maxDigits) := by
  intro cs v rest h
  unfold readNumber at h
  cases hscan : Numeral.scan cs with
  | none =>
      rw [hscan] at h
      cases h
  | some r =>
      obtain ⟨n, rest'⟩ := r
      have hlt := Numeral.scan_length_lt hscan
      rw [hscan] at h
      dsimp only at h
      split_ifs at h
      · cases h
        exact hlt
      · cases h
        exact hlt

omit [DecidableEq S] in
theorem readNode_consumes {hooks : Builder S V} {maxDigits : ℕ} {object array : Reader V}
    (hobject : Consumes object) (harray : Consumes array) :
    Consumes (readNode hooks maxDigits object array) := by
  intro cs v rest h
  cases cs with
  | nil => cases h
  | cons c cs =>
      have hcons : cs.length < (c :: cs).length := by simp
      rw [readNode] at h
      split_ifs at h
      · exact (readString_consumes.map hooks.str cs v rest h).trans hcons
      · exact (hobject cs v rest h).trans hcons
      · exact (harray cs v rest h).trans hcons
      · cases hword : readConstant hooks (c :: cs) with
        | some r =>
            rw [hword] at h
            cases h
            exact readConstant_length_lt hword (by simp)
        | none =>
            rw [hword] at h
            exact readNumber_consumes hooks maxDigits (c :: cs) v rest h

omit [DecidableEq S] in
theorem readKey_consumes : Consumes (readKey : Reader S) := by
  intro cs key rest h
  cases cs with
  | nil => cases h
  | cons c cs =>
      rw [readKey] at h
      split_ifs at h
      cases hs : (readString cs : Except ReadError (S × List Char)) with
      | error e =>
          rw [hs] at h
          cases h
      | ok r =>
          rw [hs] at h
          dsimp only at h
          have hlt := readString_consumes cs r.1 r.2 hs
          split at h
          · rename_i rest' hcolon
            cases h
            have := length_lt_of_skipSpace hcolon
            simp only [List.length_cons]
            omega
          · cases h

/-- A turn of the loop over the members, when the key and the value are read. -/
theorem readMembers_succ {value : Reader V} {fuel : ℕ} {done : List (S × V)}
    {cs rest rest' : List Char} {key : S} {v : V} (hkey : readKey cs = .ok (key, rest))
    (hvalue : value (skipSpace rest) = .ok (v, rest')) :
    readMembers value (fuel + 1) done cs =
      match skipSpace rest' with
      | '}' :: rest => .ok (Dict.insertEntries done key v, rest)
      | ',' :: rest => readMembers value fuel (Dict.insertEntries done key v) (skipSpace rest)
      | _ => .error .malformed := by
  rw [readMembers, hkey]
  dsimp only
  rw [hvalue]

/-- A turn of the loop over the items, when the item is read. -/
theorem readItems_succ {value : Reader V} {fuel : ℕ} {done : List V} {cs rest : List Char} {v : V}
    (hvalue : value cs = .ok (v, rest)) :
    readItems value (fuel + 1) done cs =
      match skipSpace rest with
      | ']' :: rest => .ok (done ++ [v], rest)
      | ',' :: rest => readItems value fuel (done ++ [v]) (skipSpace rest)
      | _ => .error .malformed := by
  rw [readItems, hvalue]

/-- More fuel than the text is long does not matter to the loop over the members. -/
theorem readMembers_fuel {value : Reader V} (hvalue : Consumes value) (extra : ℕ) {fuel : ℕ}
    {done : List (S × V)} {cs : List Char} (h : cs.length ≤ fuel) :
    readMembers value (fuel + extra) done cs = readMembers value fuel done cs := by
  induction fuel generalizing done cs with
  | zero =>
      have hnil : cs = [] := List.length_eq_zero_iff.mp (by omega)
      subst hnil
      cases extra <;> rfl
  | succ fuel ih =>
      rw [show fuel + 1 + extra = fuel + extra + 1 by omega]
      cases hkey : (readKey cs : Except ReadError (S × List Char)) with
      | error e => rw [readMembers, readMembers, hkey]
      | ok r =>
          cases hv : value (skipSpace r.2) with
          | error e =>
              rw [readMembers, readMembers, hkey]
              dsimp only
              rw [hv]
          | ok r' =>
              rw [readMembers_succ hkey hv, readMembers_succ hkey hv]
              have hlt := readKey_consumes cs r.1 r.2 hkey
              have hlt' := hvalue (skipSpace r.2) r'.1 r'.2 hv
              have hle := skipSpace_length_le r.2
              split
              · rfl
              · rename_i rest hcomma
                have hrest := length_lt_of_skipSpace hcomma
                have hskip := skipSpace_length_le rest
                exact ih (by omega)
              · rfl

/-- More fuel than the text is long does not matter to the loop over the items. -/
theorem readItems_fuel {value : Reader V} (hvalue : Consumes value)
    (hnil : value [] = .error .malformed) (extra : ℕ) {fuel : ℕ} {done : List V} {cs : List Char}
    (h : cs.length ≤ fuel) :
    readItems value (fuel + extra) done cs = readItems value fuel done cs := by
  induction fuel generalizing done cs with
  | zero =>
      have hcs : cs = [] := List.length_eq_zero_iff.mp (by omega)
      subst hcs
      cases extra with
      | zero => rfl
      | succ extra =>
          have hturn : readItems value (extra + 1) done [] = .error .malformed := by
            rw [readItems, hnil]
          rwa [Nat.zero_add]
  | succ fuel ih =>
      rw [show fuel + 1 + extra = fuel + extra + 1 by omega]
      cases hv : value cs with
      | error e => rw [readItems, readItems, hv]
      | ok r =>
          rw [readItems_succ hv, readItems_succ hv]
          have hlt := hvalue cs r.1 r.2 hv
          split
          · rfl
          · rename_i rest hcomma
            have hrest := length_lt_of_skipSpace hcomma
            have hskip := skipSpace_length_le rest
            exact ih (by omega)
          · rfl

theorem readMembers_consumes {value : Reader V} (hvalue : Consumes value) (fuel : ℕ)
    (done : List (S × V)) : Consumes (readMembers value fuel done) := by
  induction fuel generalizing done with
  | zero =>
      intro cs members rest h
      cases h
  | succ fuel ih =>
      intro cs members rest h
      cases hkey : (readKey cs : Except ReadError (S × List Char)) with
      | error e =>
          rw [readMembers, hkey] at h
          cases h
      | ok r =>
          cases hv : value (skipSpace r.2) with
          | error e =>
              rw [readMembers, hkey] at h
              dsimp only at h
              rw [hv] at h
              cases h
          | ok r' =>
              rw [readMembers_succ hkey hv] at h
              have hlt := readKey_consumes cs r.1 r.2 hkey
              have hlt' := hvalue (skipSpace r.2) r'.1 r'.2 hv
              have hle := skipSpace_length_le r.2
              split at h
              · rename_i rest' hbrace
                have := length_lt_of_skipSpace hbrace
                cases h
                omega
              · rename_i rest' hcomma
                have hrest := length_lt_of_skipSpace hcomma
                have hskip := skipSpace_length_le rest'
                have := ih _ (skipSpace rest') members rest h
                omega
              · cases h

theorem readItems_consumes {value : Reader V} (hvalue : Consumes value) (fuel : ℕ)
    (done : List V) : Consumes (readItems value fuel done) := by
  induction fuel generalizing done with
  | zero =>
      intro cs items rest h
      cases h
  | succ fuel ih =>
      intro cs items rest h
      cases hv : value cs with
      | error e =>
          rw [readItems, hv] at h
          cases h
      | ok r =>
          rw [readItems_succ hv] at h
          have hlt := hvalue cs r.1 r.2 hv
          split at h
          · rename_i rest' hbracket
            have := length_lt_of_skipSpace hbracket
            cases h
            omega
          · rename_i rest' hcomma
            have hrest := length_lt_of_skipSpace hcomma
            have hskip := skipSpace_length_le rest'
            have := ih _ (skipSpace rest') items rest h
            omega
          · cases h

theorem readObject_consumes {hooks : Builder S V} {value : Reader V} (hvalue : Consumes value) :
    Consumes (readObject hooks value) := by
  intro cs v rest h
  unfold readObject at h
  split at h
  · rename_i rest' hbrace
    cases h
    exact length_lt_of_skipSpace hbrace
  · have hmembers := (readMembers_consumes hvalue (skipSpace cs).length []).map hooks.obj
    exact (hmembers (skipSpace cs) v rest h).trans_le (skipSpace_length_le cs)

omit [StringUnits S] [DecidableEq S] in
theorem readArray_consumes {hooks : Builder S V} {value : Reader V} (hvalue : Consumes value) :
    Consumes (readArray hooks value) := by
  intro cs v rest h
  unfold readArray at h
  split at h
  · rename_i rest' hbracket
    cases h
    exact length_lt_of_skipSpace hbracket
  · have hitems := (readItems_consumes hvalue (skipSpace cs).length []).map hooks.arr
    exact (hitems (skipSpace cs) v rest h).trans_le (skipSpace_length_le cs)

/-- A value takes up at least one character, as the fuel of the loops relies on. -/
theorem readValue_consumes (hooks : Builder S V) (maxDigits depth : ℕ) :
    Consumes (readValue hooks maxDigits depth) := by
  induction depth with
  | zero => exact readNode_consumes (fun _ _ _ h => nomatch h) fun _ _ _ h => nomatch h
  | succ depth ih => exact readNode_consumes (readObject_consumes ih) (readArray_consumes ih)

/-- The loops of the reader never run out of fuel: more of it gives the same result. -/
theorem readValue_fuel (hooks : Builder S V) (maxDigits depth extra : ℕ) (cs : List Char) :
    readMembers (S := S) (readValue hooks maxDigits depth) (cs.length + extra) [] cs
        = readMembers (readValue hooks maxDigits depth) cs.length [] cs ∧
      readItems (readValue hooks maxDigits depth) (cs.length + extra) [] cs
        = readItems (readValue hooks maxDigits depth) cs.length [] cs := by
  have hconsumes := readValue_consumes hooks maxDigits depth
  have hnil : readValue hooks maxDigits depth [] = .error .malformed := by cases depth <;> rfl
  exact ⟨readMembers_fuel hconsumes extra le_rfl, readItems_fuel hconsumes hnil extra le_rfl⟩

end Values

end JsonReader
