import EvalOps.Lib.FloatText
import EvalOps.Lib.Json
import EvalOps.Lib.JsonReader

/-!
# `EvalOps.Lib.JsonRoundTrip`: what `dumps` writes, `loads` reads

`JsonReader.loads_dumpsLine` is the round trip, for values within the limits of the reader whose
objects have distinct keys and whose floats are doubles. It goes by the kind of value: the
characters of a string one by one, a number by its numeral, a container item by item.

* `JsonReader.readString_escaped`: a string is read back from its escapes.
* `JsonReader.readString_truncated`: the escapes of a string that are cut off are not a string.
-/

set_option autoImplicit false

namespace JsonReader

/-! ### Strings -/

/-- A character is not a surrogate. -/
theorem toNat_bounds (c : Char) :
    c.toNat < 0xD800 ∨ (0xE000 ≤ c.toNat ∧ c.toNat < 0x110000) := by
  have hvalid := c.valid
  simp only [UInt32.isValidChar, Nat.isValidChar] at hvalid
  simp only [Char.toNat]
  omega

/-- The units that the text of a character is read as. -/
def charUnits (c : Char) : List ℕ :=
  if c.toNat < 0x10000 then [c.toNat]
  else [0xD800 + (c.toNat - 0x10000) / 0x400, 0xDC00 + (c.toNat - 0x10000) % 0x400]

theorem hexValue_hexDigit {d : ℕ} (h : d < 16) : hexValue (PyText.hexDigit d) = some d := by
  have hall : ∀ d : Fin 16, hexValue (PyText.hexDigit d) = some d.val := by decide
  exact hall ⟨d, h⟩

/-- The escape of a code unit is read as the unit. -/
theorem readUnits_escapeUnit {unit : ℕ} (h : unit < 0x10000) (cs : List Char) :
    readUnits .plain (Json.escapeUnit unit ++ cs) = consUnit unit (readUnits .plain cs) := by
  have h₁ := hexValue_hexDigit (show unit / 4096 < 16 by omega)
  have h₂ := hexValue_hexDigit (show unit / 256 % 16 < 16 by omega)
  have h₃ := hexValue_hexDigit (show unit / 16 % 16 < 16 by omega)
  have h₄ := hexValue_hexDigit (show unit % 16 < 16 by omega)
  have hvalue : (((0 * 16 + unit / 4096) * 16 + unit / 256 % 16) * 16 + unit / 16 % 16) * 16 +
      unit % 16 = unit := by omega
  have hbackslash : PyText.backslash ≠ PyText.doubleQuote := by decide
  simp only [Json.escapeUnit, List.cons_append, List.nil_append, readUnits, if_neg hbackslash,
    if_true, h₁, h₂, h₃, h₄, hvalue]

/-- A backslash and the letter of an escape are read as the character they stand for. -/
theorem readUnits_letter {e c : Char} (h : unescape e = some c) (hu : e ≠ 'u')
    (cs : List Char) :
    readUnits .plain (PyText.backslash :: e :: cs) = consUnit c.toNat (readUnits .plain cs) := by
  have hbackslash : PyText.backslash ≠ PyText.doubleQuote := by decide
  simp only [readUnits, if_neg hbackslash, if_true, if_neg hu, h]

/-- A character that needs no escape is read as itself. -/
theorem readUnits_plain {c : Char} (hquote : c ≠ PyText.doubleQuote)
    (hbackslash : c ≠ PyText.backslash) (hc : 32 ≤ c.toNat) (cs : List Char) :
    readUnits .plain (c :: cs) = consUnit c.toNat (readUnits .plain cs) := by
  rw [readUnits, if_neg hquote, if_neg hbackslash, if_neg (by omega)]

/-- The escape of a code point is read as its units. -/
theorem readUnits_escapeChar (c : Char) (cs : List Char) :
    readUnits .plain (Json.escapeChar c ++ cs) =
      (charUnits c).foldr consUnit (readUnits .plain cs) := by
  have hsmall : c.toNat < 0x10000 →
      (charUnits c).foldr consUnit (readUnits .plain cs)
        = consUnit c.toNat (readUnits .plain cs) := by
    intro h
    rw [charUnits, if_pos h]
    rfl
  -- A letter escape stands for the code point whose case it is.
  have hletter : ∀ (e : Char) (n : ℕ), c.toNat = n → n < 32 →
      unescape e = some (Char.ofNat n) → e ≠ 'u' →
      readUnits .plain ([PyText.backslash, e] ++ cs) =
        (charUnits c).foldr consUnit (readUnits .plain cs) := by
    intro e n hn hlt hunescape hu
    rw [hsmall (by omega)]
    refine (readUnits_letter hunescape hu cs).trans ?_
    rw [← hn, Char.ofNat_toNat]
  unfold Json.escapeChar
  dsimp only
  split_ifs with hquoted hn hr ht hf hb hplain hbmp
  · have hself : unescape c = some c ∧ c ≠ 'u' ∧ c.toNat < 0x10000 := by
      rcases hquoted with rfl | rfl <;> decide
    rw [hsmall hself.2.2]
    exact readUnits_letter hself.1 hself.2.1 cs
  · exact hletter 'n' 10 hn (by decide) (by decide) (by decide)
  · exact hletter 'r' 13 hr (by decide) (by decide) (by decide)
  · exact hletter 't' 9 ht (by decide) (by decide) (by decide)
  · exact hletter 'f' 12 hf (by decide) (by decide) (by decide)
  · exact hletter 'b' 8 hb (by decide) (by decide) (by decide)
  · rw [hsmall (by omega)]
    rw [not_or] at hquoted
    exact readUnits_plain hquoted.1 hquoted.2 hplain.1 cs
  · rw [hsmall hbmp]
    exact readUnits_escapeUnit hbmp cs
  · have hbounds := toNat_bounds c
    rw [charUnits, if_neg hbmp, List.append_assoc, readUnits_escapeUnit (by omega),
      readUnits_escapeUnit (by omega)]
    rfl

/-- The units of a character are joined to the character. -/
theorem joinUnits_charUnits (c : Char) (units : List ℕ) :
    joinUnits (charUnits c ++ units) = c :: joinUnits units := by
  have hbounds := toNat_bounds c
  unfold charUnits
  split_ifs with hbmp
  · have hhigh : isHigh c.toNat = false := by
      rw [isHigh, decide_eq_false_iff_not]
      omega
    have hlow : isLow c.toNat = false := by
      rw [isLow, decide_eq_false_iff_not]
      omega
    have hchar : unitChar c.toNat = c := by
      rw [unitChar, hhigh, hlow]
      exact Char.ofNat_toNat c
    cases units with
    | nil =>
        show [unitChar c.toNat] = [c]
        rw [hchar]
    | cons low units =>
        rw [List.cons_append, List.nil_append, joinUnits, hhigh, hchar]
        rfl
  · have hhigh : isHigh (0xD800 + (c.toNat - 0x10000) / 0x400) = true := by
      rw [isHigh, decide_eq_true_iff]
      omega
    have hlow : isLow (0xDC00 + (c.toNat - 0x10000) % 0x400) = true := by
      rw [isLow, decide_eq_true_iff]
      omega
    have hvalue : 0x10000 + (0xD800 + (c.toNat - 0x10000) / 0x400 - 0xD800) * 0x400 +
        (0xDC00 + (c.toNat - 0x10000) % 0x400 - 0xDC00) = c.toNat := by omega
    rw [List.cons_append, List.cons_append, List.nil_append, joinUnits, hhigh, hlow, hvalue,
      Char.ofNat_toNat]
    rfl

theorem foldr_consUnit (units us : List ℕ) (rest : List Char) :
    units.foldr consUnit (.ok (us, rest)) = .ok (units ++ us, rest) := by
  induction units with
  | nil => rfl
  | cons unit units ih =>
      rw [List.foldr_cons, ih]
      rfl

/-- The escapes of a string are read as its units, up to the closing quote. -/
theorem readUnits_escaped (s rest : List Char) :
    readUnits .plain (s.flatMap Json.escapeChar ++ PyText.doubleQuote :: rest)
      = .ok (s.flatMap charUnits, rest) := by
  induction s with
  | nil => rfl
  | cons c s ih =>
      rw [List.flatMap_cons, List.append_assoc, readUnits_escapeChar, ih, List.flatMap_cons,
        foldr_consUnit]

/-- A string is read back from its escapes, up to the closing quote. -/
theorem readString_escaped (s rest : List Char) :
    readString (s.flatMap Json.escapeChar ++ PyText.doubleQuote :: rest)
      = .ok (String.ofList s, rest) := by
  have hjoin : ∀ s : List Char, joinUnits (s.flatMap charUnits) = s := by
    intro s
    induction s with
    | nil => rfl
    | cons c s ih => rw [List.flatMap_cons, joinUnits_charUnits, ih]
  rw [readString, readUnits_escaped]
  show Except.ok (String.ofList (joinUnits (s.flatMap charUnits)), rest) = _
  rw [hjoin]

/-! ### Strings that are cut off -/

/-- A string that is read is read the same in front of more text. -/
theorem readUnits_append {state : StringState} {cs : List Char} {units : List ℕ}
    {rest : List Char} (h : readUnits state cs = .ok (units, rest)) (tail : List Char) :
    readUnits state (cs ++ tail) = .ok (units, rest ++ tail) := by
  induction cs generalizing state units with
  | nil => cases state <;> cases h
  | cons c cs ih =>
      -- Whatever the state, the rest of the string is read from `cs`.
      have hcons : ∀ state' unit, consUnit unit (readUnits state' cs) = .ok (units, rest) →
          consUnit unit (readUnits state' (cs ++ tail)) = .ok (units, rest ++ tail) := by
        intro state' unit h
        obtain ⟨us, hus, rfl⟩ := consUnit_eq_ok h
        rw [ih hus]
        rfl
      rw [List.cons_append]
      cases state with
      | plain =>
          rw [readUnits] at h ⊢
          split_ifs at h ⊢ with hquote hbackslash
          · cases h
            rfl
          · exact ih h
          · exact hcons _ _ h
      | escape =>
          rw [readUnits] at h ⊢
          split_ifs at h ⊢ with hu
          · exact ih h
          · cases he : unescape c with
            | none =>
                rw [he] at h
                cases h
            | some e =>
                rw [he] at h
                exact hcons _ _ h
      | hex left value =>
          rw [readUnits] at h ⊢
          cases hd : hexValue c with
          | none =>
              rw [hd] at h
              cases h
          | some digit =>
              rw [hd] at h
              cases left with
              | zero => exact hcons _ _ h
              | succ left => exact ih h

/-- Reading a string fails in one way only. -/
theorem readUnits_eq_error {state : StringState} {cs : List Char} {e : ReadError}
    (h : readUnits state cs = .error e) : e = .malformed := by
  induction cs generalizing state with
  | nil => cases state <;> exact (Except.error.inj h).symm
  | cons c cs ih =>
      have hcons : ∀ state' unit, consUnit unit (readUnits state' cs) = .error e →
          e = .malformed := by
        intro state' unit h
        cases hunits : readUnits state' cs with
        | error e' =>
            rw [hunits] at h
            cases h
            exact ih hunits
        | ok r =>
            rw [hunits] at h
            cases h
      cases state with
      | plain =>
          rw [readUnits] at h
          split_ifs at h
          · exact ih h
          · exact (Except.error.inj h).symm
          · exact hcons _ _ h
      | escape =>
          rw [readUnits] at h
          split_ifs at h
          · exact ih h
          · split at h
            · exact hcons _ _ h
            · exact (Except.error.inj h).symm
      | hex left value =>
          rw [readUnits] at h
          split at h
          · exact (Except.error.inj h).symm
          · split at h
            · exact hcons _ _ h
            · exact ih h

/-- The escapes of a string, cut off anywhere, have no closing quote. -/
theorem readString_truncated {s cut tail : List Char}
    (h : s.flatMap Json.escapeChar = cut ++ tail) :
    (readString cut : Except ReadError (String × List Char)) = .error .malformed := by
  rw [readString]
  cases hunits : readUnits .plain cut with
  | error e =>
      rw [readUnits_eq_error hunits]
      rfl
  | ok r =>
      -- With the rest of the string put back, the closing quote would be left over.
      have hback := readUnits_append hunits (tail ++ [PyText.doubleQuote])
      rw [← List.append_assoc, ← h, readUnits_escaped] at hback
      have hrest : ([] : List Char) = r.2 ++ (tail ++ [PyText.doubleQuote]) := by
        injection hback with hpair
        exact congrArg Prod.snd hpair
      have := congrArg List.length hrest
      simp at this

/-! ### Values within the limits -/

section Values

variable {V : Type}

mutual

/-- The value has at most `depth` levels of containers, its integers have at most `maxDigits`
digits, its floats are doubles, and the keys of each of its objects are distinct. -/
def Readable (maxDigits : ℕ) : ℕ → Json → Prop
  | _, .null => True
  | _, .bool _ => True
  | _, .int n => (Nat.toDigits 10 n.natAbs).length ≤ maxDigits
  | _, .float x => PyFloat.IsDouble x
  | _, .str _ => True
  | 0, .arr _ => False
  | depth + 1, .arr items => ReadableItems maxDigits depth items
  | 0, .obj _ => False
  | depth + 1, .obj fields =>
      (fields.map Prod.fst).Nodup ∧ ReadableFields maxDigits depth fields

/-- Each item is readable. -/
def ReadableItems (maxDigits : ℕ) : ℕ → List Json → Prop
  | _, [] => True
  | depth, item :: items => Readable maxDigits depth item ∧ ReadableItems maxDigits depth items

/-- Each value of a field is readable. -/
def ReadableFields (maxDigits : ℕ) : ℕ → List (String × Json) → Prop
  | _, [] => True
  | depth, (_, value) :: fields =>
      Readable maxDigits depth value ∧ ReadableFields maxDigits depth fields

end

mutual

/-- The decoded value that a value is read back as. -/
def build (hooks : Hooks V) : Json → V
  | .null => hooks.null
  | .bool b => hooks.bool b
  | .int n => hooks.int n
  | .float x => hooks.float (.finite x)
  | .str s => hooks.str s
  | .arr items => hooks.arr (buildItems hooks items)
  | .obj fields => hooks.obj (buildFields hooks fields)

/-- The decoded items. -/
def buildItems (hooks : Hooks V) : List Json → List V
  | [] => []
  | item :: items => build hooks item :: buildItems hooks items

/-- The decoded fields. -/
def buildFields (hooks : Hooks V) : List (String × Json) → List (String × V)
  | [] => []
  | (key, value) :: fields => (key, build hooks value) :: buildFields hooks fields

end

/-- The fields keep their keys. -/
theorem buildFields_eq_map (hooks : Hooks V) (fields : List (String × Json)) :
    buildFields hooks fields = fields.map fun f => (f.1, build hooks f.2) := by
  induction fields with
  | nil => rfl
  | cons field fields ih => rw [buildFields, ih]; rfl

/-! ### Numbers -/

/-- The text of a well-formed numeral starts with a digit, or with a minus and a digit. -/
theorem text_head {n : Numeral} (h : n.WellFormed) (rest : List Char) :
    ∃ d cs, d.isDigit = true ∧
      (n.text ++ rest = d :: cs ∨ n.text ++ rest = '-' :: d :: cs) := by
  obtain ⟨d, cs, hw, hd⟩ := h.exists_whole
  refine ⟨d, cs ++ Numeral.fractionText n.fraction ++ Numeral.exponentText n.exponent ++ rest, hd,
    ?_⟩
  unfold Numeral.text
  rw [hw]
  cases n.negative with
  | false => exact Or.inl (by simp)
  | true => exact Or.inr (by simp)

/-- No word for a value starts like a number. -/
theorem readConstant_of_digit {S : Type} (hooks : Builder S V) {d : Char} (hd : d.isDigit = true)
    (cs : List Char) :
    readConstant hooks (d :: cs) = none ∧ readConstant hooks ('-' :: d :: cs) = none := by
  have hne : ∀ c : Char, c.isDigit = false → c ≠ d := by
    rintro c hc rfl
    rw [hd] at hc
    cases hc
  cases hext : hooks.extended <;> constructor <;>
    simp [readConstant, constants, hext, hne 'n' (by decide), hne 't' (by decide),
      hne 'f' (by decide), hne 'N' (by decide), hne 'I' (by decide), hne '-' (by decide)]

/-- A number is read as its numeral. -/
theorem readNode_numeral {S : Type} [StringUnits S] (hooks : Builder S V) (maxDigits : ℕ)
    (object array : Reader V) {n : Numeral} (h : n.WellFormed) {rest : List Char}
    (hrest : Numeral.Ends rest) :
    readNode hooks maxDigits object array (n.text ++ rest) =
      if n.isFloat then .ok (hooks.float (PyFloat.nearest n.value), rest)
      else if maxDigits < n.whole.length then .error .tooManyDigits
      else .ok (hooks.int n.intValue, rest) := by
  have hscan : readNumber hooks maxDigits (n.text ++ rest) =
      if n.isFloat then .ok (hooks.float (PyFloat.nearest n.value), rest)
      else if maxDigits < n.whole.length then .error .tooManyDigits
      else .ok (hooks.int n.intValue, rest) := by
    rw [readNumber, Numeral.scan_text h hrest]
  rw [← hscan]
  obtain ⟨d, cs, hd, htext | htext⟩ := text_head h rest
  · have hne : ∀ c : Char, c.isDigit = false → d ≠ c := by
      rintro c hc rfl
      rw [hd] at hc
      cases hc
    rw [htext, readNode, if_neg (hne _ (by decide)), if_neg (hne _ (by decide)),
      if_neg (hne _ (by decide)), (readConstant_of_digit hooks hd cs).1]
  · rw [htext, readNode, if_neg (by decide), if_neg (by decide), if_neg (by decide),
      (readConstant_of_digit hooks hd cs).2]

/-- The text of an integer is that of its numeral. -/
theorem toList_toString_int (n : ℤ) : (toString n).toList = (Numeral.ofInt n).text := by
  rw [Int.toString_eq_repr, Int.repr_eq_if]
  rcases lt_or_ge n 0 with hneg | hnonneg
  · have habs : (-n).toNat = n.natAbs := by omega
    rw [if_neg (by omega), String.toList_append, Nat.toList_repr, habs]
    simp [Numeral.ofInt, Numeral.text, Numeral.fractionText, Numeral.exponentText, hneg]
  · have habs : n.toNat = n.natAbs := by omega
    rw [if_pos hnonneg, Nat.toList_repr, habs]
    simp [Numeral.ofInt, Numeral.text, Numeral.fractionText, Numeral.exponentText,
      not_lt.mpr hnonneg]

/-! ### Containers -/

/-- Text that does not start with a space. -/
theorem skipSpace_cons {c : Char} (h : isSpace c = false) (cs : List Char) :
    skipSpace (c :: cs) = c :: cs := by
  rw [skipSpace, List.dropWhile_cons_of_neg (by simp [h])]

/-- A space is skipped. -/
theorem skipSpace_space (cs : List Char) : skipSpace (' ' :: cs) = skipSpace cs := by
  rw [skipSpace, List.dropWhile_cons_of_pos (by decide)]
  rfl

/-- A separator ends a numeral. -/
theorem ends_cons {c : Char} (h : c.isDigit = false ∧ c ≠ '.' ∧ c ≠ 'e' ∧ c ≠ 'E')
    (cs : List Char) : Numeral.Ends (c :: cs) := by
  intro d hd
  cases hd
  exact h

/-- A character that a value may start with: no space, no byte order mark, and no bracket that
closes an array. -/
def Opens (c : Char) : Prop := isSpace c = false ∧ c ≠ ']' ∧ c ≠ byteOrderMark

instance (c : Char) : Decidable (Opens c) := inferInstanceAs (Decidable (_ ∧ _))

/-- The reader reads the value back from its text. -/
def ReadsBack (hooks : Hooks V) (value : Reader V) (v : Json) : Prop :=
  (∃ c cs, Json.line FloatText.repr v = c :: cs ∧ Opens c) ∧
    ∀ rest, Numeral.Ends rest →
      value (Json.line FloatText.repr v ++ rest) = .ok (build hooks v, rest)

/-- The space in front of a value is skipped, and nothing else. -/
theorem ReadsBack.skipSpace_line {hooks : Hooks V} {value : Reader V} {v : Json}
    (h : ReadsBack hooks value v) (rest : List Char) :
    skipSpace (' ' :: (Json.line FloatText.repr v ++ rest))
      = Json.line FloatText.repr v ++ rest := by
  obtain ⟨⟨c, cs, hline, hopens⟩, _⟩ := h
  rw [hline, List.cons_append]
  exact skipSpace_cons hopens.1 (cs ++ rest)

/-- The text of the first of several items comes first. -/
theorem lineItems_cons (item : Json) (items : List Json) :
    ∃ tail, Json.lineItems FloatText.repr (item :: items)
      = Json.line FloatText.repr item ++ tail := by
  cases items with
  | nil => exact ⟨[], (List.append_nil _).symm⟩
  | cons next items => exact ⟨_, rfl⟩

/-- The items of an array are read back from their texts, after the items before. -/
theorem readItems_line {hooks : Hooks V} {value : Reader V} {item : Json} {items : List Json}
    (h : ∀ v ∈ item :: items, ReadsBack hooks value v) {fuel : ℕ} (hfuel : items.length < fuel)
    (done : List V) (rest : List Char) :
    readItems value fuel done (Json.lineItems FloatText.repr (item :: items) ++ ']' :: rest)
      = .ok (done ++ buildItems hooks (item :: items), rest) := by
  induction items generalizing item fuel done with
  | nil =>
      obtain ⟨fuel, rfl⟩ := Nat.exists_eq_succ_of_ne_zero (Nat.ne_of_gt hfuel)
      have hitem := (h item List.mem_cons_self).2 (']' :: rest) (ends_cons (by decide) rest)
      rw [Json.lineItems, readItems_succ hitem, skipSpace_cons (by decide)]
      rfl
  | cons next items ih =>
      obtain ⟨fuel, rfl⟩ := Nat.exists_eq_succ_of_ne_zero (Nat.ne_of_gt (Nat.zero_lt_of_lt hfuel))
      have hrest := fun v hv => h v (List.mem_cons_of_mem item hv)
      have hitem := (h item List.mem_cons_self).2
        (',' :: ' ' :: (Json.lineItems FloatText.repr (next :: items) ++ ']' :: rest))
        (ends_cons (by decide) _)
      obtain ⟨tail, htail⟩ := lineItems_cons next items
      have hskip : skipSpace (' ' :: (Json.lineItems FloatText.repr (next :: items) ++ ']' :: rest))
          = Json.lineItems FloatText.repr (next :: items) ++ ']' :: rest := by
        rw [htail, List.append_assoc]
        exact (hrest next List.mem_cons_self).skipSpace_line _
      have hlen : items.length < fuel := by
        rw [List.length_cons] at hfuel
        omega
      rw [Json.lineItems, List.append_assoc, List.cons_append, List.cons_append,
        readItems_succ hitem, skipSpace_cons (by decide)]
      show readItems value fuel _ (skipSpace (' ' :: _)) = _
      rw [hskip, ih hrest hlen, buildItems, List.append_assoc]
      rfl

theorem toList_encodeString (s : String) :
    (Json.encodeString s).toList =
      PyText.doubleQuote :: (s.toList.flatMap Json.escapeChar ++ [PyText.doubleQuote]) := by
  rw [Json.encodeString, String.toList_ofList, List.cons_append]

/-- A key and its colon are read back. -/
theorem readKey_line (key : String) (rest : List Char) :
    readKey ((Json.encodeString key).toList ++ ':' :: rest) = .ok (key, rest) := by
  rw [toList_encodeString, List.cons_append, List.append_assoc, readKey, if_pos rfl,
    List.cons_append, List.nil_append, readString_escaped]
  dsimp only
  rw [skipSpace_cons (by decide), String.ofList_toList]
  rfl

/-- The texts of fields, each with the separator that follows it. -/
def openFields (fields : List (String × Json)) : List Char :=
  fields.flatMap fun f => (Json.encodeString f.1).toList ++
    ':' :: ' ' :: (Json.line FloatText.repr f.2 ++ [',', ' '])

/-- The last field is the one that no separator follows. -/
theorem lineFields_append_singleton (fields : List (String × Json)) (key : String) (v : Json) :
    Json.lineFields FloatText.repr (fields ++ [(key, v)]) =
      openFields fields ++
        ((Json.encodeString key).toList ++ ':' :: ' ' :: Json.line FloatText.repr v) := by
  induction fields with
  | nil => rfl
  | cons field fields ih =>
      obtain ⟨key', v'⟩ := field
      obtain ⟨next, rest, hnext⟩ : ∃ next rest, fields ++ [(key, v)] = next :: rest :=
        List.exists_cons_of_ne_nil (by simp)
      rw [List.cons_append, hnext, Json.lineFields, ← hnext, ih, openFields, openFields,
        List.flatMap_cons]
      simp only [List.append_assoc, List.cons_append, List.nil_append]

/-- The text of an open object starts with a quote. -/
theorem openFields_append_quote (fields : List (String × Json)) (rest : List Char) :
    ∃ cs, openFields fields ++ PyText.doubleQuote :: rest = PyText.doubleQuote :: cs := by
  cases fields with
  | nil => exact ⟨rest, rfl⟩
  | cons field fields =>
      rw [openFields, List.flatMap_cons, toList_encodeString, List.cons_append, List.cons_append,
        List.cons_append]
      exact ⟨_, rfl⟩

/-- Fields that are followed by another one are read back, after the members before. -/
theorem readMembers_openFields {hooks : Hooks V} {value : Reader V}
    {fields : List (String × Json)} (h : ∀ f ∈ fields, ReadsBack hooks value f.2) (fuel : ℕ)
    (done : List (String × V)) (hkeys : (done.map Prod.fst ++ fields.map Prod.fst).Nodup)
    (rest : List Char) :
    readMembers value (fuel + fields.length) done
        (openFields fields ++ PyText.doubleQuote :: rest)
      = readMembers value fuel (done ++ buildFields hooks fields)
          (PyText.doubleQuote :: rest) := by
  induction fields generalizing done with
  | nil => rw [buildFields, List.append_nil]; rfl
  | cons field fields ih =>
      obtain ⟨key, v⟩ := field
      have hnew : key ∉ done.map Prod.fst := by
        intro hmem
        exact (List.nodup_append.mp hkeys).2.2 key hmem key List.mem_cons_self rfl
      have hback := h (key, v) List.mem_cons_self
      have hvalue := hback.2
        (',' :: ' ' :: (openFields fields ++ PyText.doubleQuote :: rest)) (ends_cons (by decide) _)
      rw [← hback.skipSpace_line] at hvalue
      have hskip : skipSpace (' ' :: (openFields fields ++ PyText.doubleQuote :: rest))
          = openFields fields ++ PyText.doubleQuote :: rest := by
        obtain ⟨cs, hcs⟩ := openFields_append_quote fields rest
        rw [skipSpace_space, hcs]
        exact skipSpace_cons (by decide) cs
      have hkeys' : ((done ++ [(key, build hooks v)]).map Prod.fst ++
          fields.map Prod.fst).Nodup := by
        rw [List.map_append, List.append_assoc]
        exact hkeys
      have htext : openFields ((key, v) :: fields) ++ PyText.doubleQuote :: rest =
          (Json.encodeString key).toList ++ ':' :: ' ' :: (Json.line FloatText.repr v ++
            ',' :: ' ' :: (openFields fields ++ PyText.doubleQuote :: rest)) := by
        rw [openFields, List.flatMap_cons]
        simp only [List.append_assoc, List.cons_append, List.nil_append]
        rfl
      rw [htext, List.length_cons, ← Nat.add_assoc,
        readMembers_succ (readKey_line key _) hvalue, skipSpace_cons (by decide)]
      show readMembers value _ (Dict.insertEntries done key (build hooks v))
        (skipSpace (' ' :: _)) = _
      rw [Dict.insertEntries, if_neg hnew, hskip, ih (fun f hf => h f (List.mem_cons_of_mem _ hf)) _
        hkeys', buildFields, List.append_assoc]
      rfl

/-- The members of an object are read back from their texts. -/
theorem readMembers_line {hooks : Hooks V} {value : Reader V} {fields : List (String × Json)}
    {key : String} {v : Json} (h : ∀ f ∈ fields ++ [(key, v)], ReadsBack hooks value f.2)
    (hkeys : ((fields ++ [(key, v)]).map Prod.fst).Nodup) (fuel : ℕ) (rest : List Char) :
    readMembers value (fuel + 1 + fields.length) []
        (Json.lineFields FloatText.repr (fields ++ [(key, v)]) ++ '}' :: rest)
      = .ok (buildFields hooks (fields ++ [(key, v)]), rest) := by
  rw [List.map_append] at hkeys
  have hnew : key ∉ (buildFields hooks fields).map Prod.fst := by
    intro hmem
    rw [buildFields_eq_map, List.map_map] at hmem
    exact (List.nodup_append.mp hkeys).2.2 key hmem key List.mem_cons_self rfl
  have hopen := readMembers_openFields (fun f hf => h f (List.mem_append_left _ hf)) (fuel + 1) []
    (List.nodup_append.mp hkeys).1
  have hback := h (key, v) (List.mem_append_right _ List.mem_cons_self)
  have hvalue := hback.2 ('}' :: rest) (ends_cons (by decide) rest)
  rw [← hback.skipSpace_line] at hvalue
  have hkey := readKey_line key (' ' :: (Json.line FloatText.repr v ++ '}' :: rest))
  rw [toList_encodeString, List.cons_append] at hkey
  rw [lineFields_append_singleton, toList_encodeString]
  simp only [List.append_assoc, List.cons_append] at hkey ⊢
  rw [hopen, readMembers_succ hkey hvalue, skipSpace_cons (by decide)]
  show Except.ok (Dict.insertEntries _ key (build hooks v), rest) = _
  rw [List.nil_append, Dict.insertEntries, if_neg hnew, buildFields_eq_map, buildFields_eq_map,
    List.map_append]
  rfl

/-! ### Values -/

/-- A value that is written as a numeral, when the numeral is read as the value. -/
theorem readsBack_numeral {hooks : Hooks V} {value : Reader V} {v : Json} {n : Numeral}
    (h : n.WellFormed) (hline : Json.line FloatText.repr v = n.text)
    (hvalue : ∀ rest, Numeral.Ends rest → value (n.text ++ rest) = .ok (build hooks v, rest)) :
    ReadsBack hooks value v := by
  refine ⟨?_, fun rest hrest => by rw [hline]; exact hvalue rest hrest⟩
  have hdigit : ∀ d : Char, d.isDigit = true → Opens d := by
    intro d hd
    have hbounds := Char.isDigit_iff_toNat.mp hd
    change 48 ≤ d.toNat ∧ d.toNat ≤ 57 at hbounds
    refine ⟨?_, ?_, ?_⟩
    · simp only [isSpace, Bool.or_eq_false_iff, beq_eq_false_iff_ne]
      omega
    · rintro rfl
      cases hd
    · rintro rfl
      cases hd
  obtain ⟨d, cs, hd, htext | htext⟩ := text_head h []
  · rw [List.append_nil] at htext
    exact ⟨d, cs, hline.trans htext, hdigit d hd⟩
  · rw [List.append_nil] at htext
    exact ⟨'-', d :: cs, hline.trans htext, by decide⟩

/-- A word for a value is read as the value. -/
theorem readNode_constant {S : Type} [StringUnits S] {hooks : Builder S V} {maxDigits : ℕ}
    {object array : Reader V} {c : Char} {cs rest : List Char} {v : V}
    (h : readConstant hooks (c :: cs) = some (v, rest))
    (hquote : c ≠ PyText.doubleQuote) (hbrace : c ≠ '{') (hbracket : c ≠ '[') :
    readNode hooks maxDigits object array (c :: cs) = .ok (v, rest) := by
  rw [readNode, if_neg hquote, if_neg hbrace, if_neg hbracket, h]

/-- The values without parts, whatever the readers of containers do. -/
theorem readsBack_scalar (hooks : Hooks V) {maxDigits depth : ℕ} (object array : Reader V)
    {v : Json} (h : Readable maxDigits depth v) (harr : ∀ items, v ≠ .arr items)
    (hobj : ∀ fields, v ≠ .obj fields) :
    ReadsBack hooks (readNode hooks maxDigits object array) v := by
  cases v with
  | null =>
      refine ⟨⟨'n', _, rfl, by decide⟩, fun rest _ => ?_⟩
      have hword : readConstant hooks ('n' :: 'u' :: 'l' :: 'l' :: rest)
          = some (hooks.null, rest) := by
        simp [readConstant, constants]
      exact readNode_constant hword (by decide) (by decide) (by decide)
  | bool b =>
      cases b with
      | false =>
          refine ⟨⟨'f', _, rfl, by decide⟩, fun rest _ => ?_⟩
          have hword : readConstant hooks ('f' :: 'a' :: 'l' :: 's' :: 'e' :: rest)
              = some (hooks.bool false, rest) := by
            simp [readConstant, constants]
          exact readNode_constant hword (by decide) (by decide) (by decide)
      | true =>
          refine ⟨⟨'t', _, rfl, by decide⟩, fun rest _ => ?_⟩
          have hword : readConstant hooks ('t' :: 'r' :: 'u' :: 'e' :: rest)
              = some (hooks.bool true, rest) := by
            simp [readConstant, constants]
          exact readNode_constant hword (by decide) (by decide) (by decide)
  | int n =>
      have hline : Json.line FloatText.repr (.int n) = (Numeral.ofInt n).text := by
        rw [Json.line, toList_toString_int]
      refine readsBack_numeral (Numeral.ofInt_wellFormed n) hline fun rest hrest => ?_
      have hlen : ¬ maxDigits < (Numeral.ofInt n).whole.length := not_lt.mpr h
      rw [readNode_numeral hooks maxDigits object array (Numeral.ofInt_wellFormed n) hrest,
        if_neg hlen, Numeral.ofInt_intValue]
      rfl
  | float x =>
      have hdouble : PyFloat.IsDouble x := h
      have hline : Json.line FloatText.repr (.float x) = (FloatText.numeral x).text := by
        rw [Json.line, FloatText.repr, String.toList_ofList]
      refine readsBack_numeral (FloatText.numeral_wellFormed hdouble) hline fun rest hrest => ?_
      rw [readNode_numeral hooks maxDigits object array (FloatText.numeral_wellFormed hdouble)
        hrest, if_pos (FloatText.numeral_isFloat x), FloatText.nearest_numeral hdouble]
      rfl
  | str s =>
      have htext : Json.line FloatText.repr (.str s) = (Json.encodeString s).toList := by
        rw [Json.line]
      rw [toList_encodeString] at htext
      refine ⟨⟨_, _, htext, by decide⟩, fun rest _ => ?_⟩
      rw [htext, List.cons_append, List.append_assoc, readNode, if_pos rfl, List.cons_append,
        List.nil_append, readString_escaped, String.ofList_toList]
      rfl
  | arr items => exact absurd rfl (harr items)
  | obj fields => exact absurd rfl (hobj fields)

/-- The items are separated, so the text of the array is longer than their number. -/
theorem length_le_lineItems (item : Json) (items : List Json) :
    items.length ≤ (Json.lineItems FloatText.repr (item :: items)).length := by
  induction items generalizing item with
  | nil => exact Nat.zero_le _
  | cons next items ih =>
      have hle := ih next
      simp only [Json.lineItems, List.length_append, List.length_cons]
      omega

theorem length_le_openFields (fields : List (String × Json)) :
    fields.length ≤ (openFields fields).length := by
  induction fields with
  | nil => exact Nat.zero_le _
  | cons field fields ih =>
      unfold openFields at ih ⊢
      simp only [List.flatMap_cons, List.length_append, List.length_cons]
      omega

/-- An array is read back when its items are. -/
theorem readArray_line {hooks : Hooks V} {value : Reader V} {items : List Json}
    (h : ∀ v ∈ items, ReadsBack hooks value v) (rest : List Char) :
    readArray hooks value (Json.lineItems FloatText.repr items ++ ']' :: rest)
      = .ok (hooks.arr (buildItems hooks items), rest) := by
  cases items with
  | nil =>
      rw [Json.lineItems, List.nil_append, readArray, skipSpace_cons (by decide)]
      rfl
  | cons item items =>
      obtain ⟨tail, htail⟩ := lineItems_cons item items
      obtain ⟨c, cs, hline, hopens⟩ := (h item List.mem_cons_self).1
      have hlen : items.length
          < (Json.lineItems FloatText.repr (item :: items) ++ ']' :: rest).length := by
        have hle := length_le_lineItems item items
        rw [List.length_append, List.length_cons]
        omega
      have hitems := readItems_line h hlen [] rest
      rw [htail, hline] at hitems ⊢
      simp only [List.cons_append] at hitems ⊢
      rw [readArray, skipSpace_cons hopens.1]
      split
      · rename_i rest' heq
        cases heq
        exact absurd rfl hopens.2.1
      · rw [hitems]
        rfl

/-- The members of an object are read from its first quote on. -/
theorem readObject_quote (hooks : Hooks V) (value : Reader V) (cs : List Char) :
    readObject hooks value (PyText.doubleQuote :: cs) =
      (readMembers value (cs.length + 1) [] (PyText.doubleQuote :: cs)).map
        fun r => (hooks.obj r.1, r.2) := by
  rw [readObject, skipSpace_cons (by decide)]
  rfl

/-- An object is read back when its values are and its keys are distinct. -/
theorem readObject_line {hooks : Hooks V} {value : Reader V} {fields : List (String × Json)}
    (h : ∀ f ∈ fields, ReadsBack hooks value f.2) (hkeys : (fields.map Prod.fst).Nodup)
    (rest : List Char) :
    readObject hooks value (Json.lineFields FloatText.repr fields ++ '}' :: rest)
      = .ok (hooks.obj (buildFields hooks fields), rest) := by
  rcases List.eq_nil_or_concat fields with rfl | ⟨fields, ⟨key, v⟩, rfl⟩
  · rw [Json.lineFields, List.nil_append, readObject, skipSpace_cons (by decide)]
    rfl
  · rw [List.concat_eq_append] at h hkeys ⊢
    obtain ⟨cs, hcs⟩ := openFields_append_quote fields
      (key.toList.flatMap Json.escapeChar ++ PyText.doubleQuote :: ':' :: ' ' ::
        (Json.line FloatText.repr v ++ '}' :: rest))
    have htext : Json.lineFields FloatText.repr (fields ++ [(key, v)]) ++ '}' :: rest =
        PyText.doubleQuote :: cs := by
      rw [← hcs, lineFields_append_singleton, toList_encodeString]
      simp only [List.append_assoc, List.cons_append, List.nil_append]
    -- There is fuel for one turn for each field.
    obtain ⟨fuel, hfuel⟩ : ∃ fuel, cs.length + 1 = fuel + 1 + fields.length := by
      refine ⟨cs.length - fields.length, ?_⟩
      have hlen := congrArg List.length hcs
      have hle := length_le_openFields fields
      simp only [List.length_append, List.length_cons] at hlen
      omega
    rw [htext, readObject_quote, hfuel, ← htext, readMembers_line h hkeys]
    rfl

theorem readable_of_mem {maxDigits depth : ℕ} {items : List Json}
    (h : ReadableItems maxDigits depth items) : ∀ v ∈ items, Readable maxDigits depth v := by
  induction items with
  | nil => exact fun v hv => absurd hv List.not_mem_nil
  | cons item items ih => exact List.forall_mem_cons.mpr ⟨h.1, ih h.2⟩

theorem readable_of_mem_fields {maxDigits depth : ℕ} {fields : List (String × Json)}
    (h : ReadableFields maxDigits depth fields) :
    ∀ f ∈ fields, Readable maxDigits depth f.2 := by
  induction fields with
  | nil => exact fun f hf => absurd hf List.not_mem_nil
  | cons field fields ih => exact List.forall_mem_cons.mpr ⟨h.1, ih h.2⟩

/-- A readable value is read back from its text. -/
theorem readsBack_of_readable (hooks : Hooks V) {maxDigits : ℕ} :
    ∀ {depth : ℕ} {v : Json}, Readable maxDigits depth v →
      ReadsBack hooks (readValue hooks maxDigits depth) v := by
  intro depth
  induction depth with
  | zero =>
      intro v h
      apply readsBack_scalar hooks _ _ h
      · rintro items rfl
        exact h
      · rintro fields rfl
        exact h
  | succ depth ih =>
      intro v h
      cases v with
      | arr items =>
          have hitems := fun v hv => ih (readable_of_mem h v hv)
          refine ⟨⟨'[', _, rfl, by decide⟩, fun rest _ => ?_⟩
          rw [Json.line, List.cons_append, List.cons_append, List.append_assoc]
          exact readArray_line hitems rest
      | obj fields =>
          have hfields := fun f hf => ih (readable_of_mem_fields h.2 f hf)
          refine ⟨⟨'{', _, rfl, by decide⟩, fun rest _ => ?_⟩
          rw [Json.line, List.cons_append, List.cons_append, List.append_assoc]
          exact readObject_line hfields h.1 rest
      | _ => exact readsBack_scalar hooks _ _ h (by simp) (by simp)

/-- `json.loads` returns the value that `json.dumps` wrote. -/
theorem loads_dumpsLine (hooks : Hooks V) (limits : Limits) {v : Json}
    (h : Readable limits.maxDigits limits.maxDepth v) :
    loads hooks limits (Json.dumpsLine FloatText.repr v).toList = .ok (build hooks v) := by
  obtain ⟨⟨c, cs, hline, hopens⟩, hvalue⟩ := readsBack_of_readable hooks h
  have hend : Numeral.Ends [] := fun _ h => nomatch h
  have hread := hvalue [] hend
  rw [List.append_nil] at hread
  have hmark : (Json.line FloatText.repr v).head? ≠ some byteOrderMark := by
    rw [hline, List.head?_cons, ne_eq, Option.some.injEq]
    exact hopens.2.2
  have hskip : skipSpace (Json.line FloatText.repr v) = Json.line FloatText.repr v := by
    rw [hline]
    exact skipSpace_cons hopens.1 cs
  rw [Json.dumpsLine, String.toList_ofList, loads, if_neg hmark, hskip, hread]
  rfl

/-- An object that ends inside a string is not read, whatever the fields before are. -/
theorem loads_truncated (hooks : Hooks V) (limits : Limits) {fields : List (String × Json)}
    (h : Readable limits.maxDigits limits.maxDepth (.obj fields)) (key : String)
    {s cut tail : List Char} (hcut : s.flatMap Json.escapeChar = cut ++ tail) :
    loads hooks limits ('{' :: (openFields fields ++
      ((Json.encodeString key).toList ++ ':' :: ' ' :: PyText.doubleQuote :: cut)))
      = .error .malformed := by
  obtain ⟨depth, hdepth⟩ := Nat.exists_eq_succ_of_ne_zero (Nat.ne_of_gt limits.maxDepth_pos)
  rw [hdepth, Nat.succ_eq_add_one] at h
  have hfields := fun f hf =>
    readsBack_of_readable hooks (readable_of_mem_fields h.2 f hf)
  obtain ⟨cs, hcs⟩ := openFields_append_quote fields
    (key.toList.flatMap Json.escapeChar ++ PyText.doubleQuote :: ':' :: ' ' ::
      PyText.doubleQuote :: cut)
  have htext : openFields fields ++
      ((Json.encodeString key).toList ++ ':' :: ' ' :: PyText.doubleQuote :: cut)
        = PyText.doubleQuote :: cs := by
    rw [← hcs, toList_encodeString]
    simp only [List.append_assoc, List.cons_append, List.nil_append]
  obtain ⟨fuel, hfuel⟩ : ∃ fuel, cs.length + 1 = fuel + 1 + fields.length := by
    refine ⟨cs.length - fields.length, ?_⟩
    have hlen := congrArg List.length hcs
    have hle := length_le_openFields fields
    simp only [List.length_append, List.length_cons] at hlen
    omega
  -- The reader of the last value does not find the end of its string.
  have hvalue : readValue hooks limits.maxDigits depth
      (skipSpace (' ' :: PyText.doubleQuote :: cut)) = .error .malformed := by
    rw [skipSpace_space, skipSpace_cons (by decide)]
    cases depth <;> rw [readValue, readNode, if_pos rfl, readString_truncated hcut] <;> rfl
  have hmembers : readMembers (S := String) (readValue hooks limits.maxDigits depth)
      (cs.length + 1) [] (PyText.doubleQuote :: cs) = .error .malformed := by
    have hkey := readKey_line key (' ' :: PyText.doubleQuote :: cut)
    rw [toList_encodeString, List.cons_append] at hkey
    simp only [List.append_assoc, List.cons_append, List.nil_append] at hkey
    rw [hfuel, ← hcs, readMembers_openFields hfields (fuel + 1) [] h.1, readMembers, hkey]
    dsimp only
    rw [hvalue]
  rw [htext, loads, if_neg (by simp [byteOrderMark]), skipSpace_cons (by decide), hdepth,
    Nat.succ_eq_add_one, readValue, readNode, if_neg (by decide), if_pos rfl, readObject_quote,
    hmembers]
  rfl

end Values

end JsonReader
