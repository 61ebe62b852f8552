import EvalOps.Lib.JsonRoundTrip

/-!
# `EvalOps.Lib.JsonLayouts`: reading indented JSON

`json.dumps(value, indent=2)` puts the items of a container on lines of their own, and a reader
skips the space between the tokens. So what it writes is read back as the value
(`JsonReader.loads_dumps`), for every type of strings that has the texts.
-/

set_option autoImplicit false

namespace JsonReader

/-- Strings that have the texts among them. -/
class TextUnits (S : Type) extends StringUnits S where
  ofText : String → S
  ofUnits_text : ∀ cs : List Char, ofUnits (cs.flatMap charUnits) = ofText (String.ofList cs)
  ofText_injective : Function.Injective ofText

variable {S V : Type}

/-! ### Space -/

/-- The text is whitespace. -/
def Spaces (sp : List Char) : Prop := ∀ c ∈ sp, isSpace c = true

theorem skipSpace_append {sp : List Char} (h : Spaces sp) (cs : List Char) :
    skipSpace (sp ++ cs) = skipSpace cs := List.dropWhile_append_of_pos h

/-- Whitespace does not continue a numeral. -/
theorem ends_spaces {sp rest : List Char} (h : Spaces sp) (hrest : Numeral.Ends rest) :
    Numeral.Ends (sp ++ rest) := by
  cases sp with
  | nil => exact hrest
  | cons c sp =>
      have hspace := h c List.mem_cons_self
      refine ends_cons ?_ (sp ++ rest)
      simp only [isSpace, Bool.or_eq_true, beq_iff_eq] at hspace
      have hdigit : c.isDigit = false := by
        rw [Bool.eq_false_iff, ne_eq, Char.isDigit_iff_toNat]
        change ¬(48 ≤ c.toNat ∧ c.toNat ≤ 57)
        omega
      refine ⟨hdigit, ?_, ?_, ?_⟩ <;>
      · rintro rfl
        revert hspace
        decide

/-! ### Values -/

/-- The reader reads a value from a text, whatever follows the text. -/
structure Reads (value : Reader V) (cs : List Char) (v : V) : Prop where
  opens : ∃ c cs', cs = c :: cs' ∧ Opens c
  reads : ∀ rest, Numeral.Ends rest → value (cs ++ rest) = .ok (v, rest)

/-- There is no space in front of a value. -/
theorem Reads.skipSpace_append {value : Reader V} {cs : List Char} {v : V}
    (h : Reads value cs v) {sp : List Char} (hsp : Spaces sp) (rest : List Char) :
    skipSpace (sp ++ (cs ++ rest)) = cs ++ rest := by
  obtain ⟨c, cs', rfl, hopens⟩ := h.opens
  rw [JsonReader.skipSpace_append hsp, List.cons_append, skipSpace_cons hopens.1]

/-- The first of some texts comes first. -/
theorem intercalate_cons {α : Type} (sep t : List α) (ts : List (List α)) :
    ∃ tail, sep.intercalate (t :: ts) = t ++ tail := by
  cases ts with
  | nil => exact ⟨[], by rw [List.intercalate_singleton, List.append_nil]⟩
  | cons t' ts => exact ⟨_, by rw [List.intercalate_cons_cons, List.append_assoc]⟩

/-- The separators alone are as many as the texts behind the first. -/
theorem length_lt_intercalate (sp t : List Char) (ts : List (List Char)) (rest : List Char)
    (hrest : rest ≠ []) : ts.length < ((',' :: sp).intercalate (t :: ts) ++ rest).length := by
  have hlen : ∀ t : List Char, ts.length ≤ ((',' :: sp).intercalate (t :: ts)).length := by
    induction ts with
    | nil => exact fun t => Nat.zero_le _
    | cons t' ts ih =>
        intro t
        have hle := ih t'
        rw [List.intercalate_cons_cons]
        simp only [List.length_append, List.length_cons]
        omega
  have hle := hlen t
  have hpos := List.length_pos_iff.mpr hrest
  rw [List.length_append]
  omega

/-- The items of an array, each behind a comma and some space, are read after those before. -/
theorem readItems_layout {value : Reader V} {sp sp' : List Char} (hsp : Spaces sp)
    (hsp' : Spaces sp') {t : List Char} {ts : List (List Char)} {v : V} {vs : List V}
    (h : List.Forall₂ (Reads value) (t :: ts) (v :: vs)) {fuel : ℕ} (hfuel : ts.length < fuel)
    (done : List V) (rest : List Char) :
    readItems value fuel done ((',' :: sp).intercalate (t :: ts) ++ (sp' ++ ']' :: rest))
      = .ok (done ++ v :: vs, rest) := by
  induction ts generalizing t v vs fuel done with
  | nil =>
      obtain ⟨fuel, rfl⟩ := Nat.exists_eq_succ_of_ne_zero (Nat.ne_of_gt hfuel)
      obtain ⟨hv, hvs⟩ := List.forall₂_cons.mp h
      cases hvs
      rw [List.intercalate_singleton,
        readItems_succ (hv.reads _ (ends_spaces hsp' (ends_cons (by decide) rest))),
        JsonReader.skipSpace_append hsp', skipSpace_cons (by decide)]
      rfl
  | cons t' ts ih =>
      obtain ⟨fuel, rfl⟩ := Nat.exists_eq_succ_of_ne_zero (Nat.ne_of_gt (Nat.zero_lt_of_lt hfuel))
      obtain ⟨hv, hvs⟩ := List.forall₂_cons.mp h
      obtain ⟨v', vs, hv', _, rfl⟩ := List.forall₂_cons_left_iff.mp hvs
      have hlen : ts.length < fuel := by
        rw [List.length_cons] at hfuel
        omega
      have htext : (',' :: sp).intercalate (t :: t' :: ts) ++ (sp' ++ ']' :: rest)
          = t ++ ',' :: (sp ++ ((',' :: sp).intercalate (t' :: ts) ++ (sp' ++ ']' :: rest))) := by
        rw [List.intercalate_cons_cons]
        simp only [List.append_assoc, List.cons_append]
      have hskip : skipSpace (sp ++ ((',' :: sp).intercalate (t' :: ts) ++ (sp' ++ ']' :: rest)))
          = (',' :: sp).intercalate (t' :: ts) ++ (sp' ++ ']' :: rest) := by
        obtain ⟨tail, htail⟩ := intercalate_cons (',' :: sp) t' ts
        rw [htail, List.append_assoc]
        exact hv'.skipSpace_append hsp _
      rw [htext, readItems_succ (hv.reads _ (ends_cons (by decide) _)),
        skipSpace_cons (by decide)]
      show readItems value fuel _ (skipSpace (sp ++ _)) = _
      rw [hskip, ih hvs hlen, List.append_assoc]
      rfl

/-- An array is read when its items are. -/
theorem readArray_layout (hooks : Builder S V) {value : Reader V} {sp sp' : List Char}
    (hsp : Spaces sp) (hsp' : Spaces sp') {t : List Char} {ts : List (List Char)} {v : V}
    {vs : List V} (h : List.Forall₂ (Reads value) (t :: ts) (v :: vs)) (rest : List Char) :
    readArray hooks value (sp ++ ((',' :: sp).intercalate (t :: ts) ++ (sp' ++ ']' :: rest)))
      = .ok (hooks.arr (v :: vs), rest) := by
  obtain ⟨tail, htail⟩ := intercalate_cons (',' :: sp) t ts
  obtain ⟨hv, _⟩ := List.forall₂_cons.mp h
  have hskip := hv.skipSpace_append hsp (tail ++ (sp' ++ ']' :: rest))
  obtain ⟨c, cs, ht, hopens⟩ := hv.opens
  have hlen := length_lt_intercalate sp t ts (sp' ++ ']' :: rest) (by simp)
  have hitems := readItems_layout hsp hsp' h hlen [] rest
  rw [htail, List.append_assoc] at hitems ⊢
  unfold readArray
  rw [hskip]
  split
  · rename_i rest' heq
    rw [ht, List.cons_append] at heq
    cases heq
    exact absurd rfl hopens.2.1
  · rw [hitems]
    rfl

/-! ### Words and numbers -/

/-- A numeral starts like a value. -/
theorem opens_text {n : Numeral} (h : n.WellFormed) : ∃ c cs, n.text = c :: cs ∧ Opens c := by
  have hdigit : ∀ d : Char, d.isDigit = true → Opens d := by
    intro d hd
    have hbounds := Char.isDigit_iff_toNat.mp hd
    change 48 ≤ d.toNat ∧ d.toNat ≤ 57 at hbounds
    refine ⟨?_, ?_, ?_⟩
    · simp only [isSpace, Bool.or_eq_false_iff, beq_eq_false_iff_ne]
      omega
    · rintro rfl
      cases hd
    · rintro rfl
      cases hd
  obtain ⟨d, cs, hd, htext | htext⟩ := text_head h []
  · rw [List.append_nil] at htext
    exact ⟨d, cs, htext, hdigit d hd⟩
  · rw [List.append_nil] at htext
    exact ⟨'-', d :: cs, htext, by decide⟩

/-- A word for a value is read as the value. -/
theorem reads_constant [StringUnits S] (hooks : Builder S V) {maxDigits : ℕ}
    {object array : Reader V} {v : V} (c : Char) (cs : List Char) (hopens : Opens c)
    (hother : c ≠ PyText.doubleQuote ∧ c ≠ '{' ∧ c ≠ '[')
    (h : ∀ rest, readConstant hooks (c :: (cs ++ rest)) = some (v, rest)) :
    Reads (readNode hooks maxDigits object array) (c :: cs) v where
  opens := ⟨c, cs, rfl, hopens⟩
  reads rest _ := readNode_constant (h rest) hother.1 hother.2.1 hother.2.2

/-! ### Objects -/

section Objects

variable [TextUnits S]

/-- A string is read from its escapes, up to the closing quote. -/
theorem readString_text (s : String) (rest : List Char) :
    readString (s.toList.flatMap Json.escapeChar ++ PyText.doubleQuote :: rest)
      = .ok ((TextUnits.ofText s : S), rest) := by
  rw [readString, readUnits_escaped]
  show Except.ok ((StringUnits.ofUnits (s.toList.flatMap charUnits) : S), rest) = _
  rw [TextUnits.ofUnits_text, String.ofList_toList]

/-- A key and its colon are read. -/
theorem readKey_text (key : String) (rest : List Char) :
    readKey ((Json.encodeString key).toList ++ ':' :: rest)
      = .ok ((TextUnits.ofText key : S), rest) := by
  rw [toList_encodeString, List.cons_append, List.append_assoc, readKey, if_pos rfl,
    List.cons_append, List.nil_append, readString_text]
  dsimp only
  rw [skipSpace_cons (by decide)]
  rfl

/-- The text of a member. -/
def entryText (key : String) (cs : List Char) : List Char :=
  (Json.encodeString key).toList ++ ':' :: ' ' :: cs

/-- A member is read from its text. -/
def ReadsEntry (value : Reader V) (t : List Char) (field : String × V) : Prop :=
  ∃ cs, t = entryText field.1 cs ∧ Reads value cs field.2

/-- The text of a member starts with a quote. -/
theorem ReadsEntry.skipSpace_append {value : Reader V} {t : List Char} {field : String × V}
    (h : ReadsEntry value t field) {sp : List Char} (hsp : Spaces sp) (rest : List Char) :
    ∃ cs, t = PyText.doubleQuote :: cs ∧ skipSpace (sp ++ (t ++ rest)) = t ++ rest := by
  obtain ⟨cs, rfl, _⟩ := h
  rw [JsonReader.skipSpace_append hsp, entryText, toList_encodeString, List.cons_append,
    List.cons_append, skipSpace_cons (by decide)]
  exact ⟨_, rfl, rfl⟩

/-- A field with its key as a string that was read. -/
def readField (field : String × V) : S × V := (TextUnits.ofText field.1, field.2)

/-! ### The indented text -/

mutual

/-- The decoded value that a value is read as. -/
def ofJson (hooks : Builder S V) : Json → V
  | .null => hooks.null
  | .bool b => hooks.bool b
  | .int n => hooks.int n
  | .float x => hooks.float (.finite x)
  | .str s => hooks.str (TextUnits.ofText s)
  | .arr items => hooks.arr (ofJsonItems hooks items)
  | .obj fields => hooks.obj (ofJsonFields hooks fields)

/-- The decoded items. -/
def ofJsonItems (hooks : Builder S V) : List Json → List V
  | [] => []
  | item :: items => ofJson hooks item :: ofJsonItems hooks items

/-- The decoded fields. -/
def ofJsonFields (hooks : Builder S V) : List (String × Json) → List (S × V)
  | [] => []
  | (key, value) :: fields =>
      (TextUnits.ofText key, ofJson hooks value) :: ofJsonFields hooks fields

end

/-- The values without parts, whatever the readers of containers do. -/
theorem reads_scalar (hooks : Builder S V) {maxDigits depth : ℕ} (object array : Reader V)
    {v : Json} (h : Readable maxDigits depth v) (harr : ∀ items, v ≠ .arr items)
    (hobj : ∀ fields, v ≠ .obj fields) (level : ℕ) :
    Reads (readNode hooks maxDigits object array) (Json.dumpsAt FloatText.repr level v).toList
      (ofJson hooks v) := by
  cases v with
  | null =>
      have htext : (Json.dumpsAt FloatText.repr level .null).toList = ['n', 'u', 'l', 'l'] := by
        rw [Json.dumpsAt]
        rfl
      rw [htext]
      exact reads_constant hooks 'n' ['u', 'l', 'l'] (by decide) (by decide) fun rest => by
        simp [readConstant, constants, ofJson]
  | bool b =>
      cases b with
      | false =>
          have htext : (Json.dumpsAt FloatText.repr level (.bool false)).toList
              = ['f', 'a', 'l', 's', 'e'] := by
            rw [Json.dumpsAt]
            rfl
          rw [htext]
          exact reads_constant hooks 'f' ['a', 'l', 's', 'e'] (by decide) (by decide)
            fun rest => by simp [readConstant, constants, ofJson]
      | true =>
          have htext : (Json.dumpsAt FloatText.repr level (.bool true)).toList
              = ['t', 'r', 'u', 'e'] := by
            rw [Json.dumpsAt]
            rfl
          rw [htext]
          exact reads_constant hooks 't' ['r', 'u', 'e'] (by decide) (by decide)
            fun rest => by simp [readConstant, constants, ofJson]
  | int n =>
      have hform := Numeral.ofInt_wellFormed n
      have htext : (Json.dumpsAt FloatText.repr level (.int n)).toList
          = (Numeral.ofInt n).text := by
        rw [Json.dumpsAt, toList_toString_int]
      have hlen : ¬maxDigits < (Numeral.ofInt n).whole.length := not_lt.mpr h
      rw [htext]
      refine ⟨opens_text hform, fun rest hrest => ?_⟩
      rw [readNode_numeral hooks maxDigits object array hform hrest, if_neg hlen,
        Numeral.ofInt_intValue]
      rfl
  | float x =>
      have hdouble : PyFloat.IsDouble x := h
      have hform := FloatText.numeral_wellFormed hdouble
      have htext : (Json.dumpsAt FloatText.repr level (.float x)).toList
          = (FloatText.numeral x).text := by
        rw [Json.dumpsAt, FloatText.repr, String.toList_ofList]
      rw [htext]
      refine ⟨opens_text hform, fun rest hrest => ?_⟩
      rw [readNode_numeral hooks maxDigits object array hform hrest,
        if_pos (FloatText.numeral_isFloat x), FloatText.nearest_numeral hdouble]
      rfl
  | str s =>
      have htext : (Json.dumpsAt FloatText.repr level (.str s)).toList
          = PyText.doubleQuote :: (s.toList.flatMap Json.escapeChar ++ [PyText.doubleQuote]) := by
        rw [Json.dumpsAt, toList_encodeString]
      rw [htext]
      refine ⟨⟨_, _, rfl, by decide⟩, fun rest _ => ?_⟩
      rw [List.cons_append, List.append_assoc, readNode, if_pos rfl, List.cons_append,
        List.nil_append, readString_text]
      rfl
  | arr items => exact absurd rfl (harr items)
  | obj fields => exact absurd rfl (hobj fields)

theorem spaces_newline (level : ℕ) : Spaces (Json.newline level).toList := by
  intro c hc
  simp only [Json.newline, String.toList_append, String.toList_ofList, List.mem_append,
    List.mem_replicate] at hc
  rcases hc with hc | ⟨_, rfl⟩
  · have hnewline : c = '\n' := by simpa using hc
    rw [hnewline]
    decide
  · decide

/-- The texts of the fields are those of the members. -/
theorem dumpsFields_eq_map (level : ℕ) (fields : List (String × Json)) :
    Json.dumpsFields FloatText.repr level fields = fields.map fun f =>
      Json.encodeString f.1 ++ ": " ++ Json.dumpsAt FloatText.repr level f.2 := by
  induction fields with
  | nil => rfl
  | cons field fields ih =>
      rw [Json.dumpsFields, ih]
      rfl

theorem toList_entry (level : ℕ) (field : String × Json) :
    (Json.encodeString field.1 ++ ": " ++ Json.dumpsAt FloatText.repr level field.2).toList
      = entryText field.1 (Json.dumpsAt FloatText.repr level field.2).toList := by
  have hcolon : (": " : String).toList = [':', ' '] := rfl
  simp only [String.toList_append, hcolon, entryText, List.append_assoc, List.cons_append,
    List.nil_append]

/-- The characters of a container with items. -/
theorem toList_bracketed (level : ℕ) (opening closing t : String) (ts : List String) :
    (Json.bracketed level opening closing (t :: ts)).toList = opening.toList ++
      ((Json.newline (level + 1)).toList ++
        ((',' :: (Json.newline (level + 1)).toList).intercalate ((t :: ts).map String.toList) ++
          ((Json.newline level).toList ++ closing.toList))) := by
  have hcomma : ("," ++ Json.newline (level + 1)).toList
      = ',' :: (Json.newline (level + 1)).toList := by
    rw [String.toList_append]
    rfl
  rw [Json.bracketed, if_neg (by simp)]
  simp only [String.toList_append, String.toList_intercalate, hcomma, List.append_assoc]

/-- The items of an array are read when each of them is. -/
theorem forall₂_items (hooks : Builder S V) {value : Reader V} {level : ℕ} {items : List Json}
    (h : ∀ v ∈ items, Reads value (Json.dumpsAt FloatText.repr level v).toList (ofJson hooks v)) :
    List.Forall₂ (Reads value) ((Json.dumpsItems FloatText.repr level items).map String.toList)
      (ofJsonItems hooks items) := by
  induction items with
  | nil => exact List.Forall₂.nil
  | cons item items ih =>
      rw [Json.dumpsItems, List.map_cons, ofJsonItems]
      exact List.Forall₂.cons (h item List.mem_cons_self)
        (ih fun v hv => h v (List.mem_cons_of_mem item hv))

/-- The members of an object are read when each of their values is. -/
theorem forall₂_fields (hooks : Builder S V) {value : Reader V} {level : ℕ}
    {fields : List (String × Json)}
    (h : ∀ f ∈ fields, Reads value (Json.dumpsAt FloatText.repr level f.2).toList
      (ofJson hooks f.2)) :
    List.Forall₂ (ReadsEntry value)
      ((Json.dumpsFields FloatText.repr level fields).map String.toList)
      (fields.map fun f => (f.1, ofJson hooks f.2)) := by
  rw [dumpsFields_eq_map, List.map_map, List.forall₂_map_left_iff, List.forall₂_map_right_iff,
    List.forall₂_same]
  exact fun f hf => ⟨_, toList_entry level f, h f hf⟩

theorem ofJsonItems_eq_map (hooks : Builder S V) (items : List Json) :
    ofJsonItems hooks items = items.map (ofJson hooks) := by
  induction items with
  | nil => rfl
  | cons item items ih =>
      rw [ofJsonItems, ih]
      rfl

theorem ofJsonFields_eq_map (hooks : Builder S V) (fields : List (String × Json)) :
    ofJsonFields hooks fields = (fields.map fun f => (f.1, ofJson hooks f.2)).map readField := by
  induction fields with
  | nil => rfl
  | cons field fields ih =>
      rw [ofJsonFields, ih]
      rfl

/-! ### Members -/

variable [DecidableEq S]

/-- One turn of the loop over the members. -/
theorem readMembers_entry {value : Reader V} {t : List Char} {field : String × V}
    (h : ReadsEntry value t field) (fuel : ℕ) (done : List (S × V)) {rest : List Char}
    (hrest : Numeral.Ends rest) (hnew : (TextUnits.ofText field.1 : S) ∉ done.map Prod.fst) :
    readMembers value (fuel + 1) done (t ++ rest) =
      match skipSpace rest with
      | '}' :: rest => .ok (done ++ [readField field], rest)
      | ',' :: rest => readMembers value fuel (done ++ [readField field]) (skipSpace rest)
      | _ => .error .malformed := by
  obtain ⟨cs, rfl, hv⟩ := h
  have hvalue : value (skipSpace (' ' :: (cs ++ rest))) = .ok (field.2, rest) := by
    have hspace : Spaces [' '] := by simp [Spaces, isSpace]
    have hskip := hv.skipSpace_append hspace rest
    rw [List.singleton_append] at hskip
    rw [hskip]
    exact hv.reads rest hrest
  have htext : entryText field.1 cs ++ rest
      = (Json.encodeString field.1).toList ++ ':' :: ' ' :: (cs ++ rest) := by
    simp only [entryText, List.append_assoc, List.cons_append]
  rw [htext, readMembers_succ (readKey_text field.1 _) hvalue, Dict.insertEntries, if_neg hnew]
  rfl

/-- The members of an object, each behind a comma and some space, are read after those before. -/
theorem readMembers_layout {value : Reader V} {sp sp' : List Char} (hsp : Spaces sp)
    (hsp' : Spaces sp') {t : List Char} {ts : List (List Char)} {field : String × V}
    {fields : List (String × V)}
    (h : List.Forall₂ (ReadsEntry value) (t :: ts) (field :: fields)) {fuel : ℕ}
    (hfuel : ts.length < fuel) (done : List (S × V))
    (hkeys : (done ++ (field :: fields).map readField).map Prod.fst |>.Nodup)
    (rest : List Char) :
    readMembers value fuel done ((',' :: sp).intercalate (t :: ts) ++ (sp' ++ '}' :: rest))
      = .ok (done ++ (field :: fields).map readField, rest) := by
  have hnew : ∀ {done : List (S × V)} {field : String × V} {fields : List (String × V)},
      ((done ++ (field :: fields).map readField).map Prod.fst).Nodup →
        (TextUnits.ofText field.1 : S) ∉ done.map Prod.fst := by
    intro done field fields hkeys hmem
    rw [List.map_append, List.map_cons, List.map_cons] at hkeys
    exact (List.nodup_append.mp hkeys).2.2 _ hmem _ List.mem_cons_self rfl
  induction ts generalizing t field fields fuel done with
  | nil =>
      obtain ⟨fuel, rfl⟩ := Nat.exists_eq_succ_of_ne_zero (Nat.ne_of_gt hfuel)
      obtain ⟨hentry, hfields⟩ := List.forall₂_cons.mp h
      cases hfields
      rw [List.intercalate_singleton, readMembers_entry hentry fuel done
          (ends_spaces hsp' (ends_cons (by decide) rest)) (hnew hkeys),
        JsonReader.skipSpace_append hsp', skipSpace_cons (by decide)]
      rfl
  | cons t' ts ih =>
      obtain ⟨fuel, rfl⟩ := Nat.exists_eq_succ_of_ne_zero (Nat.ne_of_gt (Nat.zero_lt_of_lt hfuel))
      obtain ⟨hentry, hrest⟩ := List.forall₂_cons.mp h
      obtain ⟨field', fields, hentry', _, rfl⟩ := List.forall₂_cons_left_iff.mp hrest
      have hlen : ts.length < fuel := by
        rw [List.length_cons] at hfuel
        omega
      have htext : (',' :: sp).intercalate (t :: t' :: ts) ++ (sp' ++ '}' :: rest)
          = t ++ ',' :: (sp ++ ((',' :: sp).intercalate (t' :: ts) ++ (sp' ++ '}' :: rest))) := by
        rw [List.intercalate_cons_cons]
        simp only [List.append_assoc, List.cons_append]
      have hskip : skipSpace (sp ++ ((',' :: sp).intercalate (t' :: ts) ++ (sp' ++ '}' :: rest)))
          = (',' :: sp).intercalate (t' :: ts) ++ (sp' ++ '}' :: rest) := by
        obtain ⟨tail, htail⟩ := intercalate_cons (',' :: sp) t' ts
        rw [htail, List.append_assoc]
        obtain ⟨_, _, hskip⟩ := hentry'.skipSpace_append hsp (tail ++ (sp' ++ '}' :: rest))
        exact hskip
      have hkeys' : ((done ++ [readField field] ++ (field' :: fields).map readField).map
          Prod.fst).Nodup := by
        rw [List.append_assoc]
        exact hkeys
      rw [htext, readMembers_entry hentry fuel done (ends_cons (by decide) _) (hnew hkeys),
        skipSpace_cons (by decide)]
      show readMembers value fuel _ (skipSpace (sp ++ _)) = _
      rw [hskip, ih hrest hlen _ hkeys', List.append_assoc]
      rfl

/-- An object is read when its members are. -/
theorem readObject_layout (hooks : Builder S V) {value : Reader V} {sp sp' : List Char}
    (hsp : Spaces sp) (hsp' : Spaces sp') {t : List Char} {ts : List (List Char)}
    {field : String × V} {fields : List (String × V)}
    (h : List.Forall₂ (ReadsEntry value) (t :: ts) (field :: fields))
    (hkeys : ((field :: fields).map Prod.fst).Nodup) (rest : List Char) :
    readObject hooks value (sp ++ ((',' :: sp).intercalate (t :: ts) ++ (sp' ++ '}' :: rest)))
      = .ok (hooks.obj ((field :: fields).map readField), rest) := by
  obtain ⟨tail, htail⟩ := intercalate_cons (',' :: sp) t ts
  obtain ⟨hentry, _⟩ := List.forall₂_cons.mp h
  obtain ⟨cs, ht, hskip⟩ := hentry.skipSpace_append hsp (tail ++ (sp' ++ '}' :: rest))
  have hlen := length_lt_intercalate sp t ts (sp' ++ '}' :: rest) (by simp)
  have hkeys' : (([] ++ (field :: fields).map readField : List (S × V)).map Prod.fst).Nodup := by
    have hsame : ((field :: fields).map readField : List (S × V)).map Prod.fst
        = ((field :: fields).map Prod.fst).map TextUnits.ofText := by
      rw [List.map_map, List.map_map]
      rfl
    rw [List.nil_append, hsame]
    exact hkeys.map TextUnits.ofText_injective
  have hmembers := readMembers_layout hsp hsp' h hlen [] hkeys' rest
  rw [htail, List.append_assoc] at hmembers ⊢
  unfold readObject
  rw [hskip]
  split
  · rename_i rest' heq
    rw [ht, List.cons_append] at heq
    injection heq with hhead
    exact absurd hhead (by decide)
  · rw [hmembers]
    rfl

/-- A readable value is read from its indented text. -/
theorem reads_dumpsAt (hooks : Builder S V) {maxDigits : ℕ} :
    ∀ {depth : ℕ} {v : Json}, Readable maxDigits depth v → ∀ level,
      Reads (readValue hooks maxDigits depth) (Json.dumpsAt FloatText.repr level v).toList
        (ofJson hooks v) := by
  intro depth
  induction depth with
  | zero =>
      intro v h level
      apply reads_scalar hooks _ _ h
      · rintro items rfl
        exact h
      · rintro fields rfl
        exact h
  | succ depth ih =>
      intro v h level
      cases v with
      | arr items =>
          have hitems := forall₂_items hooks fun v hv => ih (readable_of_mem h v hv) (level + 1)
          cases items with
          | nil =>
              have htext : (Json.dumpsAt FloatText.repr level (.arr [])).toList = ['[', ']'] := by
                rw [Json.dumpsAt, Json.dumpsItems, Json.bracketed, if_pos List.isEmpty_nil]
                decide
              rw [htext]
              refine ⟨⟨'[', _, rfl, by decide⟩, fun rest _ => ?_⟩
              rfl
          | cons item items =>
              have htext := toList_bracketed level "[" "]"
                (Json.dumpsAt FloatText.repr (level + 1) item)
                (Json.dumpsItems FloatText.repr (level + 1) items)
              have hopen : ("[" : String).toList = ['['] := rfl
              have hclose : ("]" : String).toList = [']'] := rfl
              rw [hopen, hclose, List.singleton_append] at htext
              rw [Json.dumpsAt, Json.dumpsItems, htext]
              refine ⟨⟨'[', _, rfl, by decide⟩, fun rest _ => ?_⟩
              simp only [List.cons_append, List.append_assoc, List.nil_append]
              exact readArray_layout hooks (spaces_newline (level + 1)) (spaces_newline level)
                hitems rest
      | obj fields =>
          have hfields := forall₂_fields hooks fun f hf =>
            ih (readable_of_mem_fields h.2 f hf) (level + 1)
          cases fields with
          | nil =>
              have htext : (Json.dumpsAt FloatText.repr level (.obj [])).toList = ['{', '}'] := by
                rw [Json.dumpsAt, Json.dumpsFields, Json.bracketed, if_pos List.isEmpty_nil]
                decide
              rw [htext]
              refine ⟨⟨'{', _, rfl, by decide⟩, fun rest _ => ?_⟩
              rfl
          | cons field fields =>
              obtain ⟨key, v⟩ := field
              have htext := toList_bracketed level "\x7b" "\x7d"
                (Json.encodeString key ++ ": " ++ Json.dumpsAt FloatText.repr (level + 1) v)
                (Json.dumpsFields FloatText.repr (level + 1) fields)
              have hopen : ("\x7b" : String).toList = ['{'] := rfl
              have hclose : ("\x7d" : String).toList = ['}'] := rfl
              rw [hopen, hclose, List.singleton_append] at htext
              rw [Json.dumpsAt, Json.dumpsFields, htext]
              refine ⟨⟨'{', _, rfl, by decide⟩, fun rest _ => ?_⟩
              simp only [List.cons_append, List.append_assoc, List.nil_append]
              have hkeys : (((key, v) :: fields).map fun f => (f.1, ofJson hooks f.2)).map Prod.fst
                  |>.Nodup := by
                rw [List.map_map]
                exact h.1
              have hread := readObject_layout hooks (spaces_newline (level + 1))
                (spaces_newline level) hfields hkeys rest
              rw [ofJson, ofJsonFields_eq_map]
              exact hread
      | _ => exact reads_scalar hooks _ _ h (by simp) (by simp) level

/-- `json.loads` returns the value that `json.dumps` wrote with indentation, whatever the space
around it. -/
theorem loads_dumps (hooks : Builder S V) (limits : Limits) {v : Json}
    (h : Readable limits.maxDigits limits.maxDepth v) {sp : List Char} (hsp : Spaces sp) :
    loads hooks limits ((Json.dumps FloatText.repr v).toList ++ sp) = .ok (ofJson hooks v) := by
  obtain ⟨⟨c, cs, hcs, hopens⟩, hreads⟩ := reads_dumpsAt hooks h 0
  have hend : Numeral.Ends sp := by
    have hnil : Numeral.Ends [] := fun _ h => nomatch h
    simpa using ends_spaces hsp hnil
  have hread := hreads sp hend
  have hmark : ((Json.dumps FloatText.repr v).toList ++ sp).head? ≠ some byteOrderMark := by
    rw [Json.dumps, hcs, List.cons_append, List.head?_cons, ne_eq, Option.some.injEq]
    exact hopens.2.2
  have hskip : skipSpace ((Json.dumps FloatText.repr v).toList ++ sp)
      = (Json.dumpsAt FloatText.repr 0 v).toList ++ sp := by
    rw [Json.dumps, hcs, List.cons_append, skipSpace_cons hopens.1]
  have hrest : skipSpace sp = [] := by
    have h := skipSpace_append hsp []
    rwa [List.append_nil] at h
  rw [loads, if_neg hmark, hskip, hread]
  dsimp only
  rw [hrest]
  rfl

end Objects

/-! ### Carriage returns -/

/-- No character is a carriage return. -/
def NoReturn (cs : List Char) : Prop := ∀ c ∈ cs, c.toNat ≠ 13

theorem noReturn_of_all {cs : List Char} (h : cs.all (fun c => c.toNat != 13) = true) :
    NoReturn cs := fun c hc => by
  simpa using List.all_eq_true.mp h c hc

theorem noReturn_append {cs ds : List Char} :
    NoReturn (cs ++ ds) ↔ NoReturn cs ∧ NoReturn ds := List.forall_mem_append

theorem noReturn_cons {c : Char} {cs : List Char} :
    NoReturn (c :: cs) ↔ c.toNat ≠ 13 ∧ NoReturn cs := List.forall_mem_cons

theorem noReturn_intercalate {sep : List Char} (hsep : NoReturn sep) {ts : List (List Char)}
    (hts : ∀ t ∈ ts, NoReturn t) : NoReturn (sep.intercalate ts) := by
  induction ts with
  | nil => exact fun c hc => absurd hc List.not_mem_nil
  | cons t ts ih =>
      have hrest := ih fun t' ht' => hts t' (List.mem_cons_of_mem t ht')
      cases ts with
      | nil =>
          rw [List.intercalate_singleton]
          exact hts t List.mem_cons_self
      | cons t' ts =>
          rw [List.intercalate_cons_cons, noReturn_append, noReturn_append]
          exact ⟨⟨hts t List.mem_cons_self, hsep⟩, hrest⟩

/-- The escapes of a character are printable. -/
theorem noReturn_escapeChar (c : Char) : NoReturn (Json.escapeChar c) := by
  have hdigit : ∀ d < 16, (PyText.hexDigit d).toNat ≠ 13 := fun d hd => by
    have hall : ∀ d : Fin 16, (PyText.hexDigit d).toNat ≠ 13 := by decide
    exact hall ⟨d, hd⟩
  have hunit : ∀ n < 0x10000, NoReturn (Json.escapeUnit n) := by
    intro n hn
    simp only [NoReturn, Json.escapeUnit, List.forall_mem_cons]
    exact ⟨by decide, by decide, hdigit _ (by omega), hdigit _ (by omega), hdigit _ (by omega),
      hdigit _ (by omega), fun d hd => absurd hd List.not_mem_nil⟩
  have hletter : ∀ d, d.toNat ≠ 13 → NoReturn [PyText.backslash, d] := fun d hd =>
    noReturn_cons.mpr ⟨by decide, noReturn_cons.mpr ⟨hd, fun e he => absurd he List.not_mem_nil⟩⟩
  have hbounds := toNat_bounds c
  unfold Json.escapeChar
  dsimp only
  split_ifs with hquote
  · -- A quote or a backslash, behind a backslash.
    rcases hquote with rfl | rfl
    · exact hletter '"' (by decide)
    · exact hletter PyText.backslash (by decide)
  · exact hletter 'n' (by decide)
  · exact hletter 'r' (by decide)
  · exact hletter 't' (by decide)
  · exact hletter 'f' (by decide)
  · exact hletter 'b' (by decide)
  · exact noReturn_cons.mpr ⟨by omega, fun d hd => absurd hd List.not_mem_nil⟩
  · exact hunit _ (by omega)
  · exact noReturn_append.mpr ⟨hunit _ (by omega), hunit _ (by omega)⟩

theorem noReturn_encodeString (s : String) : NoReturn (Json.encodeString s).toList := by
  rw [toList_encodeString, noReturn_cons, noReturn_append]
  refine ⟨by decide, fun d hd => ?_, noReturn_of_all (by decide)⟩
  obtain ⟨c, _, hd⟩ := List.mem_flatMap.mp hd
  exact noReturn_escapeChar c d hd

theorem noReturn_text {n : Numeral} (h : n.WellFormed) : NoReturn n.text := by
  intro c hc
  rcases h.mem_text hc with hdigit | hmark
  · have hbounds := Char.isDigit_iff_toNat.mp hdigit
    change 48 ≤ c.toNat ∧ c.toNat ≤ 57 at hbounds
    omega
  · have hall : NoReturn ['-', '+', '.', 'e'] := noReturn_of_all (by decide)
    exact hall c hmark

theorem noReturn_newline (level : ℕ) : NoReturn (Json.newline level).toList := by
  intro c hc
  have hspace := spaces_newline level c hc
  simp only [Json.newline, String.toList_append, String.toList_ofList, List.mem_append,
    List.mem_replicate] at hc
  rcases hc with hc | ⟨_, rfl⟩
  · have hnewline : c = '\n' := by simpa using hc
    rw [hnewline]
    decide
  · decide

theorem noReturn_bracketed {level : ℕ} {opening closing : String} {ts : List String}
    (hopening : NoReturn opening.toList) (hclosing : NoReturn closing.toList)
    (hts : ∀ t ∈ ts, NoReturn t.toList) :
    NoReturn (Json.bracketed level opening closing ts).toList := by
  cases ts with
  | nil =>
      rw [Json.bracketed, if_pos List.isEmpty_nil, String.toList_append, noReturn_append]
      exact ⟨hopening, hclosing⟩
  | cons t ts =>
      rw [toList_bracketed]
      simp only [noReturn_append]
      refine ⟨hopening, noReturn_newline _, ?_, noReturn_newline _, hclosing⟩
      refine noReturn_intercalate (noReturn_cons.mpr ⟨by decide, noReturn_newline _⟩) ?_
      intro cs hcs
      obtain ⟨t', ht', rfl⟩ := List.mem_map.mp hcs
      exact hts t' ht'

/-- The values without parts. -/
theorem noReturn_scalar {maxDigits depth : ℕ} {v : Json} (h : Readable maxDigits depth v)
    (harr : ∀ items, v ≠ .arr items) (hobj : ∀ fields, v ≠ .obj fields) (level : ℕ) :
    NoReturn (Json.dumpsAt FloatText.repr level v).toList := by
  cases v with
  | null =>
      rw [Json.dumpsAt]
      exact noReturn_of_all (by decide)
  | bool b =>
      rw [Json.dumpsAt]
      cases b with
      | false => exact noReturn_of_all (by decide)
      | true => exact noReturn_of_all (by decide)
  | int n =>
      rw [Json.dumpsAt, toList_toString_int]
      exact noReturn_text (Numeral.ofInt_wellFormed n)
  | float x =>
      have hdouble : PyFloat.IsDouble x := h
      rw [Json.dumpsAt, FloatText.repr, String.toList_ofList]
      exact noReturn_text (FloatText.numeral_wellFormed hdouble)
  | str s =>
      rw [Json.dumpsAt]
      exact noReturn_encodeString s
  | arr items => exact absurd rfl (harr items)
  | obj fields => exact absurd rfl (hobj fields)

/-- The indented text of a readable value has no carriage return. -/
theorem noReturn_dumpsAt {maxDigits : ℕ} :
    ∀ {depth : ℕ} {v : Json}, Readable maxDigits depth v → ∀ level,
      NoReturn (Json.dumpsAt FloatText.repr level v).toList := by
  intro depth
  induction depth with
  | zero =>
      intro v h level
      apply noReturn_scalar h
      · rintro items rfl
        exact h
      · rintro fields rfl
        exact h
  | succ depth ih =>
      intro v h level
      cases v with
      | arr items =>
          have hitems := readable_of_mem h
          rw [Json.dumpsAt]
          refine noReturn_bracketed (noReturn_of_all (by decide)) (noReturn_of_all (by decide)) ?_
          clear h
          induction items with
          | nil => exact fun t ht => absurd ht List.not_mem_nil
          | cons item items ihs =>
              rw [Json.dumpsItems, List.forall_mem_cons]
              exact ⟨ih (hitems item List.mem_cons_self) _,
                ihs fun v hv => hitems v (List.mem_cons_of_mem item hv)⟩
      | obj fields =>
          rw [Json.dumpsAt, dumpsFields_eq_map]
          refine noReturn_bracketed (noReturn_of_all (by decide)) (noReturn_of_all (by decide))
            fun t ht => ?_
          obtain ⟨f, hf, rfl⟩ := List.mem_map.mp ht
          rw [toList_entry, entryText, noReturn_append, noReturn_cons, noReturn_cons]
          exact ⟨noReturn_encodeString f.1, by decide, by decide,
            ih (readable_of_mem_fields h.2 f hf) _⟩
      | _ => exact noReturn_scalar h (by simp) (by simp) level

end JsonReader
