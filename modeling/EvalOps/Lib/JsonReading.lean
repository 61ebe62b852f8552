import EvalOps.Lib.JsonRoundTrip
import EvalOps.Lib.Trimming

/-!
# `EvalOps.Lib.JsonReading`: two readers of one text, and one reader of two texts

* `JsonReader.readValue_follows`: what one reader reads, a reader with other limits and other values
  reads as the corresponding value, unless it is stopped by its limits.
* `JsonReader.readValue_local`: a value is read the same in front of any text that does not continue
  a numeral, and an object in front of any text (`JsonReader.readObject_local`).
* `JsonReader.loads_cut`: the text of an object that is cut off is not JSON.
* `JsonReader.loads_of_readValue`: whitespace around the text of an object does not matter.
-/

set_option autoImplicit false

namespace JsonReader

variable {S V W : Type}

/-! ### Two readers of one text -/

/-- What `reader` reads, `other` reads as the corresponding value, or fails in one of some ways. -/
def Follows (f : V → W) (stops : ReadError → Prop) (reader : Reader V) (other : Reader W) : Prop :=
  ∀ cs v rest, reader cs = .ok (v, rest) →
    other cs = .ok (f v, rest) ∨ ∃ e, stops e ∧ other cs = .error e

/-- Values correspond when they are built alike. -/
structure Corresponds (f : V → W) (hooks : Builder S V) (other : Builder S W) : Prop where
  null : f hooks.null = other.null
  bool : ∀ b, f (hooks.bool b) = other.bool b
  int : ∀ n, f (hooks.int n) = other.int n
  float : ∀ x, f (hooks.float x) = other.float x
  str : ∀ s, f (hooks.str s) = other.str s
  arr : ∀ items, f (hooks.arr items) = other.arr (items.map f)
  obj : ∀ fields, f (hooks.obj fields) = other.obj (fields.map fun field => (field.1, f field.2))
  extended : hooks.extended = true → other.extended = true

variable {f : V → W} {stops : ReadError → Prop} {hooks : Builder S V} {other : Builder S W}

theorem constants_cases {hooks : Builder S V} {word : String × V} (h : word ∈ constants hooks) :
    word.1 ∈ ["null", "true", "false", "NaN", "Infinity", "-Infinity"] := by
  rw [constants, List.mem_append] at h
  rcases h with h | h
  · simp only [List.mem_cons, List.not_mem_nil, or_false] at h
    rcases h with rfl | rfl | rfl <;> simp
  · split at h
    · simp only [List.mem_cons, List.not_mem_nil, or_false] at h
      rcases h with rfl | rfl | rfl <;> simp
    · exact absurd h List.not_mem_nil

/-- The word at the front of a text is the only one. -/
theorem constants_unique {hooks : Builder S V} {word word' : String × V}
    (h : word ∈ constants hooks) (h' : word' ∈ constants hooks) {cs : List Char}
    (hcs : word.1.toList <+: cs) (hcs' : word'.1.toList <+: cs) : word = word' := by
  have hheads : ∀ a ∈ constants hooks, ∀ b ∈ constants hooks,
      a.1.toList.head? = b.1.toList.head? → a = b := by
    cases hext : hooks.extended <;> simp [constants, hext]
  have hne : ∀ text ∈ ["null", "true", "false", "NaN", "Infinity", "-Infinity"],
      text.toList ≠ [] := by simp
  have hhead : ∀ a ∈ constants hooks, a.1.toList <+: cs → a.1.toList.head? = cs.head? := by
    intro a ha hprefix
    obtain ⟨rest, rfl⟩ := hprefix
    rw [List.head?_append_of_ne_nil _ (hne _ (constants_cases ha))]
  exact hheads _ h _ h' ((hhead _ h hcs).trans (hhead _ h' hcs').symm)

/-- A word is read exactly when it stands at the front. -/
theorem readConstant_eq_some_iff {hooks : Builder S V} {cs rest : List Char} {v : V} :
    readConstant hooks cs = some (v, rest) ↔
      ∃ text, (text, v) ∈ constants hooks ∧ cs = text.toList ++ rest := by
  constructor
  · intro h
    obtain ⟨word, hword, heq⟩ := List.exists_of_findSome?_eq_some h
    split at heq
    · rename_i hprefix
      cases heq
      obtain ⟨rest, rfl⟩ := List.isPrefixOf_iff_prefix.mp hprefix
      exact ⟨word.1, hword, by rw [List.drop_left]⟩
    · cases heq
  · rintro ⟨text, hword, rfl⟩
    cases hread : readConstant hooks (text.toList ++ rest) with
    | none =>
        rw [readConstant, List.findSome?_eq_none_iff] at hread
        have hnone := hread _ hword
        rw [if_pos (List.isPrefixOf_iff_prefix.mpr (List.prefix_append _ _))] at hnone
        cases hnone
    | some r =>
        obtain ⟨word, hword', heq⟩ := List.exists_of_findSome?_eq_some hread
        split at heq
        · rename_i hprefix
          have hsame := constants_unique hword' hword (List.isPrefixOf_iff_prefix.mp hprefix)
            (List.prefix_append _ _)
          rw [← heq, hsame, List.drop_left]
        · cases heq

/-- No word starts a numeral. -/
theorem scan_constant {hooks : Builder S V} {word : String × V} (h : word ∈ constants hooks)
    (rest : List Char) : Numeral.scan (word.1.toList ++ rest) = none := by
  have hwords : ∀ text ∈ ["null", "true", "false", "NaN", "Infinity", "-Infinity"],
      ∀ rest, Numeral.scan (text.toList ++ rest) = none := by
    intro text htext rest
    simp only [List.mem_cons, List.not_mem_nil, or_false] at htext
    rcases htext with rfl | rfl | rfl | rfl | rfl | rfl <;> rfl
  exact hwords _ (constants_cases h) rest

theorem Corresponds.constants_mem (h : Corresponds f hooks other) {text : String} {v : V}
    (hword : (text, v) ∈ constants hooks) : (text, f v) ∈ constants other := by
  rw [constants, List.mem_append] at hword ⊢
  rcases hword with hword | hword
  · left
    simp only [List.mem_cons, List.not_mem_nil, or_false, Prod.mk.injEq] at hword ⊢
    rcases hword with ⟨rfl, rfl⟩ | ⟨rfl, rfl⟩ | ⟨rfl, rfl⟩ <;> simp [h.null, h.bool]
  · right
    split at hword
    · rename_i hext
      rw [if_pos (h.extended hext)]
      simp only [List.mem_cons, List.not_mem_nil, or_false, Prod.mk.injEq] at hword ⊢
      rcases hword with ⟨rfl, rfl⟩ | ⟨rfl, rfl⟩ | ⟨rfl, rfl⟩ <;> simp [h.float]
    · exact absurd hword List.not_mem_nil

theorem readNumber_follows (h : Corresponds f hooks other) {maxDigits maxDigits' : ℕ}
    (hdigits : maxDigits ≤ maxDigits' ∨ stops .tooManyDigits) :
    Follows f stops (readNumber hooks maxDigits) (readNumber other maxDigits') := by
  intro cs v rest hv
  unfold readNumber at hv ⊢
  cases hscan : Numeral.scan cs with
  | none =>
      rw [hscan] at hv
      cases hv
  | some r =>
      rw [hscan] at hv
      dsimp only at hv ⊢
      split at hv
      · rename_i hfloat
        cases hv
        rw [if_pos hfloat, h.float]
        exact Or.inl rfl
      · rename_i hfloat
        rw [if_neg hfloat]
        split at hv
        · cases hv
        · rename_i hlength
          cases hv
          by_cases hlength' : maxDigits' < r.1.whole.length
          · rw [if_pos hlength']
            exact Or.inr ⟨_, hdigits.resolve_left (by omega), rfl⟩
          · rw [if_neg hlength', h.int]
            exact Or.inl rfl

theorem readItems_follows {value : Reader V} {value' : Reader W}
    (hvalue : Follows f stops value value') (fuel : ℕ) (done : List V) :
    Follows (fun items => items.map f) stops (readItems value fuel done)
      (readItems value' fuel (done.map f)) := by
  induction fuel generalizing done with
  | zero =>
      intro cs items rest h
      cases h
  | succ fuel ih =>
      intro cs items rest h
      cases hv : value cs with
      | error e =>
          rw [readItems, hv] at h
          cases h
      | ok r =>
          rcases hvalue _ r.1 r.2 hv with hv' | ⟨e, he, hv'⟩
          · rw [readItems_succ hv] at h
            rw [readItems_succ hv', ← List.map_singleton, ← List.map_append]
            split at h
            · rename_i rest' hbracket
              cases h
              exact Or.inl rfl
            · rename_i rest' hcomma
              exact ih _ (skipSpace rest') items rest h
            · cases h
          · rw [readItems, hv']
            exact Or.inr ⟨e, he, rfl⟩

/-- Readers that follow each other still do when the results are put into containers. -/
theorem Follows.map {α β : Type} {g : α → β} {reader : Reader α} {reader' : Reader β}
    (h : Follows g stops reader reader') {F : α → V} {G : β → W} (hF : ∀ a, f (F a) = G (g a)) :
    Follows f stops (fun cs => (reader cs).map fun r => (F r.1, r.2))
      fun cs => (reader' cs).map fun r => (G r.1, r.2) := by
  intro cs v rest hv
  cases hr : reader cs with
  | error e =>
      simp only [hr] at hv
      cases hv
  | ok r =>
      simp only [hr] at hv
      cases hv
      dsimp only
      rcases h cs r.1 r.2 hr with hr' | ⟨e, he, hr'⟩
      · rw [hr', hF]
        exact Or.inl rfl
      · rw [hr']
        exact Or.inr ⟨e, he, rfl⟩

theorem readArray_follows (h : Corresponds f hooks other) {value : Reader V} {value' : Reader W}
    (hvalue : Follows f stops value value') :
    Follows f stops (readArray hooks value) (readArray other value') := by
  intro cs v rest hv
  unfold readArray at hv ⊢
  split at hv
  · rename_i rest' hbracket
    cases hv
    exact Or.inl (by rw [h.arr]; rfl)
  · exact ((readItems_follows hvalue (skipSpace cs).length []).map h.arr) _ v rest hv

variable [StringUnits S]

theorem readNode_follows (h : Corresponds f hooks other) {maxDigits maxDigits' : ℕ}
    (hdigits : maxDigits ≤ maxDigits' ∨ stops .tooManyDigits) {object array : Reader V}
    {object' array' : Reader W} (hobject : Follows f stops object object')
    (harray : Follows f stops array array') :
    Follows f stops (readNode hooks maxDigits object array)
      (readNode other maxDigits' object' array') := by
  intro cs v rest hv
  cases cs with
  | nil => cases hv
  | cons c cs =>
      rw [readNode] at hv ⊢
      split_ifs at hv ⊢
      · cases hs : (readString cs : Except ReadError (S × List Char)) with
        | error e =>
            rw [hs] at hv
            cases hv
        | ok r =>
            rw [hs] at hv
            cases hv
            exact Or.inl (by rw [h.str]; rfl)
      · exact hobject cs v rest hv
      · exact harray cs v rest hv
      · cases hword : readConstant hooks (c :: cs) with
        | some r =>
            rw [hword] at hv
            cases hv
            obtain ⟨text, hmem, htext⟩ := readConstant_eq_some_iff.mp hword
            rw [readConstant_eq_some_iff.mpr ⟨text, h.constants_mem hmem, htext⟩]
            exact Or.inl rfl
        | none =>
            rw [hword] at hv
            have hnumber := readNumber_follows h hdigits (c :: cs) v rest hv
            cases hword' : readConstant other (c :: cs) with
            | none => exact hnumber
            | some r =>
                -- A word is no numeral.
                obtain ⟨text, hmem, htext⟩ := readConstant_eq_some_iff.mp hword'
                unfold readNumber at hv
                rw [htext, scan_constant hmem] at hv
                cases hv

variable [DecidableEq S]

theorem readMembers_follows {value : Reader V} {value' : Reader W}
    (hvalue : Follows f stops value value') (fuel : ℕ) (done : List (S × V)) :
    Follows (fun fields => fields.map fun field => (field.1, f field.2)) stops
      (readMembers value fuel done)
      (readMembers value' fuel (done.map fun field => (field.1, f field.2))) := by
  induction fuel generalizing done with
  | zero =>
      intro cs members rest h
      cases h
  | succ fuel ih =>
      intro cs members rest h
      cases hkey : (readKey cs : Except ReadError (S × List Char)) with
      | error e =>
          rw [readMembers, hkey] at h
          cases h
      | ok r =>
          cases hv : value (skipSpace r.2) with
          | error e =>
              rw [readMembers, hkey] at h
              dsimp only at h
              rw [hv] at h
              cases h
          | ok r' =>
              rcases hvalue _ r'.1 r'.2 hv with hv' | ⟨e, he, hv'⟩
              · rw [readMembers_succ hkey hv] at h
                rw [readMembers_succ hkey hv', Dict.insertEntries_map]
                split at h
                · rename_i rest' hbrace
                  cases h
                  exact Or.inl rfl
                · rename_i rest' hcomma
                  exact ih _ (skipSpace rest') members rest h
                · cases h
              · rw [readMembers, hkey]
                dsimp only
                rw [hv']
                exact Or.inr ⟨e, he, rfl⟩

theorem readObject_follows (h : Corresponds f hooks other) {value : Reader V} {value' : Reader W}
    (hvalue : Follows f stops value value') :
    Follows f stops (readObject hooks value) (readObject other value') := by
  intro cs v rest hv
  unfold readObject at hv ⊢
  split at hv
  · rename_i rest' hbrace
    cases hv
    exact Or.inl (by rw [h.obj]; rfl)
  · exact ((readMembers_follows hvalue (skipSpace cs).length []).map h.obj) _ v rest hv

/-- What one reader reads, a reader with other limits reads as the corresponding value, unless its
limits stop it. -/
theorem readValue_follows (h : Corresponds f hooks other) {maxDigits maxDigits' depth depth' : ℕ}
    (hdigits : maxDigits ≤ maxDigits' ∨ stops .tooManyDigits)
    (hdepth : depth ≤ depth' ∨ stops .tooDeep) :
    Follows f stops (readValue hooks maxDigits depth) (readValue other maxDigits' depth') := by
  induction depth generalizing depth' with
  | zero =>
      have hnone : ∀ reader : Reader W, Follows f stops (fun _ => .error .tooDeep) reader :=
        fun reader cs v rest hv => by cases hv
      cases depth' with
      | zero => exact readNode_follows h hdigits (hnone _) (hnone _)
      | succ depth' => exact readNode_follows h hdigits (hnone _) (hnone _)
  | succ depth ih =>
      cases depth' with
      | zero =>
          have hstop : ∀ reader : Reader V, Follows f stops reader fun _ => .error .tooDeep :=
            fun reader cs v rest _ => Or.inr ⟨_, hdepth.resolve_left (by omega), rfl⟩
          exact readNode_follows h hdigits (hstop _) (hstop _)
      | succ depth' =>
          have hvalue := ih (hdepth.imp_left Nat.le_of_succ_le_succ)
          exact readNode_follows h hdigits (readObject_follows h hvalue)
            (readArray_follows h hvalue)

/-- What one reader reads as a whole text, the other one reads as the corresponding value, unless
its limits stop it. -/
theorem loads_follows (h : Corresponds f hooks other) {limits limits' : Limits}
    (hdigits : limits.maxDigits ≤ limits'.maxDigits ∨ stops .tooManyDigits)
    (hdepth : limits.maxDepth ≤ limits'.maxDepth ∨ stops .tooDeep) {cs : List Char} {v : V}
    (hv : loads hooks limits cs = .ok v) :
    loads other limits' cs = .ok (f v) ∨ ∃ e, stops e ∧ loads other limits' cs = .error e := by
  unfold loads at hv ⊢
  split_ifs at hv ⊢
  cases hr : readValue hooks limits.maxDigits limits.maxDepth (skipSpace cs) with
  | error e =>
      rw [hr] at hv
      cases hv
  | ok r =>
      rw [hr] at hv
      dsimp only at hv
      split at hv
      · rename_i hend
        cases hv
        rcases readValue_follows h hdigits hdepth _ r.1 r.2 hr with hr' | ⟨e, he, hr'⟩
        · rw [hr']
          exact Or.inl (if_pos hend)
        · rw [hr']
          exact Or.inr ⟨e, he, rfl⟩
      · cases hv

/-! ### One reader of two texts -/

/-- A reader does not look behind what it reads, except to see that it ends there: in front of any
text of some kind, it reads the same. -/
def Local (ends : List Char → Prop) (reader : Reader V) : Prop :=
  ∀ cs v rest, reader cs = .ok (v, rest) →
    ∃ core, cs = core ++ rest ∧ ∀ rest', ends rest' → reader (core ++ rest') = .ok (v, rest')

/-- Whitespace in front of something is the same in front of anything that begins like it. -/
theorem skipSpace_local {cs rest : List Char} (core : List Char) (h : skipSpace cs = core ++ rest)
    (hcore : core ≠ []) : ∃ spaces, cs = spaces ++ (core ++ rest) ∧
      ∀ rest', skipSpace (spaces ++ (core ++ rest')) = core ++ rest' := by
  obtain ⟨c, core, rfl⟩ := List.exists_cons_of_ne_nil hcore
  refine ⟨cs.takeWhile isSpace, ?_, fun rest' => ?_⟩
  · rw [← h, skipSpace, List.takeWhile_append_dropWhile]
  · have hc : isSpace c = false := by
      have hhead := List.head?_dropWhile_not isSpace cs
      rw [show cs.dropWhile isSpace = c :: (core ++ rest) from h] at hhead
      simpa using hhead
    rw [skipSpace, List.dropWhile_append_of_pos fun d hd => List.mem_takeWhile_imp hd,
      List.cons_append, List.dropWhile_cons_of_neg (by simp [hc])]

/-- A comma or a bracket behind whitespace does not continue a numeral. -/
theorem ends_of_skipSpace {cs rest : List Char} {c : Char} (h : skipSpace cs = c :: rest)
    (hc : c ∈ [',', '}', ']']) : Numeral.Ends cs := by
  cases cs with
  | nil => cases h
  | cons d cs =>
      have hends : ∀ d ∈ [',', '}', ']', ' ', Char.ofNat 9, Char.ofNat 10, Char.ofNat 13],
          d.isDigit = false ∧ d ≠ '.' ∧ d ≠ 'e' ∧ d ≠ 'E' := by
        simp only [List.forall_mem_cons, List.not_mem_nil, false_implies, implies_true, and_true]
        decide
      refine ends_cons (hends d ?_) cs
      by_cases hd : isSpace d = true
      · have hspace : d = ' ' ∨ d = Char.ofNat 9 ∨ d = Char.ofNat 10 ∨ d = Char.ofNat 13 := by
          simp only [isSpace, Bool.or_eq_true, beq_iff_eq] at hd
          rcases hd with ((hd | hd) | hd) | hd
          · exact Or.inl (Char.toNat_inj.mp hd)
          · exact Or.inr (Or.inl (Char.toNat_inj.mp hd))
          · exact Or.inr (Or.inr (Or.inl (Char.toNat_inj.mp hd)))
          · exact Or.inr (Or.inr (Or.inr (Char.toNat_inj.mp hd)))
        rcases hspace with rfl | rfl | rfl | rfl <;> simp
      · rw [skipSpace, List.dropWhile_cons_of_neg hd] at h
        cases h
        simp only [List.mem_cons, List.not_mem_nil, or_false] at hc
        rcases hc with rfl | rfl | rfl <;> simp

theorem readUnits_local (state : StringState) : Local (fun _ => True) (readUnits state) := by
  intro cs
  induction cs generalizing state with
  | nil =>
      intro units rest h
      cases state <;> cases h
  | cons c cs ih =>
      -- Whatever the state, the rest of the string is read from `cs`.
      have hnext : ∀ state', (∀ ds, readUnits state (c :: ds) = readUnits state' ds) →
          ∀ units rest, readUnits state (c :: cs) = .ok (units, rest) →
            ∃ core, c :: cs = core ++ rest ∧
              ∀ rest', True → readUnits state (core ++ rest') = .ok (units, rest') := by
        intro state' hstate units rest h
        rw [hstate] at h
        obtain ⟨core, hcore, hlocal⟩ := ih state' units rest h
        exact ⟨c :: core, by rw [hcore]; rfl, fun rest' _ => by
          rw [List.cons_append, hstate, hlocal rest' trivial]⟩
      have hcons : ∀ state' unit,
          (∀ ds, readUnits state (c :: ds) = consUnit unit (readUnits state' ds)) →
          ∀ units rest, readUnits state (c :: cs) = .ok (units, rest) →
            ∃ core, c :: cs = core ++ rest ∧
              ∀ rest', True → readUnits state (core ++ rest') = .ok (units, rest') := by
        intro state' unit hstate units rest h
        rw [hstate] at h
        obtain ⟨us, hus, rfl⟩ := consUnit_eq_ok h
        obtain ⟨core, hcore, hlocal⟩ := ih state' us rest hus
        exact ⟨c :: core, by rw [hcore]; rfl, fun rest' _ => by
          rw [List.cons_append, hstate, hlocal rest' trivial]; rfl⟩
      have herror : ∀ e, (∀ ds, readUnits state (c :: ds) = .error e) →
          ∀ units rest, readUnits state (c :: cs) = .ok (units, rest) →
            ∃ core, c :: cs = core ++ rest ∧
              ∀ rest', True → readUnits state (core ++ rest') = .ok (units, rest') := by
        intro e hstate units rest h
        rw [hstate] at h
        cases h
      cases state with
      | plain =>
          by_cases hquote : c = PyText.doubleQuote
          · intro units rest h
            rw [readUnits, if_pos hquote] at h
            cases h
            exact ⟨[c], rfl, fun rest' _ => by
              rw [List.singleton_append, readUnits, if_pos hquote]⟩
          · by_cases hbackslash : c = PyText.backslash
            · exact hnext .escape fun ds => by
                rw [readUnits, if_neg hquote, if_pos hbackslash]
            · by_cases hcontrol : c.toNat < 32
              · exact herror .malformed fun ds => by
                  rw [readUnits, if_neg hquote, if_neg hbackslash, if_pos hcontrol]
              · exact hcons .plain c.toNat fun ds => by
                  rw [readUnits, if_neg hquote, if_neg hbackslash, if_neg hcontrol]
      | escape =>
          by_cases hu : c = 'u'
          · exact hnext (.hex 3 0) fun ds => by rw [readUnits, if_pos hu]
          · cases he : unescape c with
            | none => exact herror .malformed fun ds => by rw [readUnits, if_neg hu, he]
            | some e => exact hcons .plain e.toNat fun ds => by rw [readUnits, if_neg hu, he]
      | hex left value =>
          cases hd : hexValue c with
          | none => exact herror .malformed fun ds => by rw [readUnits, hd]
          | some digit =>
              cases left with
              | zero => exact hcons .plain (value * 16 + digit) fun ds => by rw [readUnits, hd]
              | succ left =>
                  exact hnext (.hex left (value * 16 + digit)) fun ds => by rw [readUnits, hd]

omit [DecidableEq S] in
theorem readString_local : Local (fun _ => True) (readString : Reader S) := by
  intro cs v rest h
  unfold readString at h ⊢
  cases hunits : readUnits .plain cs with
  | error e =>
      rw [hunits] at h
      cases h
  | ok r =>
      rw [hunits] at h
      cases h
      obtain ⟨core, hcore, hlocal⟩ := readUnits_local .plain cs r.1 r.2 hunits
      exact ⟨core, hcore, fun rest' h => by rw [hlocal rest' h]; rfl⟩

omit [DecidableEq S] in
theorem readKey_local : Local (fun _ => True) (readKey : Reader S) := by
  intro cs key rest h
  cases cs with
  | nil => cases h
  | cons c cs =>
      rw [readKey] at h
      split at h
      · rename_i hquote
        cases hs : (readString cs : Except ReadError (S × List Char)) with
        | error e =>
            rw [hs] at h
            cases h
        | ok r =>
            rw [hs] at h
            dsimp only at h
            split at h
            · rename_i rest' hcolon
              cases h
              obtain ⟨core, hcore, hlocal⟩ := readString_local cs r.1 r.2 hs
              obtain ⟨spaces, hspaces, hskip⟩ :=
                skipSpace_local [':'] hcolon (List.cons_ne_nil _ _)
              refine ⟨c :: (core ++ (spaces ++ [':'])), ?_, fun rest' _ => ?_⟩
              · rw [hcore, hspaces]
                simp
              · have htext : c :: (core ++ (spaces ++ [':'])) ++ rest'
                    = c :: (core ++ (spaces ++ ([':'] ++ rest'))) := by simp
                rw [htext, readKey, if_pos hquote, hlocal _ trivial]
                dsimp only
                rw [hskip]
                rfl
            · cases h
      · cases h

omit [DecidableEq S] in
theorem readNode_local {hooks : Builder S V} {maxDigits : ℕ} {object array : Reader V}
    (hobject : Local (fun _ => True) object) (harray : Local (fun _ => True) array) :
    Local Numeral.Ends (readNode hooks maxDigits object array) := by
  intro cs v rest h
  cases cs with
  | nil => cases h
  | cons c cs =>
      rw [readNode] at h
      split_ifs at h with hquote hbrace hbracket
      · cases hs : (readString cs : Except ReadError (S × List Char)) with
        | error e =>
            rw [hs] at h
            cases h
        | ok r =>
            rw [hs] at h
            cases h
            obtain ⟨core, hcore, hlocal⟩ := readString_local cs r.1 r.2 hs
            refine ⟨c :: core, by rw [hcore]; rfl, fun rest' _ => ?_⟩
            rw [List.cons_append, readNode, if_pos hquote, hlocal rest' trivial]
            rfl
      · obtain ⟨core, hcore, hlocal⟩ := hobject cs v rest h
        refine ⟨c :: core, by rw [hcore]; rfl, fun rest' _ => ?_⟩
        rw [List.cons_append, readNode, if_neg hquote, if_pos hbrace, hlocal rest' trivial]
      · obtain ⟨core, hcore, hlocal⟩ := harray cs v rest h
        refine ⟨c :: core, by rw [hcore]; rfl, fun rest' _ => ?_⟩
        rw [List.cons_append, readNode, if_neg hquote, if_neg hbrace, if_pos hbracket,
          hlocal rest' trivial]
      · -- What is left is a word or a number. It begins with `c`, so it is read as one again.
        have hplain : ∀ {core : List Char} {r : V × List Char}, core ≠ [] →
            c :: cs = core ++ rest → ∀ rest',
              readConstant hooks (core ++ rest') = some r ∨
                (readConstant hooks (core ++ rest') = none ∧
                  readNumber hooks maxDigits (core ++ rest') = .ok r) →
              readNode hooks maxDigits object array (core ++ rest') = .ok r := by
          intro core r hne hcore rest' hr
          obtain ⟨d, core, rfl⟩ := List.exists_cons_of_ne_nil hne
          rw [List.cons_append] at hcore hr ⊢
          cases hcore
          rw [readNode, if_neg hquote, if_neg hbrace, if_neg hbracket]
          rcases hr with hr | ⟨hr, hnumber⟩
          · rw [hr]
          · rw [hr]
            exact hnumber
        cases hword : readConstant hooks (c :: cs) with
        | some r =>
            rw [hword] at h
            cases h
            obtain ⟨text, hmem, htext⟩ := readConstant_eq_some_iff.mp hword
            have hne : text.toList ≠ [] := by
              have hwords : ∀ w ∈ ["null", "true", "false", "NaN", "Infinity", "-Infinity"],
                  w.toList ≠ [] := by simp
              exact hwords _ (constants_cases hmem)
            exact ⟨text.toList, htext, fun rest' _ => hplain hne htext rest'
              (Or.inl (readConstant_eq_some_iff.mpr ⟨text, hmem, rfl⟩))⟩
        | none =>
            rw [hword] at h
            dsimp only at h
            have hshort := readNumber_consumes hooks maxDigits _ v rest h
            unfold readNumber at h
            cases hscan : Numeral.scan (c :: cs) with
            | none =>
                rw [hscan] at h
                cases h
            | some r =>
                rw [hscan] at h
                have hrest : r.2 = rest := by
                  dsimp only at h
                  split_ifs at h <;> cases h <;> rfl
                rw [← hrest] at hshort hplain ⊢
                obtain ⟨core, hcore, hlocal⟩ := Numeral.scan_local hscan
                have hne : core ≠ [] := by
                  rintro rfl
                  rw [hcore, List.nil_append] at hshort
                  exact Nat.lt_irrefl _ hshort
                refine ⟨core, hcore, fun rest' hends => hplain hne hcore rest' ?_⟩
                have hscan' := hlocal rest' hends
                cases hword' : readConstant hooks (core ++ rest') with
                | some r' =>
                    -- A word is no numeral.
                    obtain ⟨text, hmem, htext⟩ := readConstant_eq_some_iff.mp hword'
                    rw [htext, scan_constant hmem] at hscan'
                    cases hscan'
                | none =>
                    refine Or.inr ⟨rfl, ?_⟩
                    dsimp only at h
                    unfold readNumber
                    rw [hscan']
                    dsimp only
                    split_ifs at h ⊢
                    · cases h
                      rfl
                    · cases h
                      rfl

theorem readMembers_local {value : Reader V} (hvalue : Local Numeral.Ends value)
    (hconsumes : Consumes value) {fuel : ℕ} {done members : List (S × V)} {cs rest : List Char}
    (h : readMembers value fuel done cs = .ok (members, rest)) :
    ∃ core, cs = core ++ '}' :: rest ∧ ∀ rest' fuel', (core ++ '}' :: rest').length ≤ fuel' →
      readMembers value fuel' done (core ++ '}' :: rest') = .ok (members, rest') := by
  induction fuel generalizing done cs with
  | zero => cases h
  | succ fuel ih =>
      cases hkey : (readKey cs : Except ReadError (S × List Char)) with
      | error e =>
          rw [readMembers, hkey] at h
          cases h
      | ok r =>
          cases hv : value (skipSpace r.2) with
          | error e =>
              rw [readMembers, hkey] at h
              dsimp only at h
              rw [hv] at h
              cases h
          | ok r' =>
              obtain ⟨key, hcs, hkey'⟩ := readKey_local cs r.1 r.2 hkey
              obtain ⟨item, hitem, hv'⟩ := hvalue _ r'.1 r'.2 hv
              have hitem_ne : item ≠ [] := by
                have hshort := hconsumes _ r'.1 r'.2 hv
                rintro rfl
                rw [hitem, List.nil_append] at hshort
                exact Nat.lt_irrefl _ hshort
              have hkey_pos : 0 < key.length := by
                have hshort := readKey_consumes cs r.1 r.2 hkey
                rw [hcs, List.length_append] at hshort
                omega
              obtain ⟨spaces, hspaces, hskip⟩ := skipSpace_local _ hitem hitem_ne
              rw [readMembers_succ hkey hv] at h
              -- The key and the value are read again, up to what ends the value.
              have hvalue' : ∀ behind, Numeral.Ends behind →
                  value (skipSpace (spaces ++ (item ++ behind))) = .ok (r'.1, behind) := by
                intro behind hends
                rw [hskip]
                exact hv' behind hends
              split at h
              · rename_i rest' hbrace
                cases h
                obtain ⟨spaces', hspaces', hskip'⟩ :=
                  skipSpace_local ['}'] hbrace (List.cons_ne_nil _ _)
                refine ⟨key ++ (spaces ++ (item ++ spaces')), ?_, fun rest' fuel' hfuel => ?_⟩
                · rw [hcs, hspaces, hspaces']
                  simp
                · have htext : key ++ (spaces ++ (item ++ spaces')) ++ '}' :: rest'
                      = key ++ (spaces ++ (item ++ (spaces' ++ (['}'] ++ rest')))) := by simp
                  obtain ⟨fuel', rfl⟩ : ∃ n, fuel' = n + 1 := ⟨fuel' - 1, by
                    simp only [List.length_append, List.length_cons] at hfuel
                    omega⟩
                  have hends := ends_of_skipSpace (hskip' rest') (by simp)
                  rw [htext, readMembers_succ (hkey' _ trivial) (hvalue' _ hends), hskip']
                  rfl
              · rename_i after hcomma
                obtain ⟨core, hcore, hlocal⟩ := ih h
                have hcore_ne : core ++ ['}'] ≠ [] :=
                  List.append_ne_nil_of_right_ne_nil _ (List.cons_ne_nil _ _)
                rw [List.append_cons] at hcore
                obtain ⟨spaces', hspaces', hskip'⟩ :=
                  skipSpace_local [','] hcomma (List.cons_ne_nil _ _)
                obtain ⟨spaces'', hspaces'', hskip''⟩ := skipSpace_local _ hcore hcore_ne
                refine ⟨key ++ (spaces ++ (item ++ (spaces' ++ ([','] ++ (spaces'' ++ core))))),
                  ?_, fun rest' fuel' hfuel => ?_⟩
                · rw [hcs, hspaces, hspaces', hspaces'']
                  simp
                · have htext :
                      key ++ (spaces ++ (item ++ (spaces' ++ ([','] ++ (spaces'' ++ core)))))
                        ++ '}' :: rest' = key ++ (spaces ++ (item ++ (spaces' ++ ([','] ++
                          (spaces'' ++ (core ++ ['}'] ++ rest')))))) := by simp
                  have hlength := congrArg List.length htext
                  simp only [List.length_append, List.length_cons] at hlength hfuel
                  obtain ⟨fuel', rfl⟩ : ∃ n, fuel' = n + 1 := ⟨fuel' - 1, by omega⟩
                  have hends :=
                    ends_of_skipSpace (hskip' (spaces'' ++ (core ++ ['}'] ++ rest'))) (by simp)
                  rw [htext, readMembers_succ (hkey' _ trivial) (hvalue' _ hends), hskip']
                  show readMembers value fuel' _
                    (skipSpace (spaces'' ++ (core ++ ['}'] ++ rest'))) = _
                  rw [hskip'', ← List.append_cons]
                  exact hlocal rest' fuel' (by rw [List.length_append, List.length_cons]; omega)
              · cases h

theorem readItems_local {value : Reader V} (hvalue : Local Numeral.Ends value)
    (hconsumes : Consumes value) {fuel : ℕ} {done items : List V} {cs rest : List Char}
    (h : readItems value fuel done cs = .ok (items, rest)) :
    ∃ core, cs = core ++ rest ∧ ∀ rest' fuel', (core ++ rest').length ≤ fuel' →
      readItems value fuel' done (core ++ rest') = .ok (items, rest') := by
  induction fuel generalizing done cs with
  | zero => cases h
  | succ fuel ih =>
      cases hv : value cs with
      | error e =>
          rw [readItems, hv] at h
          cases h
      | ok r =>
          obtain ⟨item, hcs, hv'⟩ := hvalue _ r.1 r.2 hv
          have hitem_pos : 0 < item.length := by
            have hshort := hconsumes _ r.1 r.2 hv
            rw [hcs, List.length_append] at hshort
            omega
          rw [readItems_succ hv] at h
          split at h
          · rename_i rest' hbracket
            cases h
            obtain ⟨spaces, hspaces, hskip⟩ :=
              skipSpace_local [']'] hbracket (List.cons_ne_nil _ _)
            refine ⟨item ++ (spaces ++ [']']), ?_, fun rest' fuel' hfuel => ?_⟩
            · rw [hcs, hspaces]
              simp
            · have htext : item ++ (spaces ++ [']']) ++ rest'
                  = item ++ (spaces ++ ([']'] ++ rest')) := by simp
              obtain ⟨fuel', rfl⟩ : ∃ n, fuel' = n + 1 := ⟨fuel' - 1, by
                simp only [List.length_append, List.length_cons] at hfuel
                omega⟩
              rw [htext, readItems_succ (hv' _ (ends_of_skipSpace (hskip rest') (by simp))), hskip]
              rfl
          · rename_i after hcomma
            obtain ⟨core, hcore, hlocal⟩ := ih h
            have hcore_ne : core ≠ [] := by
              have hshort := readItems_consumes hconsumes fuel _ _ items rest h
              rintro rfl
              rw [hcore, List.nil_append] at hshort
              exact Nat.lt_irrefl _ hshort
            obtain ⟨spaces, hspaces, hskip⟩ :=
              skipSpace_local [','] hcomma (List.cons_ne_nil _ _)
            obtain ⟨spaces', hspaces', hskip'⟩ := skipSpace_local _ hcore hcore_ne
            refine ⟨item ++ (spaces ++ ([','] ++ (spaces' ++ core))), ?_,
              fun rest' fuel' hfuel => ?_⟩
            · rw [hcs, hspaces, hspaces']
              simp
            · have htext : item ++ (spaces ++ ([','] ++ (spaces' ++ core))) ++ rest'
                  = item ++ (spaces ++ ([','] ++ (spaces' ++ (core ++ rest')))) := by simp
              have hlength := congrArg List.length htext
              simp only [List.length_append, List.length_cons] at hlength hfuel
              obtain ⟨fuel', rfl⟩ : ∃ n, fuel' = n + 1 := ⟨fuel' - 1, by omega⟩
              have hends := ends_of_skipSpace (hskip (spaces' ++ (core ++ rest'))) (by simp)
              rw [htext, readItems_succ (hv' _ hends), hskip]
              show readItems value fuel' _ (skipSpace (spaces' ++ (core ++ rest'))) = _
              rw [hskip']
              exact hlocal rest' fuel' (by rw [List.length_append]; omega)
          · cases h

theorem readObject_cons (hooks : Builder S V) (value : Reader V) {cs ds : List Char} {d : Char}
    (h : skipSpace cs = d :: ds) (hd : d ≠ '}') :
    readObject hooks value cs =
      (readMembers value (d :: ds).length [] (d :: ds)).map fun r => (hooks.obj r.1, r.2) := by
  unfold readObject
  split
  · rename_i rest hbrace
    rw [h] at hbrace
    cases hbrace
    exact absurd rfl hd
  · rw [h]

omit [DecidableEq S] [StringUnits S] in
theorem readArray_cons (hooks : Builder S V) (value : Reader V) {cs ds : List Char} {d : Char}
    (h : skipSpace cs = d :: ds) (hd : d ≠ ']') :
    readArray hooks value cs =
      (readItems value (d :: ds).length [] (d :: ds)).map fun r => (hooks.arr r.1, r.2) := by
  unfold readArray
  split
  · rename_i rest hbracket
    rw [h] at hbracket
    cases hbracket
    exact absurd rfl hd
  · rw [h]

/-- An object ends at its brace, and the reader does not look behind it. -/
theorem readObject_brace {hooks : Builder S V} {value : Reader V}
    (hvalue : Local Numeral.Ends value) (hconsumes : Consumes value) {cs rest : List Char} {v : V}
    (h : readObject hooks value cs = .ok (v, rest)) :
    ∃ core, cs = core ++ '}' :: rest ∧
      ∀ rest', readObject hooks value (core ++ '}' :: rest') = .ok (v, rest') := by
  cases hspace : skipSpace cs with
  | nil =>
      unfold readObject at h
      rw [hspace] at h
      cases h
  | cons d ds =>
      by_cases hd : d = '}'
      · rw [hd] at hspace
        obtain ⟨spaces, hspaces, hskip⟩ :=
          skipSpace_local ['}'] hspace (List.cons_ne_nil _ _)
        unfold readObject at h
        rw [hspace] at h
        cases h
        refine ⟨spaces, by rw [hspaces]; simp, fun rest' => ?_⟩
        have hback : skipSpace (spaces ++ '}' :: rest') = '}' :: rest' := hskip rest'
        unfold readObject
        rw [hback]
        rfl
      · rw [readObject_cons hooks value hspace hd] at h
        cases hmembers : readMembers (S := S) value (d :: ds).length [] (d :: ds) with
        | error e =>
            rw [hmembers] at h
            cases h
        | ok r =>
            rw [hmembers] at h
            cases h
            obtain ⟨core, hcore, hlocal⟩ := readMembers_local hvalue hconsumes hmembers
            obtain ⟨core, rfl⟩ : ∃ tail, core = d :: tail := by
              cases core with
              | nil => exact absurd (List.cons.inj hcore).1 hd
              | cons e core =>
                  cases hcore
                  exact ⟨core, rfl⟩
            rw [hcore] at hspace
            obtain ⟨spaces, hspaces, hskip⟩ := skipSpace_local _ hspace (List.cons_ne_nil _ _)
            refine ⟨spaces ++ (d :: core), by rw [hspaces, List.append_assoc], fun rest' => ?_⟩
            have hback : skipSpace (spaces ++ (d :: core ++ '}' :: rest'))
                = d :: (core ++ '}' :: rest') := hskip _
            rw [List.append_assoc, readObject_cons hooks value hback hd]
            show (readMembers value (d :: core ++ '}' :: rest').length []
              (d :: core ++ '}' :: rest')).map _ = _
            rw [hlocal rest' _ le_rfl]
            rfl

theorem readObject_local {hooks : Builder S V} {value : Reader V}
    (hvalue : Local Numeral.Ends value) (hconsumes : Consumes value) :
    Local (fun _ => True) (readObject hooks value) := by
  intro cs v rest h
  obtain ⟨core, hcore, hlocal⟩ := readObject_brace hvalue hconsumes h
  rw [List.append_cons] at hcore
  refine ⟨core ++ ['}'], hcore, fun rest' _ => ?_⟩
  rw [← List.append_cons]
  exact hlocal rest'

omit [DecidableEq S] [StringUnits S] in
theorem readArray_local {hooks : Builder S V} {value : Reader V}
    (hvalue : Local Numeral.Ends value) (hconsumes : Consumes value) :
    Local (fun _ => True) (readArray hooks value) := by
  intro cs v rest h
  cases hspace : skipSpace cs with
  | nil =>
      unfold readArray at h
      rw [hspace] at h
      cases h
  | cons d ds =>
      by_cases hd : d = ']'
      · rw [hd] at hspace
        obtain ⟨spaces, hspaces, hskip⟩ :=
          skipSpace_local [']'] hspace (List.cons_ne_nil _ _)
        unfold readArray at h
        rw [hspace] at h
        cases h
        refine ⟨spaces ++ [']'], by rw [hspaces]; simp, fun rest' _ => ?_⟩
        unfold readArray
        rw [List.append_assoc, hskip]
        rfl
      · rw [readArray_cons hooks value hspace hd] at h
        cases hitems : readItems value (d :: ds).length [] (d :: ds) with
        | error e =>
            rw [hitems] at h
            cases h
        | ok r =>
            rw [hitems] at h
            cases h
            obtain ⟨core, hcore, hlocal⟩ := readItems_local hvalue hconsumes hitems
            obtain ⟨core, rfl⟩ : ∃ tail, core = d :: tail := by
              have hshort := readItems_consumes hconsumes _ _ _ r.1 r.2 hitems
              cases core with
              | nil =>
                  rw [hcore, List.nil_append] at hshort
                  exact absurd hshort (Nat.lt_irrefl _)
              | cons e core =>
                  cases hcore
                  exact ⟨core, rfl⟩
            rw [hcore] at hspace
            obtain ⟨spaces, hspaces, hskip⟩ := skipSpace_local _ hspace (List.cons_ne_nil _ _)
            refine ⟨spaces ++ (d :: core), by rw [hspaces, List.append_assoc], fun rest' _ => ?_⟩
            have hback : skipSpace (spaces ++ (d :: core ++ rest')) = d :: (core ++ rest') :=
              hskip rest'
            rw [List.append_assoc, readArray_cons hooks value hback hd]
            show (readItems value (d :: core ++ rest').length [] (d :: core ++ rest')).map _ = _
            rw [hlocal rest' _ le_rfl]
            rfl

/-- A value is read the same in front of any text that does not continue a numeral. -/
theorem readValue_local (hooks : Builder S V) (maxDigits depth : ℕ) :
    Local Numeral.Ends (readValue hooks maxDigits depth) := by
  induction depth with
  | zero =>
      have hnone : Local (fun _ => True) (fun _ => .error .tooDeep : Reader V) :=
        fun _ _ _ h => by cases h
      exact readNode_local hnone hnone
  | succ depth ih =>
      have hconsumes := readValue_consumes hooks maxDigits depth
      exact readNode_local (readObject_local ih hconsumes) (readArray_local ih hconsumes)

omit [StringUnits S] [DecidableEq S] in
/-- Values built by one builder correspond to themselves. -/
theorem corresponds_id (hooks : Builder S V) : Corresponds id hooks hooks where
  null := rfl
  bool _ := rfl
  int _ := rfl
  float _ := rfl
  str _ := rfl
  arr items := by rw [List.map_id]; rfl
  obj fields := by
    show hooks.obj fields = hooks.obj (fields.map id)
    rw [List.map_id]
  extended h := h

/-- The text of an object, from its brace to its brace, is read the same in front of any text. -/
theorem loads_object {hooks : Builder S V} {limits : Limits} {cs : List Char} {v : V}
    (h : loads hooks limits cs = .ok v) (hbrace : (skipSpace cs).head? = some '{') :
    ∃ core spaces, skipSpace cs = '{' :: (core ++ '}' :: spaces) ∧
      (∀ c ∈ spaces, isSpace c = true) ∧
      ∀ rest, readValue hooks limits.maxDigits limits.maxDepth ('{' :: (core ++ '}' :: rest))
        = .ok (v, rest) := by
  obtain ⟨cs', hcs⟩ := List.head?_eq_some_iff.mp hbrace
  unfold loads at h
  split at h
  · cases h
  · rw [hcs] at h
    cases hr : readValue hooks limits.maxDigits limits.maxDepth ('{' :: cs') with
    | error e =>
        rw [hr] at h
        cases h
    | ok r =>
        rw [hr] at h
        dsimp only at h
        split at h
        · rename_i hend
          cases h
          cases hdepth : limits.maxDepth with
          | zero => exact absurd limits.maxDepth_pos (by omega)
          | succ depth =>
              rw [hdepth, readValue, readNode, if_neg (by decide), if_pos rfl] at hr
              have hconsumes := readValue_consumes hooks limits.maxDigits depth
              obtain ⟨core, hcore, hlocal⟩ := readObject_brace
                (readValue_local hooks limits.maxDigits depth) hconsumes hr
              refine ⟨core, r.2, by rw [hcs, hcore], ?_, fun rest => ?_⟩
              · exact List.dropWhile_eq_nil_iff.mp (List.isEmpty_iff.mp hend)
              · rw [readValue, readNode, if_neg (by decide), if_pos rfl]
                exact hlocal rest
        · cases h

/-- Whitespace around the text of an object does not matter. -/
theorem loads_of_readValue {hooks : Builder S V} {limits : Limits} {core : List Char} {v : V}
    (h : ∀ rest, readValue hooks limits.maxDigits limits.maxDepth ('{' :: (core ++ '}' :: rest))
      = .ok (v, rest)) {u w : List Char} (hu : ∀ c ∈ u, isSpace c = true)
    (hw : ∀ c ∈ w, isSpace c = true) :
    loads hooks limits (u ++ '{' :: (core ++ '}' :: w)) = .ok v := by
  have hskip : skipSpace (u ++ '{' :: (core ++ '}' :: w)) = '{' :: (core ++ '}' :: w) := by
    rw [skipSpace, List.dropWhile_append_of_pos hu, List.dropWhile_cons_of_neg (by decide)]
  have hmark : (u ++ '{' :: (core ++ '}' :: w)).head? ≠ some byteOrderMark := by
    cases u with
    | nil => exact fun hhead => absurd (Option.some.inj hhead) (by decide)
    | cons c u =>
        intro hhead
        have hspace := hu c List.mem_cons_self
        rw [show c = byteOrderMark from Option.some.inj hhead] at hspace
        cases hspace
  have hend : (skipSpace w).isEmpty = true := by
    rw [skipSpace, List.dropWhile_eq_nil_iff.mpr hw]
    rfl
  rw [loads, if_neg hmark, hskip, h]
  exact if_pos hend

/-- The text of an object that is cut off is not JSON, whatever the limits. -/
theorem loads_cut {hooks : Builder S V} {limits limits' : Limits} {cut tail : List Char} {v v' : V}
    (hbrace : (skipSpace cut).head? = some '{') (htail : ∃ c ∈ tail, isSpace c = false)
    (h : loads hooks limits (cut ++ tail) = .ok v) : loads hooks limits' cut ≠ .ok v' := by
  intro hcut
  obtain ⟨core, spaces, hskip, _, hlocal⟩ := loads_object hcut hbrace
  have hskip' : skipSpace (cut ++ tail) = '{' :: (core ++ '}' :: (spaces ++ tail)) := by
    have hcut_ne : '{' :: (core ++ '}' :: spaces) ≠ [] := List.cons_ne_nil _ _
    have hskip_nil : skipSpace cut = '{' :: (core ++ '}' :: spaces) ++ [] := by simpa using hskip
    obtain ⟨front, hfront, hback⟩ := skipSpace_local _ hskip_nil hcut_ne
    rw [List.append_nil] at hfront
    rw [hfront, List.append_assoc, hback]
    simp
  unfold loads at h
  split at h
  · cases h
  · rw [hskip'] at h
    -- The whole text reads on behind the value that the cut text ends with.
    have hsame : readValue hooks limits.maxDigits limits.maxDepth
            ('{' :: (core ++ '}' :: (spaces ++ tail))) = .ok (id v', spaces ++ tail) ∨
        ∃ e, True ∧ readValue hooks limits.maxDigits limits.maxDepth
            ('{' :: (core ++ '}' :: (spaces ++ tail))) = .error e :=
      readValue_follows (corresponds_id hooks) (Or.inr trivial) (Or.inr trivial) _ v'
        (spaces ++ tail) (hlocal (spaces ++ tail))
    rcases hsame with hsame | ⟨e, _, he⟩
    · rw [hsame] at h
      dsimp only at h
      split at h
      · rename_i hend
        obtain ⟨c, hc, hspace⟩ := htail
        have hall := List.dropWhile_eq_nil_iff.mp (List.isEmpty_iff.mp hend) c
          (List.mem_append_right _ hc)
        rw [hspace] at hall
        cases hall
      · cases h
    · rw [he] at h
      cases h

/-- The value is of another kind than an object. -/
def IsOther (hooks : Builder S V) (v : V) : Prop :=
  v = hooks.null ∨ (∃ b, v = hooks.bool b) ∨ (∃ n, v = hooks.int n) ∨ (∃ x, v = hooks.float x) ∨
    (∃ s, v = hooks.str s) ∨ ∃ items, v = hooks.arr items

omit [StringUnits S] [DecidableEq S] in
theorem isOther_readArray {hooks : Builder S V} {value : Reader V} {cs rest : List Char} {v : V}
    (h : readArray hooks value cs = .ok (v, rest)) : IsOther hooks v := by
  unfold readArray at h
  split at h
  · cases h
    exact Or.inr (Or.inr (Or.inr (Or.inr (Or.inr ⟨[], rfl⟩))))
  · cases hitems : readItems value (skipSpace cs).length [] (skipSpace cs) with
    | error e =>
        rw [hitems] at h
        cases h
    | ok r =>
        rw [hitems] at h
        cases h
        exact Or.inr (Or.inr (Or.inr (Or.inr (Or.inr ⟨r.1, rfl⟩))))

omit [StringUnits S] [DecidableEq S] in
theorem isOther_constant {hooks : Builder S V} {word : String × V}
    (h : word ∈ constants hooks) : IsOther hooks word.2 := by
  rw [constants, List.mem_append] at h
  rcases h with h | h
  · simp only [List.mem_cons, List.not_mem_nil, or_false] at h
    rcases h with rfl | rfl | rfl
    · exact Or.inl rfl
    · exact Or.inr (Or.inl ⟨true, rfl⟩)
    · exact Or.inr (Or.inl ⟨false, rfl⟩)
  · split at h
    · simp only [List.mem_cons, List.not_mem_nil, or_false] at h
      rcases h with rfl | rfl | rfl <;> exact Or.inr (Or.inr (Or.inr (Or.inl ⟨_, rfl⟩)))
    · exact absurd h List.not_mem_nil

omit [StringUnits S] [DecidableEq S] in
theorem isOther_readNumber {hooks : Builder S V} {maxDigits : ℕ} {cs rest : List Char} {v : V}
    (h : readNumber hooks maxDigits cs = .ok (v, rest)) : IsOther hooks v := by
  unfold readNumber at h
  split at h
  · cases h
  · split_ifs at h
    · cases h
      exact Or.inr (Or.inr (Or.inr (Or.inl ⟨_, rfl⟩)))
    · cases h
      exact Or.inr (Or.inr (Or.inl ⟨_, rfl⟩))

omit [DecidableEq S] in
/-- What does not start with a brace is no object. -/
theorem isOther_readNode {hooks : Builder S V} {maxDigits : ℕ} {object array : Reader V}
    (harray : ∀ {cs rest v}, array cs = .ok (v, rest) → IsOther hooks v) {cs rest : List Char}
    {v : V} (h : readNode hooks maxDigits object array cs = .ok (v, rest))
    (hbrace : cs.head? ≠ some '{') : IsOther hooks v := by
  cases cs with
  | nil => cases h
  | cons c cs =>
      rw [readNode] at h
      split_ifs at h with hquote hc hbracket
      · cases hs : (readString cs : Except ReadError (S × List Char)) with
        | error e =>
            rw [hs] at h
            cases h
        | ok r =>
            rw [hs] at h
            cases h
            exact Or.inr (Or.inr (Or.inr (Or.inr (Or.inl ⟨r.1, rfl⟩))))
      · exact absurd (by rw [hc]; rfl) hbrace
      · exact harray h
      · cases hword : readConstant hooks (c :: cs) with
        | some r =>
            rw [hword] at h
            cases h
            obtain ⟨text, hmem, _⟩ := readConstant_eq_some_iff.mp hword
            exact isOther_constant hmem
        | none =>
            rw [hword] at h
            exact isOther_readNumber h

/-- A text that is read as no other value starts with a brace. -/
theorem head_of_loads {hooks : Builder S V} {limits : Limits} {cs : List Char} {v : V}
    (h : loads hooks limits cs = .ok v) (hv : ¬IsOther hooks v) :
    (skipSpace cs).head? = some '{' := by
  by_contra hbrace
  unfold loads at h
  split at h
  · cases h
  · cases hr : readValue hooks limits.maxDigits limits.maxDepth (skipSpace cs) with
    | error e =>
        rw [hr] at h
        cases h
    | ok r =>
        rw [hr] at h
        dsimp only at h
        split at h
        · cases h
          refine hv ?_
          cases hdepth : limits.maxDepth with
          | zero => exact absurd limits.maxDepth_pos (by omega)
          | succ depth =>
              rw [hdepth, readValue] at hr
              exact isOther_readNode isOther_readArray hr hbrace
        · cases h

omit [StringUnits S] [DecidableEq S] in
/-- Between whitespace stands the text of an object, from its brace to its brace. -/
theorem trim_object {u core w : List Char} (hu : ∀ c ∈ u, isSpace c = true)
    (hw : ∀ c ∈ w, isSpace c = true) :
    Trimming.trim isSpace (u ++ '{' :: (core ++ '}' :: w)) = '{' :: (core ++ ['}']) :=
  Trimming.trim_between hu hw (by decide) (by decide)

/-- An object is read the same with other whitespace around it. -/
theorem loads_respace {hooks : Builder S V} {limits : Limits} {u core w : List Char} {v : V}
    (hu : ∀ c ∈ u, isSpace c = true) (hw : ∀ c ∈ w, isSpace c = true)
    (h : loads hooks limits (u ++ '{' :: (core ++ '}' :: w)) = .ok v) {u' w' : List Char}
    (hu' : ∀ c ∈ u', isSpace c = true) (hw' : ∀ c ∈ w', isSpace c = true) :
    loads hooks limits (u' ++ '{' :: (core ++ '}' :: w')) = .ok v := by
  have hskip : skipSpace (u ++ '{' :: (core ++ '}' :: w)) = '{' :: (core ++ '}' :: w) := by
    rw [skipSpace, List.dropWhile_append_of_pos hu, List.dropWhile_cons_of_neg (by decide)]
  obtain ⟨core', w'', hcore', hw'', hread⟩ := loads_object h (by rw [hskip]; rfl)
  have hsame : '{' :: (core ++ ['}']) = '{' :: (core' ++ ['}']) := by
    rw [← trim_object hu hw, ← trim_object hu hw'', ← hcore', hskip]
  rw [List.append_cancel_right (List.cons.inj hsame).2]
  exact loads_of_readValue hread hu' hw'

/-- The text of an object, between the whitespace around it. -/
theorem exists_object_of_loads {hooks : Builder S V} {limits : Limits} {cs : List Char} {v : V}
    (h : loads hooks limits cs = .ok v) (hv : ¬IsOther hooks v) :
    ∃ u core w, cs = u ++ '{' :: (core ++ '}' :: w) ∧ (∀ c ∈ u, isSpace c = true) ∧
      ∀ c ∈ w, isSpace c = true := by
  obtain ⟨core, w, hskip, hw, _⟩ := loads_object h (head_of_loads h hv)
  refine ⟨cs.takeWhile isSpace, core, w, ?_, fun c hc => List.mem_takeWhile_imp hc, hw⟩
  rw [← hskip, skipSpace, List.takeWhile_append_dropWhile]

end JsonReader
