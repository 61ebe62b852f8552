import Mathlib.Algebra.Order.Field.Rat
import Mathlib.Data.List.TakeWhile

/-!
# `EvalOps.Lib.Numerals`: decimal numerals

A `Numeral` is the text of a number in the grammar of JSON: a sign, the digits before the point,
those after it, and an exponent. `Numeral.scan` reads the longest numeral at the front of a text,
and `Numeral.text` writes one.

* `Numeral.scan_text`: a well-formed numeral is read back, with the text after it left over.
* `Numeral.scan_length_lt`: reading a numeral consumes at least one character.
* `Numeral.scan_local`: a numeral is the same in front of any text that does not continue it.
-/

set_option autoImplicit false

/-- The parts of a decimal numeral. The exponent has a sign, which is set when it is negative. -/
structure Numeral where
  negative : Bool
  whole : List Char
  fraction : List Char
  exponent : Option (Bool × List Char)
deriving DecidableEq

namespace Numeral

/-! ### Values and texts -/

/-- The numeral has a fraction or an exponent. -/
def isFloat (n : Numeral) : Bool := !n.fraction.isEmpty || n.exponent.isSome

/-- The number that the exponent denotes. -/
def exponentValue (n : Numeral) : ℤ :=
  match n.exponent with
  | none => 0
  | some (negative, digits) =>
      if negative then -(Nat.ofDigitChars 10 digits 0 : ℤ) else Nat.ofDigitChars 10 digits 0

/-- The number that a numeral without fraction and exponent denotes. -/
def intValue (n : Numeral) : ℤ :=
  if n.negative then -(Nat.ofDigitChars 10 n.whole 0 : ℤ) else Nat.ofDigitChars 10 n.whole 0

/-- The number that a numeral denotes. -/
def value (n : Numeral) : ℚ :=
  let magnitude : ℚ := Nat.ofDigitChars 10 (n.whole ++ n.fraction) 0 *
    10 ^ (n.exponentValue - n.fraction.length)
  if n.negative then -magnitude else magnitude

/-- A minus in front of a numeral without a sign. -/
theorem value_neg {n : Numeral} (h : n.negative = false) :
    { n with negative := true }.value = -n.value := by
  unfold value
  rw [h]
  rfl

theorem isFloat_of_fraction_ne_nil {n : Numeral} (h : n.fraction ≠ []) : n.isFloat = true := by
  rw [isFloat, List.isEmpty_eq_false_iff.mpr h]
  rfl

/-- The fraction, after its point. -/
def fractionText (fraction : List Char) : List Char :=
  if fraction.isEmpty then [] else '.' :: fraction

/-- The exponent, after its mark. -/
def exponentText : Option (Bool × List Char) → List Char
  | none => []
  | some (negative, digits) => 'e' :: (if negative then '-' else '+') :: digits

/-- The text of a numeral. -/
def text (n : Numeral) : List Char :=
  (if n.negative then ['-'] else []) ++ n.whole ++ fractionText n.fraction ++
    exponentText n.exponent

/-! ### Scanning -/

/-- A sign at the front, which is set when it is a minus. -/
def scanMinus : List Char → Bool × List Char
  | '-' :: cs => (true, cs)
  | cs => (false, cs)

/-- The digits before the point: a single zero, or digits that do not start with a zero. -/
def scanWhole : List Char → Option (List Char × List Char)
  | '0' :: cs => some (['0'], cs)
  | cs =>
      if (cs.takeWhile Char.isDigit).isEmpty then none
      else some (cs.takeWhile Char.isDigit, cs.dropWhile Char.isDigit)

/-- A point and the digits after it. A point without a digit is not part of the numeral. -/
def scanFraction (cs : List Char) : List Char × List Char :=
  match cs with
  | '.' :: rest =>
      if (rest.takeWhile Char.isDigit).isEmpty then ([], cs)
      else (rest.takeWhile Char.isDigit, rest.dropWhile Char.isDigit)
  | _ => ([], cs)

/-- The sign of an exponent. -/
def scanSign : List Char → Bool × List Char
  | '-' :: cs => (true, cs)
  | '+' :: cs => (false, cs)
  | cs => (false, cs)

/-- An exponent. A mark without a digit is not part of the numeral. -/
def scanExponent (cs : List Char) : Option (Bool × List Char) × List Char :=
  match cs with
  | mark :: rest =>
      if mark = 'e' ∨ mark = 'E' then
        let (negative, digits) := scanSign rest
        if (digits.takeWhile Char.isDigit).isEmpty then (none, cs)
        else (some (negative, digits.takeWhile Char.isDigit), digits.dropWhile Char.isDigit)
      else (none, cs)
  | [] => (none, cs)

/-- The longest numeral at the front of a text, and the rest of the text. -/
def scan (cs : List Char) : Option (Numeral × List Char) :=
  let (negative, cs) := scanMinus cs
  match scanWhole cs with
  | none => none
  | some (whole, cs) =>
      let (fraction, cs) := scanFraction cs
      let (exponent, cs) := scanExponent cs
      some (⟨negative, whole, fraction, exponent⟩, cs)

/-! ### Progress -/

theorem scanMinus_length_le (cs : List Char) : (scanMinus cs).2.length ≤ cs.length := by
  unfold scanMinus
  split <;> simp

theorem dropWhile_length_le (cs : List Char) :
    (cs.dropWhile Char.isDigit).length ≤ cs.length :=
  (List.dropWhile_sublist _).length_le

theorem scanWhole_length_lt {cs whole rest : List Char} (h : scanWhole cs = some (whole, rest)) :
    rest.length < cs.length := by
  unfold scanWhole at h
  split at h
  · cases h
    simp
  · split at h
    · cases h
    · rename_i hdigits
      cases h
      have hsplit := congrArg List.length
        (List.takeWhile_append_dropWhile (p := Char.isDigit) (l := cs))
      rw [List.length_append] at hsplit
      have hpos : 0 < (cs.takeWhile Char.isDigit).length := by
        rw [List.length_pos_iff]
        exact fun hnil => hdigits (by rw [hnil]; rfl)
      omega

theorem scanFraction_length_le (cs : List Char) : (scanFraction cs).2.length ≤ cs.length := by
  unfold scanFraction
  split
  · rename_i rest
    have := dropWhile_length_le rest
    split
    · simp
    · simp only [List.length_cons]
      omega
  · simp

theorem scanSign_length_le (cs : List Char) : (scanSign cs).2.length ≤ cs.length := by
  unfold scanSign
  split <;> simp

theorem scanExponent_length_le (cs : List Char) : (scanExponent cs).2.length ≤ cs.length := by
  unfold scanExponent
  split
  · rename_i mark rest
    have hsign := scanSign_length_le rest
    have hdrop := dropWhile_length_le (scanSign rest).2
    dsimp only
    split_ifs
    · simp
    · simp only [List.length_cons]
      omega
    · simp
  · simp

/-- A numeral takes up at least one character. -/
theorem scan_length_lt {cs rest : List Char} {n : Numeral} (h : scan cs = some (n, rest)) :
    rest.length < cs.length := by
  unfold scan at h
  have hminus := scanMinus_length_le cs
  dsimp only at h
  split at h
  · cases h
  · rename_i whole rest' hwhole
    cases h
    have hlt := scanWhole_length_lt hwhole
    have hfraction := scanFraction_length_le rest'
    have hexponent := scanExponent_length_le (scanFraction rest').2
    omega

theorem scanWhole_length_le {cs whole rest : List Char} (h : scanWhole cs = some (whole, rest)) :
    whole.length ≤ cs.length := by
  unfold scanWhole at h
  split at h
  · cases h
    simp
  · split at h
    · cases h
    · cases h
      exact (List.takeWhile_sublist _).length_le

/-- The whole part of a numeral is a part of the text. -/
theorem whole_length_le {cs rest : List Char} {n : Numeral} (h : scan cs = some (n, rest)) :
    n.whole.length ≤ cs.length := by
  unfold scan at h
  have hminus := scanMinus_length_le cs
  dsimp only at h
  split at h
  · cases h
  · rename_i whole rest' hwhole
    cases h
    have hle := scanWhole_length_le hwhole
    dsimp only
    omega

/-! ### Round trip -/

/-- The digits are digits. -/
def Digits (ds : List Char) : Prop := ∀ c ∈ ds, c.isDigit = true

/-- The numeral is one that `scan` returns: a whole part without a leading zero, and an exponent
with a digit. -/
structure WellFormed (n : Numeral) : Prop where
  whole : n.whole = ['0'] ∨ (n.whole ≠ [] ∧ Digits n.whole ∧ n.whole.head? ≠ some '0')
  fraction : Digits n.fraction
  exponent : ∀ e, n.exponent = some e → e.2 ≠ [] ∧ Digits e.2

/-- The text does not continue a numeral. -/
def Ends (rest : List Char) : Prop :=
  ∀ c, rest.head? = some c → c.isDigit = false ∧ c ≠ '.' ∧ c ≠ 'e' ∧ c ≠ 'E'

theorem takeWhile_digits {ds rest : List Char} (hds : Digits ds)
    (hrest : ∀ c, rest.head? = some c → c.isDigit = false) :
    (ds ++ rest).takeWhile Char.isDigit = ds ∧ (ds ++ rest).dropWhile Char.isDigit = rest := by
  rw [List.takeWhile_append_of_pos hds, List.dropWhile_append_of_pos hds]
  cases rest with
  | nil => simp
  | cons c rest => simp [hrest c rfl]

theorem scanWhole_append {n : Numeral} (h : n.WellFormed) {rest : List Char}
    (hrest : ∀ c, rest.head? = some c → c.isDigit = false) :
    scanWhole (n.whole ++ rest) = some (n.whole, rest) := by
  rcases h.whole with hzero | ⟨hne, hdigits, hhead⟩
  · rw [hzero]
    rfl
  · obtain ⟨htake, hdrop⟩ := takeWhile_digits hdigits hrest
    unfold scanWhole
    split
    · rename_i cs heq
      cases hw : n.whole with
      | nil => exact absurd hw hne
      | cons c whole =>
          rw [hw, List.cons_append] at heq
          cases heq
          exact absurd (by rw [hw]; rfl) hhead
    · rw [htake, hdrop, if_neg (by simpa using hne)]

theorem scanFraction_point (rest : List Char) :
    scanFraction ('.' :: rest) =
      if (rest.takeWhile Char.isDigit).isEmpty then ([], '.' :: rest)
      else (rest.takeWhile Char.isDigit, rest.dropWhile Char.isDigit) := rfl

theorem scanExponent_mark (rest : List Char) :
    scanExponent ('e' :: rest) =
      if ((scanSign rest).2.takeWhile Char.isDigit).isEmpty then (none, 'e' :: rest)
      else (some ((scanSign rest).1, (scanSign rest).2.takeWhile Char.isDigit),
        (scanSign rest).2.dropWhile Char.isDigit) := rfl

theorem scanFraction_append {fraction rest : List Char} (h : Digits fraction)
    (hrest : ∀ c, rest.head? = some c → c.isDigit = false ∧ c ≠ '.') :
    scanFraction (fractionText fraction ++ rest) = (fraction, rest) := by
  obtain ⟨htake, hdrop⟩ := takeWhile_digits h fun c hc => (hrest c hc).1
  cases fraction with
  | nil =>
      unfold scanFraction
      split
      · rename_i rest' heq
        rw [fractionText, List.isEmpty_nil, if_pos rfl, List.nil_append] at heq
        exact absurd rfl ((hrest '.' (by rw [heq]; rfl)).2)
      · rfl
  | cons d ds =>
      show scanFraction ('.' :: (d :: ds ++ rest)) = _
      rw [scanFraction_point, htake, hdrop]
      rfl

theorem scanExponent_append {exponent : Option (Bool × List Char)}
    (h : ∀ e, exponent = some e → e.2 ≠ [] ∧ Digits e.2) {rest : List Char} (hrest : Ends rest) :
    scanExponent (exponentText exponent ++ rest) = (exponent, rest) := by
  cases exponent with
  | none =>
      cases rest with
      | nil => rfl
      | cons c rest =>
          obtain ⟨_, _, he, hE⟩ := hrest c rfl
          simp [scanExponent, exponentText, he, hE]
  | some e =>
      obtain ⟨negative, digits⟩ := e
      obtain ⟨hne, hdigits⟩ := h _ rfl
      obtain ⟨htake, hdrop⟩ := takeWhile_digits hdigits fun c hc => (hrest c hc).1
      have hsign : scanSign ((if negative then '-' else '+') :: (digits ++ rest))
          = (negative, digits ++ rest) := by
        cases negative <;> rfl
      show scanExponent ('e' :: (if negative then '-' else '+') :: (digits ++ rest)) = _
      rw [scanExponent_mark, hsign, htake, hdrop, if_neg (by simpa using hne)]

/-- A well-formed numeral starts with a digit after its sign. -/
theorem WellFormed.exists_whole {n : Numeral} (h : n.WellFormed) :
    ∃ c cs, n.whole = c :: cs ∧ c.isDigit = true := by
  rcases h.whole with hzero | ⟨hne, hdigits, _⟩
  · exact ⟨'0', [], hzero, by decide⟩
  · obtain ⟨c, cs, hw⟩ := List.exists_cons_of_ne_nil hne
    exact ⟨c, cs, hw, hdigits c (by rw [hw]; exact List.mem_cons_self)⟩

/-- The characters of a numeral. -/
theorem WellFormed.mem_text {n : Numeral} (h : n.WellFormed) {c : Char} (hc : c ∈ n.text) :
    c.isDigit = true ∨ c ∈ ['-', '+', '.', 'e'] := by
  have hwhole : ∀ d ∈ n.whole, d.isDigit = true := by
    rcases h.whole with hzero | ⟨_, hdigits, _⟩
    · rw [hzero]
      simp
    · exact hdigits
  simp only [text, List.mem_append] at hc
  rcases hc with ((hsign | hw) | hfraction) | hexponent
  · split_ifs at hsign
    · exact Or.inr (by simp [List.mem_singleton.mp hsign])
    · exact absurd hsign List.not_mem_nil
  · exact Or.inl (hwhole c hw)
  · unfold fractionText at hfraction
    split_ifs at hfraction
    · exact absurd hfraction List.not_mem_nil
    · rcases List.mem_cons.mp hfraction with rfl | hdigit
      · exact Or.inr (by simp)
      · exact Or.inl (h.fraction c hdigit)
  · cases hexp : n.exponent with
    | none =>
        rw [hexp] at hexponent
        exact absurd hexponent List.not_mem_nil
    | some e =>
        rw [hexp, exponentText, List.mem_cons, List.mem_cons] at hexponent
        rcases hexponent with rfl | hsign | hdigit
        · exact Or.inr (by simp)
        · exact Or.inr (by split_ifs at hsign <;> simp [hsign])
        · exact Or.inl ((h.exponent e hexp).2 c hdigit)

theorem scanMinus_append {n : Numeral} (h : n.WellFormed) (rest : List Char) :
    scanMinus ((if n.negative then ['-'] else []) ++ (n.whole ++ rest))
      = (n.negative, n.whole ++ rest) := by
  obtain ⟨c, cs, hw, hc⟩ := h.exists_whole
  cases hneg : n.negative with
  | true => rfl
  | false =>
      rw [hw]
      have hne : c ≠ '-' := by
        rintro rfl
        exact absurd hc (by decide)
      simp [scanMinus, hne]

/-- A well-formed numeral in front of text that does not continue it is read back. -/
theorem scan_text {n : Numeral} (h : n.WellFormed) {rest : List Char} (hrest : Ends rest) :
    scan (n.text ++ rest) = some (n, rest) := by
  have hexponent := scanExponent_append h.exponent hrest
  -- What follows the fraction is the mark of the exponent, or the rest.
  have hafter : ∀ c, (exponentText n.exponent ++ rest).head? = some c →
      c.isDigit = false ∧ c ≠ '.' := by
    intro c hc
    cases hexp : n.exponent with
    | none =>
        rw [hexp] at hc
        exact ⟨(hrest c hc).1, (hrest c hc).2.1⟩
    | some e =>
        rw [hexp] at hc
        cases hc
        exact ⟨by decide, by decide⟩
  have hfraction := scanFraction_append h.fraction hafter
  have hpoint : ∀ c, (fractionText n.fraction ++ (exponentText n.exponent ++ rest)).head? = some c →
      c.isDigit = false := by
    intro c hc
    cases hfrac : n.fraction with
    | nil =>
        rw [hfrac] at hc
        exact (hafter c hc).1
    | cons d ds =>
        rw [hfrac] at hc
        cases hc
        decide
  have hwhole := scanWhole_append h hpoint
  have hminus := scanMinus_append h (fractionText n.fraction ++ (exponentText n.exponent ++ rest))
  unfold scan text
  simp only [List.append_assoc]
  rw [hminus]
  dsimp only
  rw [hwhole]
  dsimp only
  rw [hfraction]
  dsimp only
  rw [hexponent]

/-! ### Another text behind a numeral -/

/-- The text does not go on with a digit. -/
def NoDigit (rest : List Char) : Prop := ∀ c, rest.head? = some c → c.isDigit = false

/-- A run of digits is the same in front of any text that does not go on with a digit. -/
theorem digits_local {cs ds : List Char} (h : ds = cs.takeWhile Char.isDigit) {rest : List Char}
    (hrest : NoDigit rest) : (ds ++ rest).takeWhile Char.isDigit = ds ∧
      (ds ++ rest).dropWhile Char.isDigit = rest := by
  rw [h]
  exact takeWhile_digits (fun c hc => List.mem_takeWhile_imp hc) hrest

theorem scanSign_split (cs : List Char) : ∃ sign, cs = sign ++ (scanSign cs).2 ∧
    ∀ d ds, d.isDigit = true →
      scanSign (sign ++ d :: ds) = ((scanSign cs).1, d :: ds) := by
  have hplain : ∀ d ds, d.isDigit = true → scanSign (d :: ds) = (false, d :: ds) := by
    intro d ds hd
    unfold scanSign
    split
    · rename_i heq
      cases heq
      exact absurd hd (by decide)
    · rename_i heq
      cases heq
      exact absurd hd (by decide)
    · rfl
  unfold scanSign
  split
  · exact ⟨['-'], rfl, fun _ _ _ => rfl⟩
  · exact ⟨['+'], rfl, fun _ _ _ => rfl⟩
  · exact ⟨[], rfl, hplain⟩

/-- An exponent is the same in front of any text that does not continue it. -/
theorem scanExponent_local (cs : List Char) : ∃ core, cs = core ++ (scanExponent cs).2 ∧
    (∀ c, core.head? = some c → c = 'e' ∨ c = 'E') ∧
    ∀ rest, Ends rest → scanExponent (core ++ rest) = ((scanExponent cs).1, rest) := by
  have hnone : ∀ rest, Ends rest → scanExponent rest = (none, rest) := by
    intro rest hrest
    cases rest with
    | nil => rfl
    | cons c rest =>
        obtain ⟨_, _, he, hE⟩ := hrest c rfl
        simp [scanExponent, he, hE]
  cases cs with
  | nil => exact ⟨[], rfl, (fun c hc => by cases hc), hnone⟩
  | cons mark cs =>
      by_cases hmark : mark = 'e' ∨ mark = 'E'
      · have hscan : ∀ cs, scanExponent (mark :: cs) =
            if ((scanSign cs).2.takeWhile Char.isDigit).isEmpty then (none, mark :: cs)
            else (some ((scanSign cs).1, (scanSign cs).2.takeWhile Char.isDigit),
              (scanSign cs).2.dropWhile Char.isDigit) := by
          intro cs
          simp only [scanExponent, if_pos hmark]
        rw [hscan]
        by_cases hdigits : ((scanSign cs).2.takeWhile Char.isDigit).isEmpty = true
        · rw [if_pos hdigits]
          exact ⟨[], rfl, (fun c hc => by cases hc), hnone⟩
        · rw [if_neg hdigits]
          obtain ⟨sign, hsign, hsame⟩ := scanSign_split cs
          generalize hds : (scanSign cs).2.takeWhile Char.isDigit = ds at hdigits ⊢
          refine ⟨mark :: (sign ++ ds), ?_, fun c hc => ?_, fun rest hrest => ?_⟩
          · rw [List.cons_append, List.append_assoc, ← hds, List.takeWhile_append_dropWhile,
              ← hsign]
          · rw [← Option.some.inj hc]
            exact hmark
          · obtain ⟨htake, hdrop⟩ := digits_local hds.symm fun c hc => (hrest c hc).1
            cases ds with
            | nil => exact absurd rfl hdigits
            | cons d ds =>
                have hd : d.isDigit = true := by
                  have hmem : d ∈ (scanSign cs).2.takeWhile Char.isDigit := by
                    rw [hds]
                    exact List.mem_cons_self
                  exact List.mem_takeWhile_imp hmem
                have hback := hsame d (ds ++ rest) hd
                rw [List.cons_append, List.append_assoc, List.cons_append, hscan, hback]
                rw [List.cons_append] at htake hdrop
                rw [htake, hdrop, if_neg hdigits]
      · have hplain : ∀ cs, scanExponent (mark :: cs) = (none, mark :: cs) := by
          intro cs
          simp only [scanExponent, if_neg hmark]
        rw [hplain]
        exact ⟨[], rfl, (fun c hc => by cases hc), hnone⟩

/-- A fraction is the same in front of any text that does not continue it. -/
theorem scanFraction_local (cs : List Char) : ∃ core, cs = core ++ (scanFraction cs).2 ∧
    (∀ c, core.head? = some c → c = '.') ∧
    ∀ rest, NoDigit rest → rest.head? ≠ some '.' →
      scanFraction (core ++ rest) = ((scanFraction cs).1, rest) := by
  have hnone : ∀ rest : List Char, rest.head? ≠ some '.' → scanFraction rest = ([], rest) := by
    intro rest hrest
    unfold scanFraction
    split
    · exact absurd rfl hrest
    · rfl
  by_cases hpoint : cs.head? = some '.'
  · obtain ⟨cs, rfl⟩ := List.head?_eq_some_iff.mp hpoint
    rw [scanFraction_point]
    by_cases hdigits : (cs.takeWhile Char.isDigit).isEmpty = true
    · rw [if_pos hdigits]
      exact ⟨[], rfl, (fun c hc => by cases hc), fun rest _ hrest => hnone rest hrest⟩
    · rw [if_neg hdigits]
      generalize hds : cs.takeWhile Char.isDigit = ds at hdigits ⊢
      refine ⟨'.' :: ds, ?_, fun c hc => (Option.some.inj hc).symm, fun rest hrest _ => ?_⟩
      · rw [List.cons_append, ← hds, List.takeWhile_append_dropWhile]
      · obtain ⟨htake, hdrop⟩ := digits_local hds.symm hrest
        rw [List.cons_append, scanFraction_point, htake, hdrop, if_neg hdigits]
  · rw [hnone cs hpoint]
    exact ⟨[], rfl, (fun c hc => by cases hc), fun rest _ hrest => hnone rest hrest⟩

/-- The digits before the point are the same in front of any text that does not go on with one. -/
theorem scanWhole_local {cs whole rest : List Char} (h : scanWhole cs = some (whole, rest)) :
    cs = whole ++ rest ∧ (∃ d ds, whole = d :: ds ∧ d.isDigit = true) ∧
      ∀ rest', NoDigit rest' → scanWhole (whole ++ rest') = some (whole, rest') := by
  have hplain : ∀ cs : List Char, cs.head? ≠ some '0' → scanWhole cs =
      if (cs.takeWhile Char.isDigit).isEmpty then none
      else some (cs.takeWhile Char.isDigit, cs.dropWhile Char.isDigit) := by
    intro cs hcs
    unfold scanWhole
    split
    · exact absurd rfl hcs
    · rfl
  by_cases hzero : cs.head? = some '0'
  · obtain ⟨cs, rfl⟩ := List.head?_eq_some_iff.mp hzero
    cases h
    exact ⟨rfl, ⟨'0', [], rfl, by decide⟩, fun _ _ => rfl⟩
  · rw [hplain cs hzero] at h
    split at h
    · cases h
    · rename_i hdigits
      cases h
      obtain ⟨c, cs, rfl, hc⟩ : ∃ c cs', cs = c :: cs' ∧ c.isDigit = true := by
        cases cs with
        | nil => exact absurd rfl hdigits
        | cons c cs =>
            refine ⟨c, cs, rfl, ?_⟩
            by_contra hc
            rw [List.takeWhile_cons_of_neg hc] at hdigits
            exact hdigits rfl
      refine ⟨List.takeWhile_append_dropWhile.symm,
        ⟨c, cs.takeWhile Char.isDigit, List.takeWhile_cons_of_pos hc, hc⟩, fun rest' hrest' => ?_⟩
      obtain ⟨htake, hdrop⟩ := digits_local rfl hrest'
      have hhead : ((c :: cs).takeWhile Char.isDigit ++ rest').head? ≠ some '0' := by
        rw [List.takeWhile_cons_of_pos hc]
        exact hzero
      rw [hplain _ hhead, htake, hdrop, if_neg hdigits]

theorem scanMinus_local (cs : List Char) : ∃ core, cs = core ++ (scanMinus cs).2 ∧
    ∀ d ds, d.isDigit = true → scanMinus (core ++ d :: ds) = ((scanMinus cs).1, d :: ds) := by
  unfold scanMinus
  split
  · exact ⟨['-'], rfl, fun _ _ _ => rfl⟩
  · refine ⟨[], rfl, fun d ds hd => ?_⟩
    rw [List.nil_append]
    split
    · rename_i heq
      cases heq
      exact absurd hd (by decide)
    · rfl

/-- A numeral is the same in front of any text that does not continue it. -/
theorem scan_local {cs rest : List Char} {n : Numeral} (h : scan cs = some (n, rest)) :
    ∃ core, cs = core ++ rest ∧ ∀ rest', Ends rest' → scan (core ++ rest') = some (n, rest') := by
  unfold scan at h
  dsimp only at h
  cases hwhole : scanWhole (scanMinus cs).2 with
  | none =>
      rw [hwhole] at h
      cases h
  | some r =>
      rw [hwhole] at h
      cases h
      obtain ⟨minus, hminus, hminus'⟩ := scanMinus_local cs
      obtain ⟨hr, ⟨d, ds, hd, hdigit⟩, hwhole'⟩ := scanWhole_local hwhole
      obtain ⟨fraction, hfraction, hpoint, hfraction'⟩ := scanFraction_local r.2
      obtain ⟨exponent, hexponent, hmark, hexponent'⟩ :=
        scanExponent_local (scanFraction r.2).2
      refine ⟨minus ++ (r.1 ++ (fraction ++ exponent)), ?_, fun rest' hrest' => ?_⟩
      · rw [List.append_assoc, List.append_assoc, List.append_assoc, ← hexponent, ← hfraction,
          ← hr, ← hminus]
      · -- Behind the fraction stands the mark of an exponent, or what ends the numeral.
        have hafter : ∀ c, (exponent ++ rest').head? = some c →
            c.isDigit = false ∧ c ≠ '.' := by
          intro c hc
          cases hexp : exponent with
          | nil =>
              rw [hexp] at hc
              exact ⟨(hrest' c hc).1, (hrest' c hc).2.1⟩
          | cons e es =>
              rw [hexp] at hc
              cases hc
              rcases hmark c (by rw [hexp]; rfl) with rfl | rfl <;> exact ⟨by decide, by decide⟩
        have hbehind : NoDigit (fraction ++ (exponent ++ rest')) := by
          intro c hc
          cases hfrac : fraction with
          | nil =>
              rw [hfrac] at hc
              exact (hafter c hc).1
          | cons e es =>
              rw [hfrac] at hc
              cases hc
              rw [hpoint c (by rw [hfrac]; rfl)]
              decide
        have hscan := hwhole' _ hbehind
        have hhead := hminus' d (ds ++ (fraction ++ (exponent ++ rest'))) hdigit
        rw [← List.cons_append, ← hd] at hhead
        unfold scan
        rw [List.append_assoc, List.append_assoc, List.append_assoc, hhead]
        dsimp only
        rw [hscan]
        dsimp only
        rw [hfraction' _ (fun c hc => (hafter c hc).1) (fun hc => (hafter _ hc).2 rfl)]
        dsimp only
        rw [hexponent' rest' hrest']

/-! ### The digits of a natural number -/

theorem Digits.append {ds es : List Char} (hd : Digits ds) (he : Digits es) :
    Digits (ds ++ es) := fun c hc => (List.mem_append.mp hc).elim (hd c) (he c)

theorem digits_zeros (n : ℕ) : Digits (List.replicate n '0') := by
  intro c hc
  rw [List.eq_of_mem_replicate hc]
  decide

theorem digits_toDigits (n : ℕ) : Digits (Nat.toDigits 10 n) := fun _ hc =>
  Nat.isDigit_of_mem_toDigits (by decide) (by decide) hc

/-- The first digit of a positive number is not a zero. -/
theorem head?_toDigits_ne {n : ℕ} (h : 0 < n) : (Nat.toDigits 10 n).head? ≠ some '0' := by
  induction n using Nat.strong_induction_on with
  | _ n ih =>
      rcases Nat.lt_or_ge n 10 with hlt | hge
      · rw [Nat.toDigits_of_lt_base hlt]
        intro hzero
        have hvalue := Nat.toNat_digitChar_sub_48_of_lt_ten hlt
        rw [List.head?_cons, Option.some.injEq] at hzero
        rw [hzero] at hvalue
        change 0 = n at hvalue
        omega
      · have hih := ih (n / 10) (by omega) (by omega)
        rw [Nat.toDigits_of_base_le (by decide) hge, List.head?_append]
        cases hds : Nat.toDigits 10 (n / 10) with
        | nil => exact absurd hds Nat.toDigits_ne_nil
        | cons d ds => rwa [hds] at hih

/-- The digits of a number are the whole part of a well-formed numeral. -/
theorem whole_toDigits (n : ℕ) : Nat.toDigits 10 n = ['0'] ∨
    (Nat.toDigits 10 n ≠ [] ∧ Digits (Nat.toDigits 10 n) ∧
      (Nat.toDigits 10 n).head? ≠ some '0') := by
  rcases Nat.eq_zero_or_pos n with rfl | hpos
  · exact Or.inl (Nat.toDigits_zero 10)
  · exact Or.inr ⟨Nat.toDigits_ne_nil, digits_toDigits n, head?_toDigits_ne hpos⟩

/-- The numeral of an integer. -/
def ofInt (n : ℤ) : Numeral := ⟨decide (n < 0), Nat.toDigits 10 n.natAbs, [], none⟩

theorem ofInt_wellFormed (n : ℤ) : (ofInt n).WellFormed where
  whole := whole_toDigits n.natAbs
  fraction := by simp [ofInt, Digits]
  exponent := by simp [ofInt]

theorem ofInt_intValue (n : ℤ) : (ofInt n).intValue = n := by
  unfold intValue ofInt
  simp only [decide_eq_true_eq, Nat.ofDigitChars_ten_toDigits]
  split <;> omega

end Numeral
