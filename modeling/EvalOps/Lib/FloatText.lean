import EvalOps.Lib.Doubles
import EvalOps.Lib.Numerals

/-!
# `EvalOps.Lib.FloatText`: `repr` of a float

`FloatText.shortest` is the decimal that Python prints for a double: of the decimals that read
back as the double, one with the fewest digits, and of those the nearest. `FloatText.numeral` lays
its digits out with a point or with an exponent.

* `FloatText.seventeen_digits`: seventeen digits are enough.
* `FloatText.nearest_numeral`: the text of a double reads back as the double.
-/

set_option autoImplicit false

namespace FloatText

/-- The decimal number `digits * 10 ^ exponent`. -/
structure Decimal where
  digits : ℕ
  exponent : ℤ
deriving DecidableEq

/-- The number that a decimal denotes. -/
def Decimal.value (d : Decimal) : ℚ := d.digits * 10 ^ d.exponent

/-! ### The shortest decimal -/

/-- A decimal of at most `n` digits, or the power of ten above them as a single digit. -/
def carried (n digits : ℕ) (exponent : ℤ) : Decimal :=
  if digits = 10 ^ n then ⟨1, exponent + n⟩ else ⟨digits, exponent⟩

/-- The decimals with `n` digits around a positive number, the nearest one first. -/
def candidates (x : ℚ) (n : ℕ) : List Decimal :=
  let exponent := Int.log 10 x + 1 - n
  let scaled := x / 10 ^ exponent
  [PyText.roundHalfEven scaled, ⌊scaled⌋, ⌊scaled⌋ + 1].map fun digits =>
    carried n digits.toNat exponent

/-- The decimal reads back as the number. -/
def readsBack (x : ℚ) (d : Decimal) : Bool := decide (PyFloat.nearest d.value = .finite x)

/-- The first decimal that reads back, from one digit up to seventeen. -/
def findShortest (x : ℚ) : Option Decimal :=
  (List.range' 1 17).findSome? fun n => (candidates x n).find? (readsBack x)

/-- The decimal that is printed for a positive double. -/
def shortest (x : ℚ) : Decimal := (findShortest x).getD ⟨0, 0⟩

theorem carried_value (n digits : ℕ) (exponent : ℤ) :
    (carried n digits exponent).value = digits * 10 ^ exponent := by
  unfold carried
  split
  · rename_i h
    rw [h, Decimal.value]
    push_cast
    rw [zpow_add₀ (by norm_num), zpow_natCast, one_mul, mul_comm]
  · rfl

/-- The nearest decimal of seventeen digits reads back. -/
theorem seventeen_digits {x : ℚ} (h : PyFloat.IsDouble x) (hx : 0 < x) :
    ∃ d ∈ candidates x 17, readsBack x d = true := by
  have hexp : Int.log 10 x + 1 - (17 : ℕ) = Int.log 10 x - 16 := by
    push_cast
    ring
  have hs : (0 : ℚ) < 10 ^ (Int.log 10 x - 16) := by positivity
  have hdigits : 0 ≤ PyText.roundHalfEven (x / 10 ^ (Int.log 10 x - 16)) := by
    have hround := abs_le.mp (PyText.abs_roundHalfEven_sub_le (x / 10 ^ (Int.log 10 x - 16)))
    have hpos : 0 < x / 10 ^ (Int.log 10 x - 16) := div_pos hx hs
    have hgt : (-1 : ℚ) < PyText.roundHalfEven (x / 10 ^ (Int.log 10 x - 16)) := by linarith
    have : -1 < PyText.roundHalfEven (x / 10 ^ (Int.log 10 x - 16)) := by exact_mod_cast hgt
    omega
  refine ⟨_, List.mem_cons_self, ?_⟩
  rw [readsBack, decide_eq_true_iff, carried_value, hexp]
  apply PyFloat.nearest_of_near h hx
  -- The nearest decimal is at most half a unit of its last digit away.
  have hcast : (((PyText.roundHalfEven (x / 10 ^ (Int.log 10 x - 16))).toNat : ℕ) : ℚ)
      = PyText.roundHalfEven (x / 10 ^ (Int.log 10 x - 16)) := by
    exact_mod_cast Int.toNat_of_nonneg hdigits
  have hround := PyText.abs_roundHalfEven_sub_le (x / 10 ^ (Int.log 10 x - 16))
  have hlog : (10 : ℚ) ^ Int.log 10 x ≤ x := by
    exact_mod_cast Int.zpow_log_le_self (by norm_num) hx
  have hscale : (10 : ℚ) ^ Int.log 10 x = 10 ^ 16 * 10 ^ (Int.log 10 x - 16) := by
    rw [← zpow_natCast, ← zpow_add₀ (by norm_num)]
    congr 1
    push_cast
    ring
  rw [hcast]
  generalize (PyText.roundHalfEven (x / 10 ^ (Int.log 10 x - 16)) : ℚ) = digits at hround
  generalize (10 : ℚ) ^ (Int.log 10 x - 16) = unit at hs hround hscale
  calc |digits * unit - x| = |digits - x / unit| * unit := by
        rw [← abs_of_pos hs, ← abs_mul, abs_of_pos hs]
        congr 1
        field_simp
    _ ≤ 1 / 2 * unit := mul_le_mul_of_nonneg_right hround hs.le
    _ < x / 2 ^ 54 := by
        rw [lt_div_iff₀ (by norm_num)]
        norm_num at hscale ⊢
        linarith

/-- The decimal that is printed reads back. -/
theorem nearest_shortest {x : ℚ} (h : PyFloat.IsDouble x) (hx : 0 < x) :
    PyFloat.nearest (shortest x).value = .finite x := by
  obtain ⟨d, hd, hback⟩ := seventeen_digits h hx
  unfold shortest
  cases hfind : findShortest x with
  | none =>
      have hnone := List.findSome?_eq_none_iff.mp hfind 17 (by decide)
      exact absurd hback (List.find?_eq_none.mp hnone d hd)
  | some best =>
      obtain ⟨n, _, hn⟩ := List.exists_of_findSome?_eq_some hfind
      have hbest := List.find?_some hn
      exact decide_eq_true_iff.mp hbest

/-! ### The layout -/

/-- Digits, padded with a zero on the left to two. -/
def twoDigits (n : ℕ) : List Char :=
  let digits := Nat.toDigits 10 n
  List.replicate (2 - digits.length) '0' ++ digits

/-- The digits of a decimal around a point, or with an exponent when the point is more than four
places to the left of the digits, or more than sixteen to the right of the first. -/
def layout (d : Decimal) : Numeral :=
  let digits := Nat.toDigits 10 d.digits
  let point := digits.length + d.exponent
  if -4 < point ∧ point ≤ 16 then
    if point ≤ 0 then ⟨false, ['0'], List.replicate (-point).toNat '0' ++ digits, none⟩
    else if point < digits.length then
      ⟨false, digits.take point.toNat, digits.drop point.toNat, none⟩
    else ⟨false, digits ++ List.replicate d.exponent.toNat '0', ['0'], none⟩
  else
    ⟨false, digits.take 1, digits.drop 1, some (decide (point ≤ 0), twoDigits (point - 1).natAbs)⟩

/-- The numeral of a float. -/
def numeral (x : ℚ) : Numeral :=
  if x = 0 then ⟨false, ['0'], ['0'], none⟩
  else if x < 0 then { layout (shortest (-x)) with negative := true }
  else layout (shortest x)

/-- `repr(x)`. -/
def repr (x : ℚ) : String := String.ofList (numeral x).text

theorem ofDigitChars_twoDigits (n : ℕ) : Nat.ofDigitChars 10 (twoDigits n) 0 = n := by
  unfold twoDigits
  rw [Nat.ofDigitChars_append, Nat.ofDigitChars_replicate_zero, mul_zero,
    Nat.ofDigitChars_ten_toDigits]

theorem digits_twoDigits (n : ℕ) : Numeral.Digits (twoDigits n) :=
  (Numeral.digits_zeros _).append (Numeral.digits_toDigits n)

theorem twoDigits_ne_nil (n : ℕ) : twoDigits n ≠ [] :=
  List.append_ne_nil_of_right_ne_nil _ Nat.toDigits_ne_nil

/-- The layout keeps the value. -/
theorem layout_value (d : Decimal) : (layout d).value = d.value := by
  have hdigits : Nat.ofDigitChars 10 (Nat.toDigits 10 d.digits) 0 = d.digits :=
    Nat.ofDigitChars_ten_toDigits
  have hlen : 0 < (Nat.toDigits 10 d.digits).length := Nat.length_toDigits_pos
  unfold layout
  generalize Nat.toDigits 10 d.digits = digits at hdigits hlen
  dsimp only
  split_ifs with hrange hsmall hinside
  · -- All digits are behind the point.
    have hvalue : Nat.ofDigitChars 10
        (['0'] ++ (List.replicate (-(digits.length + d.exponent)).toNat '0' ++ digits)) 0
        = d.digits := by
      rw [Nat.ofDigitChars_append, Nat.ofDigitChars_append, Nat.ofDigitChars_replicate_zero]
      simpa [Nat.ofDigitChars] using hdigits
    have hexp : (0 : ℤ) - (List.replicate (-(digits.length + d.exponent)).toNat '0' ++
        digits).length = d.exponent := by
      rw [List.length_append, List.length_replicate]
      omega
    simp only [Numeral.value, Numeral.exponentValue, hvalue, hexp]
    rfl
  · -- The point is between the digits.
    have hexp : (0 : ℤ) - (digits.drop (digits.length + d.exponent).toNat).length
        = d.exponent := by
      rw [List.length_drop]
      omega
    simp only [Numeral.value, Numeral.exponentValue, List.take_append_drop, hdigits, hexp]
    rfl
  · -- All digits are in front of the point.
    have hvalue : Nat.ofDigitChars 10
        (digits ++ List.replicate d.exponent.toNat '0' ++ ['0']) 0
        = 10 * (10 ^ d.exponent.toNat * d.digits) := by
      rw [Nat.ofDigitChars_append, Nat.ofDigitChars_append, Nat.ofDigitChars_replicate_zero,
        hdigits]
      rfl
    have hnonneg : ((d.exponent.toNat : ℕ) : ℤ) = d.exponent := by omega
    have hpow : (10 : ℚ) ^ d.exponent = 10 ^ d.exponent.toNat := by
      rw [← zpow_natCast, hnonneg]
    simp only [Numeral.value, Numeral.exponentValue, hvalue, Decimal.value, hpow]
    push_cast
    norm_num
    ring
  · -- One digit is in front of the point, and the exponent says where it belongs.
    have hpoint : (Numeral.exponentValue ⟨false, digits.take 1, digits.drop 1,
        some (decide (digits.length + d.exponent ≤ 0),
          twoDigits (digits.length + d.exponent - 1).natAbs)⟩)
        = digits.length + d.exponent - 1 := by
      simp only [Numeral.exponentValue, ofDigitChars_twoDigits, decide_eq_true_eq]
      split <;> omega
    have hexp : (digits.length + d.exponent - 1 : ℤ) - (digits.drop 1).length = d.exponent := by
      rw [List.length_drop]
      omega
    simp only [Numeral.value, hpoint, List.take_append_drop, hdigits, hexp]
    rfl

/-- The first digits of a number that is not zero are the whole part of a numeral. -/
theorem whole_take {digits : List Char} (h : Numeral.Digits digits)
    (hhead : digits.head? ≠ some '0') (hlen : 0 < digits.length) {k : ℕ} (hk : 0 < k) :
    digits.take k ≠ [] ∧ Numeral.Digits (digits.take k) ∧ (digits.take k).head? ≠ some '0' := by
  refine ⟨?_, fun c hc => h c (List.mem_of_mem_take hc), ?_⟩
  · rw [← List.length_pos_iff, List.length_take]
    omega
  · rwa [List.head?_take, if_neg (by omega)]

/-- The layout of a decimal with a digit that is not zero is a well-formed numeral. -/
theorem layout_wellFormed {d : Decimal} (h : 0 < d.digits) : (layout d).WellFormed := by
  have hdigits := Numeral.digits_toDigits d.digits
  have hhead := Numeral.head?_toDigits_ne h
  have hlen : 0 < (Nat.toDigits 10 d.digits).length := Nat.length_toDigits_pos
  unfold layout
  generalize Nat.toDigits 10 d.digits = digits at hdigits hhead hlen
  have hdrop : ∀ k, Numeral.Digits (digits.drop k) := fun k c hc =>
    hdigits c (List.mem_of_mem_drop hc)
  dsimp only
  split_ifs with hrange hsmall hinside
  · exact ⟨Or.inl rfl, (Numeral.digits_zeros _).append hdigits, by simp⟩
  · exact ⟨Or.inr (whole_take hdigits hhead hlen (by omega)), hdrop _, by simp⟩
  · refine ⟨Or.inr ⟨?_, hdigits.append (Numeral.digits_zeros _), ?_⟩,
      Numeral.digits_zeros 1, by simp⟩
    · exact List.append_ne_nil_of_left_ne_nil (List.length_pos_iff.mp hlen) _
    · obtain ⟨c, cs, rfl⟩ := List.exists_cons_of_length_pos hlen
      exact hhead
  · refine ⟨Or.inr (whole_take hdigits hhead hlen Nat.one_pos), hdrop 1, ?_⟩
    intro e he
    cases he
    exact ⟨twoDigits_ne_nil _, digits_twoDigits _⟩

/-- The layout has a fraction or an exponent. -/
theorem layout_isFloat (d : Decimal) : (layout d).isFloat = true := by
  have hlen : 0 < (Nat.toDigits 10 d.digits).length := Nat.length_toDigits_pos
  unfold layout
  generalize Nat.toDigits 10 d.digits = digits at hlen
  dsimp only
  split_ifs with hrange hsmall hinside
  · exact Numeral.isFloat_of_fraction_ne_nil
      (List.append_ne_nil_of_right_ne_nil _ (List.length_pos_iff.mp hlen))
  · apply Numeral.isFloat_of_fraction_ne_nil
    rw [← List.length_pos_iff, List.length_drop]
    omega
  · rfl
  · simp [Numeral.isFloat]

theorem layout_negative (d : Decimal) : (layout d).negative = false := by
  unfold layout
  dsimp only
  split_ifs <;> rfl

/-! ### Reading back -/

/-- The decimal of a positive double has a digit that is not zero. -/
theorem shortest_digits_pos {x : ℚ} (h : PyFloat.IsDouble x) (hx : 0 < x) :
    0 < (shortest x).digits := by
  have hback := nearest_shortest h hx
  by_contra hzero
  have hvalue : (shortest x).value = 0 := by
    rw [Decimal.value, show (shortest x).digits = 0 by omega]
    norm_num
  have hdouble : PyFloat.IsDouble 0 :=
    ⟨by rw [abs_zero]; exact (abs_nonneg x).trans_lt h.1, PyFloat.round_zero⟩
  rw [hvalue, PyFloat.nearest_self hdouble] at hback
  exact hx.ne (PyFloat.finite.inj hback)

/-- The numeral of a double is well formed. -/
theorem numeral_wellFormed {x : ℚ} (h : PyFloat.IsDouble x) : (numeral x).WellFormed := by
  unfold numeral
  split_ifs with hzero hneg
  · exact ⟨Or.inl rfl, Numeral.digits_zeros 1, by simp⟩
  · obtain ⟨hwhole, hfraction, hexponent⟩ :=
      layout_wellFormed (shortest_digits_pos h.neg (by linarith))
    exact ⟨hwhole, hfraction, hexponent⟩
  · have hpos : 0 < x := lt_of_le_of_ne (not_lt.mp hneg) (Ne.symm hzero)
    exact layout_wellFormed (shortest_digits_pos h hpos)

/-- The numeral of a float is not that of an integer. -/
theorem numeral_isFloat (x : ℚ) : (numeral x).isFloat = true := by
  unfold numeral
  split_ifs
  · rfl
  · exact layout_isFloat (shortest (-x))
  · exact layout_isFloat (shortest x)

/-- The numeral of a double reads back as the double. -/
theorem nearest_numeral {x : ℚ} (h : PyFloat.IsDouble x) :
    PyFloat.nearest (numeral x).value = .finite x := by
  unfold numeral
  split_ifs with hzero hneg
  · subst hzero
    have hvalue : (Numeral.mk false ['0'] ['0'] none).value = 0 := by
      norm_num [Numeral.value, Nat.ofDigitChars]
    rw [hvalue, PyFloat.nearest_self h]
  · have hback := nearest_shortest h.neg (by linarith)
    rw [Numeral.value_neg (layout_negative _), layout_value, PyFloat.nearest_neg hback, neg_neg]
  · have hpos : 0 < x := lt_of_le_of_ne (not_lt.mp hneg) (Ne.symm hzero)
    rw [layout_value, nearest_shortest h hpos]

example : repr (1 / 4) = "0.25" ∧ repr (PyFloat.round (1 / 100000)) = "1e-05" := by
  decide +kernel

end FloatText
