import EvalOps.Lib.PyText
import EvalOps.Lib.PyFloat
import Mathlib.Algebra.Order.Field.Power
import Mathlib.Data.Int.Log
import Mathlib.Tactic.FieldSimp
import Mathlib.Tactic.Linarith
import Mathlib.Tactic.NormNum
import Mathlib.Tactic.Positivity
import Mathlib.Tactic.Ring

/-!
# `EvalOps.Lib.Doubles`: the double next to a number

`PyFloat.nearest` rounds a rational to the double next to it, ties to even, as `float(text)` does
with the number that a text denotes. Around a number with binary exponent `e`, the doubles are
the multiples of `2 ^ (e - 52)`, and of `2 ^ (-1074)` at the least.

* `PyFloat.nearest_self`: a double is next to itself.
* `PyFloat.nearest_of_near`: so is every number within one part in `2 ^ 54` of it.
* `PyFloat.isDouble_round`: a number in range is rounded to a double.
-/

set_option autoImplicit false

namespace PyText

/-- Rounding moves a number by a half at most. -/
theorem abs_roundHalfEven_sub_le (q : ℚ) : |(roundHalfEven q : ℚ) - q| ≤ 1 / 2 := by
  have hle := Int.floor_le q
  have hlt := Int.lt_floor_add_one q
  rw [roundHalfEven, abs_le]
  split_ifs with hlow hhigh heven
  · constructor <;> linarith
  · push_cast
    constructor <;> linarith
  · constructor <;> linarith
  · push_cast
    constructor <;> linarith

/-- Less than a half away from an integer, rounding returns the integer. -/
theorem roundHalfEven_of_near {q : ℚ} {n : ℤ} (h : |q - n| < 1 / 2) : roundHalfEven q = n := by
  have hround := abs_roundHalfEven_sub_le q
  have hdist : |((roundHalfEven q - n : ℤ) : ℚ)| < 1 := by
    push_cast
    calc |(roundHalfEven q : ℚ) - n| = |((roundHalfEven q : ℚ) - q) + (q - n)| := by ring_nf
      _ ≤ |(roundHalfEven q : ℚ) - q| + |q - n| := abs_add_le _ _
      _ < 1 := by linarith
  have hzero : |roundHalfEven q - n| < 1 := by exact_mod_cast hdist
  have := abs_lt.mp hzero
  omega

/-- An integer rounds to itself. -/
theorem roundHalfEven_intCast (n : ℤ) : roundHalfEven n = n :=
  roundHalfEven_of_near (by norm_num)

end PyText

namespace PyFloat

/-! ### Rounding to a double -/

/-- The binary exponent of the distance between the doubles around a positive number. -/
def spacing (x : ℚ) : ℤ := max (Int.log 2 x - 52) (-1074)

/-- The multiple of the spacing next to a positive number, ties to even. -/
def roundPositive (x : ℚ) : ℚ := PyText.roundHalfEven (x / 2 ^ spacing x) * 2 ^ spacing x

/-- The double next to a number, ties to even, if the number is in range. -/
def round (x : ℚ) : ℚ := if x < 0 then -roundPositive (-x) else roundPositive x

/-- The float next to a number. Out of range this is an infinity. -/
def nearest (x : ℚ) : PyFloat :=
  if overflowBound ≤ |x| then inf (decide (x < 0)) else finite (round x)

/-- The format `.{digits}%`. The hundredfold is a float. -/
def percent (digits : ℕ) (x : ℚ) : String :=
  match nearest (x * 100) with
  | finite hundredfold => PyText.fixed digits hundredfold ++ "%"
  | inf negative => if negative then "-inf%" else "inf%"
  | nan => "nan%"

/-- The format `+.{digits}%`. -/
def signedPercent (digits : ℕ) (x : ℚ) : String :=
  if x < 0 then percent digits x else "+" ++ percent digits x

example : percent 1 (1 / 8) = "12.5%" := by decide +kernel

/-- The number is a double. -/
def IsDouble (x : ℚ) : Prop := |x| < overflowBound ∧ round x = x

instance (x : ℚ) : Decidable (IsDouble x) := inferInstanceAs (Decidable (_ ∧ _))

/-- A double is next to itself. -/
theorem nearest_self {x : ℚ} (h : IsDouble x) : nearest x = finite x := by
  rw [nearest, if_neg (not_le.mpr h.1), h.2]

theorem nearest_eq_self_iff {x : ℚ} : nearest x = finite x ↔ IsDouble x := by
  constructor
  · intro h
    unfold nearest at h
    split at h
    · cases h
    · rename_i hrange
      exact ⟨not_le.mp hrange, finite.inj h⟩
  · exact nearest_self

theorem round_zero : round 0 = 0 := by
  have hzero : PyText.roundHalfEven 0 = 0 := by
    exact_mod_cast PyText.roundHalfEven_intCast 0
  rw [round, if_neg (lt_irrefl 0), roundPositive, zero_div, hzero]
  norm_num

theorem round_neg (x : ℚ) : round (-x) = -round x := by
  rcases lt_trichotomy x 0 with hneg | rfl | hpos
  · rw [round, round, if_neg (by linarith), if_pos hneg, neg_neg]
  · rw [neg_zero, round_zero, neg_zero]
  · rw [round, round, if_pos (by linarith), if_neg (by linarith), neg_neg]

/-- Rounding is symmetric around zero. -/
theorem nearest_neg {x y : ℚ} (h : nearest y = finite x) : nearest (-y) = finite (-x) := by
  unfold nearest at h ⊢
  rw [abs_neg]
  split at h
  · cases h
  · rename_i hrange
    rw [if_neg hrange, round_neg]
    exact congrArg (fun z => finite (-z)) (finite.inj h)

/-- The doubles are symmetric around zero. -/
theorem IsDouble.neg {x : ℚ} (h : IsDouble x) : IsDouble (-x) :=
  ⟨by rw [abs_neg]; exact h.1, by rw [round_neg, h.2]⟩

/-! ### Numbers next to a double -/

/-- A number in the binary order of magnitude `e`, less than half a spacing away from a multiple
of the spacing. -/
theorem roundPositive_of_near {y : ℚ} {e : ℤ} {n : ℤ} (hle : (2 : ℚ) ^ e ≤ y)
    (hlt : y < 2 ^ (e + 1))
    (hnear : |y - n * 2 ^ max (e - 52) (-1074)| < 2 ^ max (e - 52) (-1074) / 2) :
    roundPositive y = n * 2 ^ max (e - 52) (-1074) := by
  have hpos : (0 : ℚ) < y := lt_of_lt_of_le (by positivity) hle
  have hlog : Int.log 2 y = e := by
    have hge : e ≤ Int.log 2 y :=
      (Int.zpow_le_iff_le_log one_lt_two hpos).mp (by exact_mod_cast hle)
    have hlt' : Int.log 2 y < e + 1 :=
      (Int.lt_zpow_iff_log_lt one_lt_two hpos).mp (by exact_mod_cast hlt)
    omega
  have hspacing : spacing y = max (e - 52) (-1074) := by rw [spacing, hlog]
  have hs : (0 : ℚ) < 2 ^ max (e - 52) (-1074) := by positivity
  unfold roundPositive
  rw [hspacing]
  congr 2
  apply PyText.roundHalfEven_of_near
  rw [show y / 2 ^ max (e - 52) (-1074) - n
    = (y - n * 2 ^ max (e - 52) (-1074)) / 2 ^ max (e - 52) (-1074) by field_simp, abs_div,
    abs_of_pos hs, div_lt_iff₀ hs]
  linarith

/-- A positive double is a multiple of its spacing. -/
theorem IsDouble.exists_multiple {x : ℚ} (h : IsDouble x) (hx : 0 < x) :
    ∃ n : ℤ, x = n * 2 ^ spacing x := by
  have hround := h.2
  rw [round, if_neg (not_lt.mpr hx.le)] at hround
  exact ⟨PyText.roundHalfEven (x / 2 ^ spacing x), hround.symm⟩

/-- A power of two that is a multiple of another. -/
theorem zpow_eq_natPow_mul {e s : ℤ} (h : s ≤ e) :
    (2 : ℚ) ^ e = ((2 ^ (e - s).toNat : ℕ) : ℤ) * 2 ^ s := by
  push_cast
  rw [← zpow_natCast, ← zpow_add₀ two_ne_zero]
  congr 1
  omega

theorem overflowBound_eq : overflowBound = 2 ^ (1024 : ℤ) - 2 ^ (970 : ℤ) := by
  rw [overflowBound]
  rfl

/-- The binary exponent of a positive double is in range. -/
theorem IsDouble.log_bounds {x : ℚ} (h : IsDouble x) (hx : 0 < x) :
    -1074 ≤ Int.log 2 x ∧ Int.log 2 x ≤ 1023 := by
  constructor
  · obtain ⟨n, hn⟩ := h.exists_multiple hx
    have hs : (0 : ℚ) < 2 ^ spacing x := by positivity
    have hn0 : (0 : ℚ) < n := by
      rw [hn] at hx
      exact pos_of_mul_pos_left hx hs.le
    have hn1 : (1 : ℚ) ≤ n := by exact_mod_cast hn0
    have hspacing : (2 : ℚ) ^ spacing x ≤ x := by
      calc (2 : ℚ) ^ spacing x ≤ n * 2 ^ spacing x := le_mul_of_one_le_left hs.le hn1
        _ = x := hn.symm
    have hlog : spacing x ≤ Int.log 2 x :=
      (Int.zpow_le_iff_le_log one_lt_two hx).mp (by exact_mod_cast hspacing)
    have hmin : -1074 ≤ spacing x := le_max_right _ _
    omega
  · have hlt : x < (2 : ℚ) ^ (1024 : ℤ) := by
      have hbound := h.1
      have hgap : (0 : ℚ) < 2 ^ (970 : ℤ) := by positivity
      rw [abs_of_pos hx, overflowBound_eq] at hbound
      exact hbound.trans (sub_lt_self _ hgap)
    have hlog : Int.log 2 x < 1024 :=
      (Int.lt_zpow_iff_log_lt one_lt_two hx).mp (by rwa [Nat.cast_ofNat])
    omega

/-- The binary order of magnitude `e` of a positive double: the double is a multiple of the spacing
there, and one part in `2 ^ 54` of it is less than half the spacing. -/
structure InBinade (x : ℚ) (e n : ℤ) : Prop where
  le : (2 : ℚ) ^ e ≤ x
  lt : x < 2 ^ (e + 1)
  eq : x = n * 2 ^ max (e - 52) (-1074)
  min_le : -1074 ≤ e
  le_max : e ≤ 1023

theorem IsDouble.exists_inBinade {x : ℚ} (h : IsDouble x) (hx : 0 < x) :
    ∃ e n, InBinade x e n := by
  obtain ⟨n, hn⟩ := h.exists_multiple hx
  obtain ⟨hmin, hmax⟩ := h.log_bounds hx
  refine ⟨Int.log 2 x, n, ?_, ?_, hn, hmin, hmax⟩
  · exact_mod_cast Int.zpow_log_le_self one_lt_two hx
  · exact_mod_cast Int.lt_zpow_succ_log_self one_lt_two x

/-- Powers of two that differ by a fixed exponent. -/
theorem zpow_eq_pow_mul {a b : ℤ} (k : ℕ) (h : a = b + k) : (2 : ℚ) ^ a = 2 ^ k * 2 ^ b := by
  rw [h, zpow_add₀ two_ne_zero, zpow_natCast, mul_comm]

namespace InBinade

variable {x y : ℚ} {e n : ℤ}

/-- One part in `2 ^ 54` is less than half the spacing. -/
theorem part_lt (h : InBinade x e n) : x / 2 ^ 54 < 2 ^ max (e - 52) (-1074) / 2 := by
  have hlt := h.lt
  have hspace : (2 : ℚ) ^ (e - 52) ≤ 2 ^ max (e - 52) (-1074) :=
    zpow_le_zpow_right₀ one_le_two (le_max_left _ _)
  rw [zpow_eq_pow_mul 53 (show e + 1 = e - 52 + (53 : ℕ) by omega)] at hlt
  linarith

/-- The next order of magnitude starts a spacing above the double, or higher. -/
theorem add_spacing_le (h : InBinade x e n) :
    x + 2 ^ max (e - 52) (-1074) ≤ 2 ^ (e + 1) := by
  have hmin := h.min_le
  have htop := zpow_eq_natPow_mul (show max (e - 52) (-1074) ≤ e + 1 by omega)
  have hs : (0 : ℚ) < 2 ^ max (e - 52) (-1074) := by positivity
  have hlt := h.lt
  rw [h.eq, htop, mul_lt_mul_iff_of_pos_right hs] at hlt
  have hint : (n : ℚ) + 1 ≤ ((2 ^ (e + 1 - max (e - 52) (-1074)).toNat : ℕ) : ℤ) := by
    exact_mod_cast hlt
  calc x + 2 ^ max (e - 52) (-1074) = (n + 1) * 2 ^ max (e - 52) (-1074) := by
        rw [h.eq]
        ring
    _ ≤ 2 ^ (e + 1) := by
        rw [htop]
        exact mul_le_mul_of_nonneg_right hint hs.le

/-- Less than half a spacing above a double in range, a number is in range. -/
theorem lt_overflowBound (h : InBinade x e n) (hy : y < x + 2 ^ max (e - 52) (-1074) / 2) :
    y < overflowBound := by
  have hgap := h.add_spacing_le
  have hmax := h.le_max
  have hspace : (2 : ℚ) ^ (e - 52) ≤ 2 ^ max (e - 52) (-1074) :=
    zpow_le_zpow_right₀ one_le_two (le_max_left _ _)
  have hexp : (2 : ℚ) ^ (e - 53) ≤ 2 ^ (970 : ℤ) := zpow_le_zpow_right₀ one_le_two (by omega)
  rw [zpow_eq_pow_mul 54 (show e + 1 = e - 53 + (54 : ℕ) by omega)] at hgap
  rw [zpow_eq_pow_mul 1 (show e - 52 = e - 53 + (1 : ℕ) by omega)] at hspace
  rw [overflowBound_eq, zpow_eq_pow_mul 54 (show (1024 : ℤ) = 970 + (54 : ℕ) by norm_num)]
  -- The bound is an opaque number from here on, so that no step evaluates it.
  generalize (2 : ℚ) ^ (970 : ℤ) = top at hexp
  linarith

/-- Numbers of the same order of magnitude, within one part in `2 ^ 54`. -/
theorem roundPositive_of_le (h : InBinade x e n) (hle : (2 : ℚ) ^ e ≤ y)
    (hy : |y - x| < x / 2 ^ 54) : roundPositive y = x := by
  have hpart := h.part_lt
  have hgap := h.add_spacing_le
  have hs : (0 : ℚ) < 2 ^ max (e - 52) (-1074) := by positivity
  obtain ⟨_, hy₂⟩ := abs_lt.mp hy
  rw [h.eq]
  apply roundPositive_of_near hle
  · linarith
  · rw [← h.eq]
    exact hy.trans hpart

/-- Numbers of a smaller order of magnitude, within one part in `2 ^ 54`. The double is the power
of two, and the spacing below it may be half as wide. -/
theorem roundPositive_of_lt (h : InBinade x e n) (hlt : y < (2 : ℚ) ^ e)
    (hy : |y - x| < x / 2 ^ 54) : roundPositive y = x := by
  have hpart := h.part_lt
  have hmin := h.min_le
  have hle := h.le
  obtain ⟨hy₁, _⟩ := abs_lt.mp hy
  have hpow : x = 2 ^ e := by
    have hs : (0 : ℚ) < 2 ^ max (e - 52) (-1074) := by positivity
    have hmul := zpow_eq_natPow_mul (show max (e - 52) (-1074) ≤ e by omega)
    generalize (((2 ^ (e - max (e - 52) (-1074)).toNat : ℕ) : ℤ)) = k at hmul
    rw [h.eq, hmul, mul_le_mul_iff_of_pos_right hs] at hle
    have hclose : (n : ℚ) < k + 1 := by
      have hx := h.eq
      rw [← mul_lt_mul_iff_of_pos_right hs, ← hx, add_mul, ← hmul]
      linarith
    have hkn : k = n := by
      have h₁ : k ≤ n := by exact_mod_cast hle
      have h₂ : n < k + 1 := by exact_mod_cast hclose
      omega
    rw [h.eq, hmul, hkn]
  have hmul := zpow_eq_natPow_mul (show max (e - 1 - 52) (-1074) ≤ e by omega)
  have hspace : (2 : ℚ) ^ (e - 53) ≤ 2 ^ max (e - 1 - 52) (-1074) :=
    zpow_le_zpow_right₀ one_le_two (by omega)
  have hscale := zpow_eq_pow_mul 53 (show e = e - 53 + (53 : ℕ) by omega)
  have hdouble := zpow_eq_pow_mul 1 (show e = e - 1 + (1 : ℕ) by omega)
  have hpos : (0 : ℚ) < 2 ^ e := by positivity
  rw [hpow] at hy hy₁ ⊢
  rw [hmul]
  apply roundPositive_of_near (e := e - 1)
  · linarith
  · rwa [sub_add_cancel]
  · rw [← hmul]
    linarith

end InBinade

/-- Every number within one part in `2 ^ 54` of a positive double rounds to it. -/
theorem nearest_of_near {x y : ℚ} (h : IsDouble x) (hx : 0 < x) (hy : |y - x| < x / 2 ^ 54) :
    nearest y = finite x := by
  obtain ⟨e, n, hbinade⟩ := h.exists_inBinade hx
  obtain ⟨hy₁, hy₂⟩ := abs_lt.mp hy
  have hpart := hbinade.part_lt
  have hypos : 0 < y := by
    have : x / 2 ^ 54 < x := div_lt_self hx (by norm_num)
    linarith
  have hrange : y < overflowBound := hbinade.lt_overflowBound (by linarith)
  have hround : roundPositive y = x := by
    rcases le_or_gt ((2 : ℚ) ^ e) y with hle | hlt
    · exact hbinade.roundPositive_of_le hle hy
    · exact hbinade.roundPositive_of_lt hlt hy
  rw [nearest, abs_of_pos hypos, if_neg (not_le.mpr hrange), round, if_neg (not_lt.mpr hypos.le),
    hround]

example : IsDouble (1 / 4) ∧ ¬ IsDouble (1 / 10) := by decide +kernel

/-! ### Rounded numbers -/

/-- A positive multiple of its own spacing stays. -/
theorem roundPositive_of_multiple {y : ℚ} {k : ℤ} (h : y = k * 2 ^ spacing y) :
    roundPositive y = y := by
  have hs : (2 : ℚ) ^ spacing y ≠ 0 := by positivity
  have hquotient : y / 2 ^ spacing y = k := by
    rw [div_eq_iff hs]
    exact h
  rw [roundPositive, hquotient, PyText.roundHalfEven_intCast]
  exact h.symm

/-- A multiple of a power of two is one of each smaller power. -/
theorem exists_multiple_of_le {y : ℚ} {n s t : ℤ} (h : y = n * 2 ^ s) (hst : t ≤ s) :
    ∃ k : ℤ, y = k * 2 ^ t := by
  refine ⟨n * ((2 ^ (s - t).toNat : ℕ) : ℤ), ?_⟩
  rw [h, zpow_eq_natPow_mul hst, ← mul_assoc]
  push_cast
  ring

/-- A number below a power of two is rounded to this power at the most. -/
theorem roundPositive_le {x : ℚ} {k : ℤ} (hk : spacing x ≤ k) (h : x < 2 ^ k) :
    roundPositive x ≤ 2 ^ k := by
  have hs : (0 : ℚ) < 2 ^ spacing x := by positivity
  have hpow := zpow_eq_natPow_mul hk
  have hquotient : x / 2 ^ spacing x < ((2 ^ (k - spacing x).toNat : ℕ) : ℤ) := by
    rwa [div_lt_iff₀ hs, ← hpow]
  obtain ⟨_, hhigh⟩ := abs_le.mp (PyText.abs_roundHalfEven_sub_le (x / 2 ^ spacing x))
  have hround : PyText.roundHalfEven (x / 2 ^ spacing x)
      ≤ ((2 ^ (k - spacing x).toNat : ℕ) : ℤ) := by
    rw [← Int.lt_add_one_iff]
    have : (PyText.roundHalfEven (x / 2 ^ spacing x) : ℚ)
        < ((2 ^ (k - spacing x).toNat : ℕ) : ℤ) + 1 := by linarith
    exact_mod_cast this
  rw [roundPositive, hpow]
  exact mul_le_mul_of_nonneg_right (by exact_mod_cast hround) hs.le

theorem roundPositive_nonneg {x : ℚ} (hx : 0 < x) : 0 ≤ roundPositive x := by
  have hs : (0 : ℚ) < 2 ^ spacing x := by positivity
  have hquotient : 0 < x / 2 ^ spacing x := div_pos hx hs
  obtain ⟨hlow, _⟩ := abs_le.mp (PyText.abs_roundHalfEven_sub_le (x / 2 ^ spacing x))
  have hround : (-1 : ℤ) < PyText.roundHalfEven (x / 2 ^ spacing x) := by
    have : ((-1 : ℤ) : ℚ) < PyText.roundHalfEven (x / 2 ^ spacing x) := by
      push_cast
      linarith
    exact_mod_cast this
  have hnonneg : (0 : ℚ) ≤ PyText.roundHalfEven (x / 2 ^ spacing x) := by
    exact_mod_cast (by omega : 0 ≤ PyText.roundHalfEven (x / 2 ^ spacing x))
  exact mul_nonneg hnonneg hs.le

/-- A positive number has at most 53 binary digits above its spacing. -/
theorem lt_spacing_pow (x : ℚ) : x < 2 ^ (spacing x + 53) := by
  have hnext : x < (2 : ℚ) ^ (Int.log 2 x + 1) := by
    exact_mod_cast Int.lt_zpow_succ_log_self one_lt_two x
  refine hnext.trans_le (zpow_le_zpow_right₀ one_le_two ?_)
  have hleft : Int.log 2 x - 52 ≤ spacing x := le_max_left _ _
  omega

/-- A rounded number stays: it is a multiple of its own spacing. -/
theorem roundPositive_roundPositive {x : ℚ} (hx : 0 < x) :
    roundPositive (roundPositive x) = roundPositive x := by
  rcases (roundPositive_nonneg hx).eq_or_lt with hzero | hpos
  · rw [← hzero]
    exact roundPositive_of_multiple (k := 0) (by simp)
  · have hmin : -1074 ≤ spacing x := le_max_right _ _
    have hlt := lt_spacing_pow x
    rcases (roundPositive_le (by omega) hlt).eq_or_lt with heq | hless
    · -- A power of two is a multiple of its spacing.
      have hspacing : spacing ((2 : ℚ) ^ (spacing x + 53)) ≤ spacing x + 53 := by
        have hlog : Int.log 2 ((2 : ℚ) ^ (spacing x + 53)) = spacing x + 53 := by
          exact_mod_cast Int.log_zpow (R := ℚ) one_lt_two (spacing x + 53)
        rw [spacing, hlog]
        omega
      rw [heq]
      exact roundPositive_of_multiple (zpow_eq_natPow_mul hspacing)
    · -- Otherwise the spacing is no wider than that of the number.
      have hlog : Int.log 2 (roundPositive x) < spacing x + 53 :=
        (Int.lt_zpow_iff_log_lt one_lt_two hpos).mp (by exact_mod_cast hless)
      have hspacing : spacing (roundPositive x) ≤ spacing x := by
        rw [spacing]
        omega
      obtain ⟨k, hk⟩ := exists_multiple_of_le (y := roundPositive x) rfl hspacing
      exact roundPositive_of_multiple hk

/-- In range a rounded number is in range. -/
theorem roundPositive_lt_overflowBound {x : ℚ} (hx : 0 < x) (h : x < overflowBound) :
    roundPositive x < overflowBound := by
  have hbelow : x < (2 : ℚ) ^ (1024 : ℤ) := by
    rw [overflowBound_eq] at h
    exact h.trans (sub_lt_self _ (by positivity))
  have hlog : Int.log 2 x < 1024 :=
    (Int.lt_zpow_iff_log_lt one_lt_two hx).mp (by rwa [Nat.cast_ofNat])
  rcases (show Int.log 2 x ≤ 1022 ∨ Int.log 2 x = 1023 by omega) with hlow | htop
  · -- Below the top order of magnitude the next power of two is in range.
    have hspacing : spacing x ≤ 970 := by
      rw [spacing]
      omega
    have hlt : x < 2 ^ (1023 : ℤ) := by
      have hnext : x < (2 : ℚ) ^ (Int.log 2 x + 1) := by
        exact_mod_cast Int.lt_zpow_succ_log_self one_lt_two x
      exact hnext.trans_le (zpow_le_zpow_right₀ one_le_two (by omega))
    refine (roundPositive_le (by omega) hlt).trans_lt ?_
    rw [overflowBound_eq, zpow_eq_pow_mul 53 (show (1023 : ℤ) = 970 + (53 : ℕ) by norm_num),
      zpow_eq_pow_mul 54 (show (1024 : ℤ) = 970 + (54 : ℕ) by norm_num)]
    have hpos : (0 : ℚ) < 2 ^ (970 : ℤ) := by positivity
    generalize (2 : ℚ) ^ (970 : ℤ) = top at hpos
    linarith
  · -- In it the bound is half a spacing above the last double.
    have hspacing : spacing x = 971 := by
      rw [spacing, htop]
      norm_num
    have hs : (0 : ℚ) < 2 ^ (971 : ℤ) := by positivity
    have hbound : overflowBound = (2 ^ 53 - 1 / 2) * 2 ^ (971 : ℤ) := by
      rw [overflowBound_eq, zpow_eq_pow_mul 54 (show (1024 : ℤ) = 970 + (54 : ℕ) by norm_num),
        zpow_eq_pow_mul 1 (show (971 : ℤ) = 970 + (1 : ℕ) by norm_num)]
      generalize (2 : ℚ) ^ (970 : ℤ) = top
      ring
    have hquotient : x / 2 ^ (971 : ℤ) < 2 ^ 53 - 1 / 2 := by
      rw [div_lt_iff₀ hs, ← hbound]
      exact h
    rw [roundPositive, hspacing, hbound, mul_lt_mul_iff_of_pos_right hs]
    generalize x / 2 ^ (971 : ℤ) = q at hquotient ⊢
    obtain ⟨_, hhigh⟩ := abs_le.mp (PyText.abs_roundHalfEven_sub_le q)
    have hround : (PyText.roundHalfEven q : ℚ) < ((2 ^ 53 : ℤ) : ℚ) := by
      push_cast
      linarith
    have hlast : PyText.roundHalfEven q ≤ 2 ^ 53 - 1 := by
      have : PyText.roundHalfEven q < 2 ^ 53 := by exact_mod_cast hround
      omega
    have hcast : (PyText.roundHalfEven q : ℚ) ≤ 2 ^ 53 - 1 := by exact_mod_cast hlast
    linarith

/-- A number in range is rounded to a double. -/
theorem isDouble_round {x : ℚ} (h : |x| < overflowBound) : IsDouble (round x) := by
  have hpositive : ∀ {y : ℚ}, 0 < y → y < overflowBound → IsDouble (round y) := by
    intro y hy hlt
    have hround : round y = roundPositive y := if_neg (not_lt.mpr hy.le)
    have hnonneg := roundPositive_nonneg hy
    rw [hround]
    refine ⟨?_, ?_⟩
    · rw [abs_of_nonneg hnonneg]
      exact roundPositive_lt_overflowBound hy hlt
    · rw [round, if_neg (not_lt.mpr hnonneg)]
      exact roundPositive_roundPositive hy
  rcases lt_trichotomy x 0 with hneg | rfl | hpos
  · rw [abs_of_neg hneg] at h
    have hdouble := hpositive (neg_pos.mpr hneg) h
    rw [round_neg] at hdouble
    simpa using hdouble.neg
  · rw [round_zero]
    exact ⟨h, round_zero⟩
  · rw [abs_of_pos hpos] at h
    exact hpositive hpos h

end PyFloat
