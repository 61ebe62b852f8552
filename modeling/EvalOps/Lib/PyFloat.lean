import Mathlib.Algebra.Order.Field.Rat

/-!
# `EvalOps.Lib.PyFloat`: floats that a parser may hand over

`PyFloat` is a Python float with its special values. A finite float is the rational it stands for,
and arithmetic on it is exact. The range is that of a double: `overflowBound` is the least number
that rounds out of it.
-/

set_option autoImplicit false

/-- A Python float. -/
inductive PyFloat
  | finite (x : ℚ)
  | inf (negative : Bool)
  | nan
deriving DecidableEq

namespace PyFloat

/-- `x < 0`. Nothing is less than or greater than `nan`. -/
def isNegative : PyFloat → Bool
  | finite x => decide (x < 0)
  | inf negative => negative
  | nan => false

/-- `x / n`, for a positive integer. -/
def divNat (x : PyFloat) (n : ℕ) : PyFloat :=
  match x with
  | finite x => finite (x / n)
  | inf negative => inf negative
  | nan => nan

/-- The least number that rounds to `2 ** 1024`, ties to even. No proof computes it. -/
@[irreducible] def overflowBound : ℚ := 2 ^ 1024 - 2 ^ 970

/-- The float next to a number, if it is in range. -/
def ofRat (x : ℚ) : Option PyFloat := if overflowBound ≤ |x| then none else some (finite x)

theorem ofRat_of_le {x : ℚ} (h : overflowBound ≤ |x|) : ofRat x = none := by
  rw [ofRat, if_pos h]

theorem ofRat_of_lt {x : ℚ} (h : |x| < overflowBound) : ofRat x = some (finite x) := by
  rw [ofRat, if_neg (not_le.mpr h)]

end PyFloat
