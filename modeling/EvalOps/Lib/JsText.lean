import EvalOps.Lib.Doubles
import EvalOps.Lib.Numerals
import EvalOps.Lib.Trimming

/-!
# `EvalOps.Lib.JsText`: JavaScript's text primitives

`trim` and `Number` of a string, as ECMAScript defines them. A string is a Lean `String`, and a
number is a double.
-/

set_option autoImplicit false

namespace JsText

/-- `WhiteSpace` or `LineTerminator`. -/
def isSpace (c : Char) : Bool :=
  let n := c.toNat
  (9 ≤ n && n ≤ 13) || n == 32 || n == 0xA0 || n == 0x1680 || (0x2000 ≤ n && n ≤ 0x200A) ||
    n == 0x2028 || n == 0x2029 || n == 0x202F || n == 0x205F || n == 0x3000 || n == 0xFEFF

/-- `trim` on the characters. -/
def trimChars (cs : List Char) : List Char := Trimming.trim isSpace cs

/-- `s.trim()`. -/
def trim (s : String) : String := String.ofList (trimChars s.toList)

/-! ### `Number` of a string -/

/-- The value of a digit in a radix. -/
def digitValue (radix : ℕ) (c : Char) : Option ℕ :=
  let n := c.toNat
  let value :=
    if 48 ≤ n ∧ n ≤ 57 then n - 48
    else if 97 ≤ n ∧ n ≤ 102 then n - 87
    else if 65 ≤ n ∧ n ≤ 70 then n - 55
    else radix
  if value < radix then some value else none

/-- The radix that a letter after a zero announces. -/
def radixOf (c : Char) : Option ℕ :=
  if c = 'x' ∨ c = 'X' then some 16
  else if c = 'o' ∨ c = 'O' then some 8
  else if c = 'b' ∨ c = 'B' then some 2
  else none

/-- The number of some digits in a radix. -/
def digitsValue (radix : ℕ) (digits : List Char) : Option ℕ :=
  if digits.isEmpty then none
  else digits.foldlM (fun value c => (digitValue radix c).map fun d => value * radix + d) 0

/-- `NonDecimalIntegerLiteral`. -/
def nonDecimal : List Char → Option ℕ
  | '0' :: mark :: digits => (radixOf mark).bind fun radix => digitsValue radix digits
  | _ => none

/-- The digits after a point, and what is behind them. -/
def fractionDigits : List Char → List Char × List Char
  | '.' :: cs => (cs.takeWhile Char.isDigit, cs.dropWhile Char.isDigit)
  | cs => ([], cs)

/-- `StrUnsignedDecimalLiteral`, after its sign. -/
def unsignedDecimal (negative : Bool) (cs : List Char) : PyFloat :=
  if cs = "Infinity".toList then .inf negative
  else
    let whole := cs.takeWhile Char.isDigit
    let (fraction, rest) := fractionDigits (cs.dropWhile Char.isDigit)
    let (exponent, rest) := Numeral.scanExponent rest
    if (whole ++ fraction).isEmpty || !rest.isEmpty then .nan
    else PyFloat.nearest (Numeral.value { negative, whole, fraction, exponent })

/-- `Number(s)`: the empty text is `0`, and what is not a numeral is `NaN`. -/
def toNumber (s : String) : PyFloat :=
  match trimChars s.toList with
  | [] => .finite 0
  | '-' :: cs => unsignedDecimal true cs
  | '+' :: cs => unsignedDecimal false cs
  | cs =>
      match nonDecimal cs with
      | some n => PyFloat.nearest n
      | none => unsignedDecimal false cs

end JsText
