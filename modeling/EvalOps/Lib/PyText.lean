import EvalOps.Lib.Trimming
import Mathlib.Data.Rat.Floor
import Mathlib.Data.Nat.Log
import Mathlib.Data.String.Basic
import Mathlib.Data.List.TakeWhile

/-!
# `EvalOps.Lib.PyText`: Python's text primitives

The `str` operations and number formats that Python programs validate and print with:
`isspace`, `strip`, `endswith`, `repr`, and the `f`, `%` and `g` presentation types. A Python
`str` is a Lean `String`, a sequence of code points.

Numbers are rationals. A Python float is a binary rational, and its formats round the exact
value half to even, so each format below is the documented one at that value.
-/

set_option autoImplicit false

namespace PyText

/-! ### Whitespace -/

/-- `str.isspace` on one code point. -/
def isSpace (c : Char) : Bool :=
  let n := c.toNat
  (9 ≤ n && n ≤ 13) || (28 ≤ n && n ≤ 32) || n == 0x85 || n == 0xA0 || n == 0x1680 ||
    (0x2000 ≤ n && n ≤ 0x200A) || n == 0x2028 || n == 0x2029 || n == 0x202F || n == 0x205F ||
    n == 0x3000

/-- `strip` on the code points: the leading and the trailing whitespace is dropped. -/
def stripChars (cs : List Char) : List Char :=
  ((cs.dropWhile isSpace).reverse.dropWhile isSpace).reverse

/-- `str.strip()`. -/
def strip (s : String) : String := String.ofList (stripChars s.toList)

/-- `not s.strip()`: nothing is left once the whitespace is gone. -/
def isBlank (s : String) : Bool := (stripChars s.toList).isEmpty

/-- `s.endswith(suffix)`. -/
def endswith (s suffix : String) : Bool := suffix.toList.isSuffixOf s.toList

/-- Nothing is left after `strip` exactly when every code point is whitespace. -/
theorem stripChars_eq_nil_iff (cs : List Char) :
    stripChars cs = [] ↔ ∀ c ∈ cs, isSpace c = true :=
  Trimming.trim_eq_nil_iff isSpace cs

/-- A string is blank exactly when every code point is whitespace. -/
theorem isBlank_iff (s : String) : isBlank s = true ↔ ∀ c ∈ s.toList, isSpace c = true := by
  unfold isBlank
  rw [List.isEmpty_iff, stripChars_eq_nil_iff]

/-- A string with a code point that is not whitespace is not blank. -/
theorem isBlank_eq_false_of_mem {s : String} {c : Char} (hc : c ∈ s.toList)
    (hs : isSpace c = false) : isBlank s = false := by
  by_contra hne
  have hblank := (isBlank_iff s).mp (by simpa using hne) c hc
  rw [hs] at hblank
  exact Bool.noConfusion hblank

/-- Text that has a code point other than whitespace stays non-blank under concatenation. -/
theorem isBlank_append_right {s t : String} (h : isBlank t = false) :
    isBlank (s ++ t) = false := by
  by_contra hne
  have hall := (isBlank_iff (s ++ t)).mp (by simpa using hne)
  rw [(isBlank_iff t).mpr fun c hc => hall c (by
    rw [String.toList_append]
    exact List.mem_append_right _ hc)] at h
  exact Bool.noConfusion h

/-- The first code point of stripped text is not whitespace. -/
theorem head_stripChars {cs : List Char} {c : Char} {rest : List Char}
    (h : stripChars cs = c :: rest) : isSpace c = false :=
  Trimming.head_trim isSpace h

/-- Text that keeps a code point after `strip` is not blank. -/
theorem isBlank_strip_of_ne {s : String} (h : strip s ≠ "") : isBlank (strip s) = false := by
  cases hcs : stripChars s.toList with
  | nil =>
      exact absurd (by simp [strip, hcs]) h
  | cons c rest =>
      apply isBlank_eq_false_of_mem (c := c)
      · simp [strip, hcs]
      · exact head_stripChars hcs

/-- `s.startswith(prefix)`. -/
def startswith (s start : String) : Bool := start.toList.isPrefixOf s.toList

/-- `lstrip` on the code points: the leading whitespace is dropped. -/
def lstripChars (cs : List Char) : List Char := cs.dropWhile isSpace

/-- `rstrip` on the code points: the trailing whitespace is dropped. -/
def rstripChars (cs : List Char) : List Char := (cs.reverse.dropWhile isSpace).reverse

/-- Stripping stops at the first code point that is not whitespace, on both sides. -/
theorem lstripChars_append_cons (u x : List Char) {c : Char} (hc : isSpace c = false) :
    lstripChars (u ++ c :: x) = lstripChars u ++ c :: x := by
  induction u with
  | nil => exact List.dropWhile_cons_of_neg (by simp [hc])
  | cons d u ih =>
      unfold lstripChars at ih ⊢
      rw [List.cons_append, List.dropWhile_cons, List.dropWhile_cons]
      split_ifs
      · exact ih
      · rfl

theorem rstripChars_append_cons (u x : List Char) {c : Char} (hc : isSpace c = false) :
    rstripChars (u ++ c :: x) = u ++ c :: rstripChars x := by
  have hleft := lstripChars_append_cons x.reverse u.reverse hc
  unfold lstripChars at hleft
  rw [rstripChars, List.reverse_append, List.reverse_cons, List.append_assoc,
    List.singleton_append, hleft, List.reverse_append, List.reverse_cons, List.reverse_reverse,
    List.append_assoc, List.singleton_append]
  rfl

theorem stripChars_append_cons (u x : List Char) {c : Char} (hc : isSpace c = false) :
    stripChars (u ++ c :: x) = lstripChars u ++ c :: rstripChars x := by
  have hleft := lstripChars_append_cons u x hc
  unfold lstripChars at hleft
  rw [stripChars, hleft]
  exact rstripChars_append_cons (lstripChars u) x hc

theorem rstripChars_prefix_self (cs : List Char) : rstripChars cs <+: cs := by
  have hsuffix := List.dropWhile_suffix (l := cs.reverse) isSpace
  rw [← List.reverse_prefix, List.reverse_reverse] at hsuffix
  exact hsuffix

theorem stripChars_sublist (cs : List Char) : (stripChars cs).Sublist cs :=
  (rstripChars_prefix_self _).sublist.trans (List.dropWhile_sublist isSpace)

/-- `s.partition(sep)` on the code points: what is in front of the first occurrence of a separator,
and what is behind it. -/
def partitionChars (sep : List Char) : List Char → Option (List Char × List Char)
  | [] => if sep.isEmpty then some ([], []) else none
  | c :: cs =>
      if sep.isPrefixOf (c :: cs) then some ([], (c :: cs).drop sep.length)
      else (partitionChars sep cs).map fun r => (c :: r.1, r.2)

/-- `s.split()`: the maximal parts without whitespace. -/
def split (s : String) : List String :=
  ((s.toList.splitOnP isSpace).filter fun part => !part.isEmpty).map String.ofList

/-- `str.lower()` on one code point, as far as ASCII letters and digits are concerned. The Kelvin
sign and the dotted capital I have an ASCII letter in their lower case. The other code points
beyond ASCII have none, and stand for their lower case. -/
def lowerChar (c : Char) : List Char :=
  let n := c.toNat
  if 65 ≤ n ∧ n ≤ 90 then [Char.ofNat (n + 32)]
  else if n = 0x212A then ['k']
  else if n = 0x130 then ['i', Char.ofNat 0x307]
  else [c]

/-- `s.lower()`, as far as ASCII letters and digits are concerned. -/
def lower (s : String) : String := String.ofList (s.toList.flatMap lowerChar)

/-! ### Lines -/

/-- A line boundary of `str.splitlines`. -/
def isLineBreak (c : Char) : Bool :=
  let n := c.toNat
  (10 ≤ n && n ≤ 13) || (28 ≤ n && n ≤ 30) || n == 0x85 || n == 0x2028 || n == 0x2029

/-- `splitlines(keepends=True)` after the code points `current` of an open line. A carriage
return before a line feed does not end the line. -/
def splitlinesFrom (current : List Char) : List Char → List (List Char)
  | [] => if current.isEmpty then [] else [current]
  | c :: rest =>
      if isLineBreak c && !(c.toNat == 13 && rest.head?.map Char.toNat == some 10) then
        (current ++ [c]) :: splitlinesFrom [] rest
      else splitlinesFrom (current ++ [c]) rest

/-! ### `repr` of a string -/

/-- The code point of the single quote. -/
def singleQuote : Char := Char.ofNat 39

/-- The code point of the double quote. -/
def doubleQuote : Char := Char.ofNat 34

/-- The code point of the backslash. -/
def backslash : Char := Char.ofNat 92

/-- A hexadecimal digit. -/
def hexDigit (n : ℕ) : Char := if n < 10 then Char.ofNat (48 + n) else Char.ofNat (87 + n)

/-- One code point inside `repr`'s quotes. Printable code points stand for themselves; the
ASCII control characters and the backslash are escaped. -/
def reprChar (quote c : Char) : List Char :=
  if c = quote ∨ c = backslash then [backslash, c]
  else if c.toNat = 10 then [backslash, 'n']
  else if c.toNat = 13 then [backslash, 'r']
  else if c.toNat = 9 then [backslash, 't']
  else if c.toNat < 32 ∨ c.toNat = 127 then
    [backslash, 'x', hexDigit (c.toNat / 16), hexDigit (c.toNat % 16)]
  else [c]

/-- `repr(s)`: single quotes unless the text has a single quote and no double quote. -/
def repr (s : String) : String :=
  let quote :=
    if s.toList.contains singleQuote && !s.toList.contains doubleQuote then doubleQuote
    else singleQuote
  String.ofList (quote :: s.toList.flatMap (reprChar quote) ++ [quote])

/-- `repr` of a list of strings. -/
def reprList (xs : List String) : String := "[" ++ ", ".intercalate (xs.map repr) ++ "]"

/-! ### Number formats -/

/-- The nearest integer, ties to even. -/
def roundHalfEven (q : ℚ) : ℤ :=
  let whole := ⌊q⌋
  let rest := q - whole
  if rest < 1 / 2 then whole
  else if 1 / 2 < rest then whole + 1
  else if whole % 2 = 0 then whole else whole + 1

/-- Digits padded with zeros on the left to a width. -/
def zeroPad (width n : ℕ) : String :=
  let digits := toString n
  String.ofList (List.replicate (width - digits.length) '0') ++ digits

/-- The decimal text of `n / 10 ^ digits`. -/
def decimalText (digits n : ℕ) : String :=
  if digits = 0 then toString n
  else toString (n / 10 ^ digits) ++ "." ++ zeroPad digits (n % 10 ^ digits)

/-- The format `.{digits}f`. -/
def fixed (digits : ℕ) (q : ℚ) : String :=
  let text := decimalText digits (roundHalfEven (|q| * 10 ^ digits)).toNat
  if q < 0 then "-" ++ text else text

/-- The decimal exponent of a positive number: the largest `e` with `10 ^ e ≤ a`. -/
def decimalExponent (a : ℚ) : ℤ :=
  if 1 ≤ a then (Nat.log 10 ⌊a⌋.toNat : ℤ) else -(Nat.clog 10 ⌈1 / a⌉.toNat : ℤ)

/-- Trailing zeros of a fraction are dropped, and the point with them. -/
def trimFraction (text : String) : String :=
  if text.toList.contains '.' then
    let kept := (text.toList.reverse.dropWhile (· == '0'))
    String.ofList (if kept.head? = some '.' then kept.tail else kept).reverse
  else text

/-- The format `.{precision}g`, for a positive precision. -/
def general (precision : ℕ) (q : ℚ) : String :=
  if q = 0 then "0"
  else
    let exponent₀ := decimalExponent |q|
    let digits₀ := (roundHalfEven (|q| * (10 : ℚ) ^ ((precision : ℤ) - 1 - exponent₀))).toNat
    -- Rounding can carry into a new leading digit.
    let carried := digits₀ = 10 ^ precision
    let exponent := if carried then exponent₀ + 1 else exponent₀
    let digits := if carried then 10 ^ (precision - 1) else digits₀
    let text :=
      if -4 ≤ exponent ∧ exponent < precision then
        trimFraction (decimalText ((precision : ℤ) - 1 - exponent).toNat digits)
      else
        trimFraction (decimalText (precision - 1) digits) ++ "e" ++
          (if exponent < 0 then "-" else "+") ++ zeroPad 2 exponent.natAbs
    if q < 0 then "-" ++ text else text

/-- The alignment `<{width}`. -/
def alignLeft (width : ℕ) (text : String) : String :=
  text ++ String.ofList (List.replicate (width - text.length) ' ')

/-- The alignment `>{width}`. -/
def alignRight (width : ℕ) (text : String) : String :=
  String.ofList (List.replicate (width - text.length) ' ') ++ text

example : general 6 (1 / 4) = "0.25" ∧ fixed 1 (1 / 4) = "0.2" := by decide +kernel

end PyText
