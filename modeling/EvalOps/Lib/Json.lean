import EvalOps.Lib.PyText

/-!
# `EvalOps.Lib.Json`: JSON values and their indented text

`Json` is a decoded JSON value, as Python's `json` module has it: integers and floats are
different values, and an object is the list of its fields in order. `Json.dumps` is
`json.dumps(value, indent=2)`. The digits of a float are a parameter.
-/

set_option autoImplicit false

/-- A decoded JSON value. -/
inductive Json
  | null
  | bool (b : Bool)
  | int (n : ℤ)
  | float (x : ℚ)
  | str (s : String)
  | arr (items : List Json)
  | obj (fields : List (String × Json))

namespace Json

/-- `\uXXXX`, for one UTF-16 code unit. -/
def escapeUnit (n : ℕ) : List Char :=
  [PyText.backslash, 'u', PyText.hexDigit (n / 4096), PyText.hexDigit (n / 256 % 16),
    PyText.hexDigit (n / 16 % 16), PyText.hexDigit (n % 16)]

/-- One code point inside a string, with `ensure_ascii`. -/
def escapeChar (c : Char) : List Char :=
  let n := c.toNat
  if c = PyText.doubleQuote ∨ c = PyText.backslash then [PyText.backslash, c]
  else if n = 10 then [PyText.backslash, 'n']
  else if n = 13 then [PyText.backslash, 'r']
  else if n = 9 then [PyText.backslash, 't']
  else if n = 12 then [PyText.backslash, 'f']
  else if n = 8 then [PyText.backslash, 'b']
  else if 32 ≤ n ∧ n ≤ 126 then [c]
  else if n < 0x10000 then escapeUnit n
  else escapeUnit (0xD800 + (n - 0x10000) / 0x400) ++ escapeUnit (0xDC00 + (n - 0x10000) % 0x400)

/-- The text of a string. -/
def encodeString (s : String) : String :=
  String.ofList (PyText.doubleQuote :: s.toList.flatMap escapeChar ++ [PyText.doubleQuote])

/-- A line break and the indentation of a level. -/
def newline (level : ℕ) : String := "\n" ++ String.ofList (List.replicate (2 * level) ' ')

/-- The items of a container between its brackets, one a line. -/
def bracketed (level : ℕ) (opening closing : String) (items : List String) : String :=
  if items.isEmpty then opening ++ closing
  else
    opening ++ newline (level + 1) ++ ("," ++ newline (level + 1)).intercalate items ++
      newline level ++ closing

mutual

/-- The text of a value at a level of indentation. -/
def dumpsAt (floatRepr : ℚ → String) (level : ℕ) : Json → String
  | null => "null"
  | bool b => if b then "true" else "false"
  | int n => toString n
  | float x => floatRepr x
  | str s => encodeString s
  | arr items => bracketed level "[" "]" (dumpsItems floatRepr (level + 1) items)
  | obj fields => bracketed level "\x7b" "\x7d" (dumpsFields floatRepr (level + 1) fields)

/-- The texts of the items of an array. -/
def dumpsItems (floatRepr : ℚ → String) (level : ℕ) : List Json → List String
  | [] => []
  | item :: items => dumpsAt floatRepr level item :: dumpsItems floatRepr level items

/-- The texts of the fields of an object. -/
def dumpsFields (floatRepr : ℚ → String) (level : ℕ) : List (String × Json) → List String
  | [] => []
  | (key, value) :: fields =>
      (encodeString key ++ ": " ++ dumpsAt floatRepr level value) ::
        dumpsFields floatRepr level fields

end

/-- `json.dumps(value, indent=2)`. -/
def dumps (floatRepr : ℚ → String) (value : Json) : String := dumpsAt floatRepr 0 value

/-! ### On one line -/

mutual

/-- The characters of a value on one line. -/
def line (floatRepr : ℚ → String) : Json → List Char
  | null => "null".toList
  | bool b => if b then "true".toList else "false".toList
  | int n => (toString n).toList
  | float x => (floatRepr x).toList
  | str s => (encodeString s).toList
  | arr items => '[' :: lineItems floatRepr items ++ [']']
  | obj fields => '{' :: lineFields floatRepr fields ++ ['}']

/-- The characters of the items of an array. -/
def lineItems (floatRepr : ℚ → String) : List Json → List Char
  | [] => []
  | [item] => line floatRepr item
  | item :: next :: items =>
      line floatRepr item ++ ',' :: ' ' :: lineItems floatRepr (next :: items)

/-- The characters of the fields of an object. -/
def lineFields (floatRepr : ℚ → String) : List (String × Json) → List Char
  | [] => []
  | [(key, value)] => (encodeString key).toList ++ ':' :: ' ' :: line floatRepr value
  | (key, value) :: next :: fields =>
      (encodeString key).toList ++ ':' :: ' ' ::
        (line floatRepr value ++ ',' :: ' ' :: lineFields floatRepr (next :: fields))

end

/-- `json.dumps(value)`. -/
def dumpsLine (floatRepr : ℚ → String) (value : Json) : String :=
  String.ofList (line floatRepr value)

end Json
