import EvalOps.Lib.PyText
import EvalOps.Lib.Substitution

/-!
# `EvalOps.Obs.Redact`: what may reach a log line

`evalops/obs/redact.py`. A text is redacted in three passes over its code points, one for each shape
of a credential, and a logged value is also a single line of bounded length.

The patterns ignore the case of letters: a character stands for the letter that `foldCase` gives,
which is how Python compares it, beyond ASCII as well. Which characters beyond ASCII are letters or
digits is the parameter `unicodeAlnum`, since only the word boundaries ask.
-/

set_option autoImplicit false

namespace EvalOps.Obs

open Regex

/-- What a character is compared as when its case is ignored. Four characters beyond ASCII are
compared as ASCII letters: the dotted capital I, the dotless i, the long s and the Kelvin sign. -/
def foldCase (c : Char) : Char :=
  let n := c.toNat
  if 65 ≤ n ∧ n ≤ 90 then Char.ofNat (n + 32)
  else if n = 0x130 ∨ n = 0x131 then 'i'
  else if n = 0x17F then 's'
  else if n = 0x212A then 'k'
  else c

/-- A letter, a digit or an underscore: what `\b` looks for. -/
def isWord (unicodeAlnum : Char → Bool) (c : Char) : Bool :=
  if c.toNat < 128 then c.isAlphanum || c == '_' else unicodeAlnum c

/-- A text of a pattern, in any case. -/
def letters (text : String) : Regex :=
  text.toList.foldr (fun c r => seq (char fun d => foldCase d == c) r) empty

/-- One of several patterns. -/
def oneOf : List Regex → Regex
  | [] => empty
  | [r] => r
  | r :: rs => alt r (oneOf rs)

/-- `[A-Za-z0-9]`. -/
def isAlnum (c : Char) : Bool := (foldCase c).isAlphanum

/-- `[A-Za-z0-9_\-]`. -/
def isKeyChar (c : Char) : Bool := isAlnum c || c == '_' || c == '-'

/-- `[A-Za-z0-9._\-+/=]`. -/
def isTokenChar (c : Char) : Bool :=
  isAlnum c || c == '.' || c == '_' || c == '-' || c == '+' || c == '/' || c == '='

/-- `["'\s:=]`. -/
def isSeparator (c : Char) : Bool :=
  c == PyText.doubleQuote || c == PyText.singleQuote || PyText.isSpace c || c == ':' || c == '='

/-- `[^\s"',}\]]`. -/
def isValueChar (c : Char) : Bool :=
  !(PyText.isSpace c || c == PyText.doubleQuote || c == PyText.singleQuote || c == ',' ||
    c == Char.ofNat 125 || c == ']')

/-- `(?:sk|rk|pk)-(?:ant-)?`. -/
def keyStart : Regex :=
  seq (oneOf [letters "sk", letters "rk", letters "pk"]) (seq (letters "-") (opt (letters "ant-")))

/-- `bearer|token|basic`. -/
def scheme : Regex := oneOf [letters "bearer", letters "token", letters "basic"]

/-- `[_-]?`. -/
def dash : Regex := opt (char fun c => c == '_' || c == '-')

/-- `authorization|api[_-]?key|access[_-]?token|secret|password`. -/
def secretName : Regex :=
  oneOf [letters "authorization",
    seq (letters "api") (seq dash (letters "key")),
    seq (letters "access") (seq dash (letters "token")),
    letters "secret", letters "password"]

/-- OpenAI and Anthropic style keys become `\1***`. -/
def apiKeys : Rule where
  wordStart := true
  body := seq (group keyStart) (many 6 isKeyChar)
  replacement groups := groups.headD [] ++ "***".toList

/-- HTTP auth schemes and what follows them become `\1 ***`. -/
def authSchemes : Rule where
  wordStart := true
  body := seq (seq (group scheme) (many 1 PyText.isSpace)) (many 6 isTokenChar)
  replacement groups := groups.headD [] ++ " ***".toList

/-- A named secret and its value become `\1\2***`. -/
def namedSecrets : Rule where
  wordStart := false
  body := seq (seq (group secretName) (group (many 1 isSeparator))) (many 1 isValueChar)
  replacement groups := groups.headD [] ++ groups.tail.headD [] ++ "***".toList

/-- `_REDACTIONS`. -/
def redactions : List Rule := [apiKeys, authSchemes, namedSecrets]

/-- `DEFAULT_LIMIT`: hard cap on any single sanitised text that goes to a log. -/
def defaultLimit : ℤ := 500

variable (unicodeAlnum : Char → Bool)

/-- `pattern.sub(replacement, text)`. -/
def patternSub (rule : Rule) (text : String) : String :=
  String.ofList (rule.sub (isWord unicodeAlnum) none text.toList)

/-- Masks credential-shaped parts of a text. -/
def redact (text : String) : String :=
  redactions.foldl (fun text rule => patternSub unicodeAlnum rule text) text

/-- `text[:stop]`. -/
def sliceTo (text : String) (stop : ℤ) : String :=
  String.ofList (text.toList.take (if stop < 0 then text.length + stop else stop).toNat)

/-- `safe_str`: a bounded, credential-stripped, single-line rendering of a value. -/
def safeStr (value : String) (limit : ℤ) : String :=
  let text := redact unicodeAlnum (" ".intercalate (PyText.split value))
  if limit < text.length then sliceTo text (limit - 1) ++ (Char.ofNat 0x2026).toString else text

/-- `safe_error`: the type of an error and its bounded, redacted message. -/
def safeError (exceptionType message : String) (limit : ℤ) : String :=
  let message := safeStr unicodeAlnum message limit
  if message ≠ "" then exceptionType ++ ": " ++ message else exceptionType

end EvalOps.Obs
