import EvalOps.Domain.Errors
import EvalOps.Lib.Sorting

/-!
# `EvalOps.Prompt`: rendering a prompt template

`prompt.py` over the standard library's `string.Template`. The scanner splits a template into
literal characters, `$$` escapes, placeholders and ill-formed delimiters. `renderPrompt` accepts
only the placeholder `input`.
-/

set_option autoImplicit false

namespace EvalOps

/-- One match of `string.Template`'s pattern, or one character between matches. An ill-formed
delimiter keeps the position after its `$`. -/
inductive TemplateToken
  | literal (c : Char)
  | escaped
  | placeholder (name : String)
  | invalid (position : ℕ)
deriving DecidableEq

namespace Template

/-- The first character of an identifier: `[_a-z]`, ignoring case. -/
def isIdStart (c : Char) : Bool :=
  c == '_' || ('a' ≤ c && c ≤ 'z') || ('A' ≤ c && c ≤ 'Z')

/-- A later character of an identifier: `[_a-z0-9]`, ignoring case. -/
def isIdRest (c : Char) : Bool := isIdStart c || ('0' ≤ c && c ≤ '9')

/-- The longest identifier at the front, and the rest. -/
def takeIdentifier : List Char → Option (String × List Char)
  | [] => none
  | c :: rest =>
      if isIdStart c then
        some (String.ofList (c :: rest.takeWhile isIdRest), rest.dropWhile isIdRest)
      else none

/-- The alternatives of the pattern after a `$`, and the rest of the text. -/
def afterDelimiter (position : ℕ) (text : List Char) : TemplateToken × List Char :=
  match text with
  | '$' :: rest => (.escaped, rest)
  | '{' :: rest =>
      match takeIdentifier rest with
      | some (name, '}' :: rest) => (.placeholder name, rest)
      | _ => (.invalid position, text)
  | _ =>
      match takeIdentifier text with
      | some (name, rest) => (.placeholder name, rest)
      | none => (.invalid position, text)

/-- The tokens of a text whose first character is at `position`. Each token consumes at least
one character, so the length of the text is enough fuel. -/
def scanFrom : (fuel : ℕ) → (position : ℕ) → List Char → List TemplateToken
  | 0, _, _ => []
  | _ + 1, _, [] => []
  | fuel + 1, position, c :: rest =>
      if c == '$' then
        let (token, after) := afterDelimiter (position + 1) rest
        token :: scanFrom fuel (position + 1 + (rest.length - after.length)) after
      else .literal c :: scanFrom fuel (position + 1) rest

/-- The tokens of a template. -/
def scan (template : String) : List TemplateToken :=
  scanFrom template.toList.length 0 template.toList

/-- `Template(template).get_identifiers()`, as a set. -/
def identifiers (template : String) : List String :=
  ((scan template).filterMap fun token =>
    match token with
    | .placeholder name => some name
    | _ => none).dedup

/-- The text of `_invalid`'s `ValueError`: the line and column of an ill-formed delimiter. -/
def invalidMessage (template : String) (position : ℕ) : String :=
  let lines := PyText.splitlinesFrom [] (template.toList.take position)
  let lineno := if lines.isEmpty then 1 else lines.length
  let colno := if lines.isEmpty then 1 else position - lines.dropLast.flatten.length
  s!"Invalid placeholder in string: line {lineno}, col {colno}"

/-- `Template(template).substitute({"input": case_input})`. -/
def substitute (template caseInput : String) : Except String String := do
  let parts ← (scan template).mapM fun token =>
    match token with
    | .literal c => pure (String.singleton c)
    | .escaped => pure "$"
    | .placeholder name =>
        if name = "input" then pure caseInput else throw (PyText.repr name)
    | .invalid position => throw (invalidMessage template position)
  pure (String.join parts)

end Template

/-- `render_prompt`. -/
def renderPrompt (template caseInput : String) : Py String :=
  let identifiers := Template.identifiers template
  let unsupported := Sorting.sorted (identifiers.filter fun name => name != "input")
  if unsupported ≠ [] then
    throw (.config ("prompt_template references unsupported placeholder(s) " ++
      PyText.reprList unsupported ++ "; only $\x7binput\x7d is supported"))
  else if "input" ∉ identifiers then
    throw (.config "prompt_template must reference $\x7binput\x7d")
  else
    match Template.substitute template caseInput with
    | .ok prompt => pure prompt
    | .error exc =>
        throw (.config ("prompt_template has invalid $ syntax (" ++ exc ++
          "); use $$ for a literal $"))

example : renderPrompt "Q: $\x7binput\x7d costs $$5" "tea" = .ok "Q: tea costs $5" := by
  decide +kernel

end EvalOps
