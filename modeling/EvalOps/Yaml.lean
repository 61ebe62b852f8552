import EvalOps.Adapters

/-!
# `EvalOps.Yaml`: the values of a YAML document

What `yaml.safe_load` returns, and the typed parsing helpers of `config.py`. Each helper names the
section and the field in its `ConfigError`.

A mapping with a key that is not a string is left out, and so is a text with a lone surrogate, which
`yaml.safe_load` builds from an escape such as `\ud800`. A value of a type that no config uses, such
as a date or a set, is `other` with the name of its type.
-/

set_option autoImplicit false

namespace EvalOps

/-- A value of a YAML document. The keys of a mapping are distinct strings. -/
inductive Yaml
  | null
  | bool (b : Bool)
  | int (n : ℤ)
  | float (x : PyFloat)
  | str (s : String)
  | seq (items : List Yaml)
  | map (entries : List (String × Yaml))
  | other (typeName : String)

/-- The entries of a mapping. -/
abbrev YamlMapping := List (String × Yaml)

namespace Yaml

/-- `type(value).__name__`. -/
def typeName : Yaml → String
  | null => "NoneType"
  | bool _ => "bool"
  | int _ => "int"
  | float _ => "float"
  | str _ => "str"
  | seq _ => "list"
  | map _ => "dict"
  | other typeName => typeName

mutual

/-- The JSON value with the same content, if there is one. -/
def toJson : Yaml → Option Json
  | null => some .null
  | bool b => some (.bool b)
  | int n => some (.int n)
  | float (.finite x) => some (.float x)
  | float _ => none
  | str s => some (.str s)
  | seq items => (toJsonItems items).map .arr
  | map entries => (toJsonFields entries).map .obj
  | other _ => none

/-- The JSON values of the items of a list. -/
def toJsonItems : List Yaml → Option (List Json)
  | [] => some []
  | item :: items => do
      let json ← toJson item
      let jsons ← toJsonItems items
      pure (json :: jsons)

/-- The fields of the JSON object of a mapping. -/
def toJsonFields : List (String × Yaml) → Option (List (String × Json))
  | [] => some []
  | (key, value) :: entries => do
      let json ← toJson value
      let fields ← toJsonFields entries
      pure ((key, json) :: fields)

end

end Yaml

/-! ### Typed parsing -/

/-- `_build`: a `DomainValidationError` of the constructor becomes a `ConfigError`. -/
def buildEntity {α : Type} (label : String) (factory : Py α) : Py α :=
  match factory with
  | .ok value => .ok value
  | .error exc =>
      if exc.kind = .domainValidationError then .error (.config (label ++ ": " ++ exc.message))
      else .error exc

/-- `_as_mapping`. -/
def asMapping (value : Yaml) (label : String) : Py YamlMapping :=
  match value with
  | .map entries => pure entries
  | value => throw (.config (label ++ " must be a mapping, got " ++ value.typeName))

/-- `_req`. -/
def req (mapping : YamlMapping) (key label : String) : Py Yaml :=
  match mapping.lookup key with
  | some value => pure value
  | none => throw (.config (label ++ ": missing required field " ++ PyText.repr key))

/-- The error of a field of another type. -/
def wrongType (value : Yaml) (key label expected : String) : PyError :=
  .config (label ++ "." ++ key ++ " must be " ++ expected ++ ", got " ++ value.typeName)

/-- `_req_str`. -/
def reqStr (mapping : YamlMapping) (key label : String) : Py String := do
  match ← req mapping key label with
  | .str s => pure s
  | value => throw (wrongType value key label "a string")

/-- `_opt_str`, with the default `None`. -/
def optStr (mapping : YamlMapping) (key label : String) : Py (Option String) :=
  match mapping.lookup key with
  | none | some .null => pure none
  | some (.str s) => pure (some s)
  | some value => throw (wrongType value key label "a string")

/-- `_opt_int`. -/
def optInt (mapping : YamlMapping) (key label : String) (default : ℤ) : Py ℤ :=
  match mapping.lookup key with
  | none => pure default
  | some (.int n) => pure n
  | some value => throw (wrongType value key label "an integer")

/-- `_opt_number`. -/
def optNumber (mapping : YamlMapping) (key label : String) (default : ℚ) : Py PyFloat :=
  match mapping.lookup key with
  | none => pure (.finite default)
  | some (.int n) => do
      let x ← floatOfInt n
      pure (.finite x)
  | some (.float x) => pure x
  | some value => throw (wrongType value key label "a number")

/-- `_opt_mapping`. -/
def optMapping (mapping : YamlMapping) (key label : String) : Py YamlMapping :=
  match mapping.lookup key with
  | none | some .null => pure []
  | some value => asMapping value (label ++ "." ++ key)

end EvalOps
