import EvalOps.Lib.ExceptRules
import EvalOps.Lib.PyText

/-!
# `EvalOps.Domain.Errors`: exceptions and non-blank text

`PyError` is a raised exception: its class and its message. The classes of `evalops` form a
tree under `EvalOpsError`. `PersistenceError` is the base of `RecordConflict` and
`RecordNotFound`. The other classes are the built-in ones that the modelled code can raise, and
those beside `Exception`, such as `KeyboardInterrupt`, which `except Exception` lets through.

`NonBlank` is the text that `_require_non_empty` accepts. An identifier or a name that the
domain validates is a `NonBlank`, so an entity with a blank one cannot be built.
-/

set_option autoImplicit false

namespace EvalOps

/-- The exception classes. -/
inductive ErrorKind
  | configError
  | domainValidationError
  | providerError
  | judgeError
  | persistenceError
  | recordConflict
  | recordNotFound
  | dispatchError
  | keyError
  | indexError
  | assertionError
  | integrityError
  | other (name : String)
  | baseException (name : String)
deriving DecidableEq

/-- `type(exc).__name__`. -/
def ErrorKind.className : ErrorKind → String
  | configError => "ConfigError"
  | domainValidationError => "DomainValidationError"
  | providerError => "ProviderError"
  | judgeError => "JudgeError"
  | persistenceError => "PersistenceError"
  | recordConflict => "RecordConflict"
  | recordNotFound => "RecordNotFound"
  | dispatchError => "DispatchError"
  | keyError => "KeyError"
  | indexError => "IndexError"
  | assertionError => "AssertionError"
  | integrityError => "IntegrityError"
  | other name => name
  | baseException name => name

/-- A raised exception. -/
structure PyError where
  kind : ErrorKind
  message : String
deriving DecidableEq

/-- `except EvalOpsError` catches this exception. -/
def PyError.isEvalOpsError (e : PyError) : Bool :=
  match e.kind with
  | .configError | .domainValidationError | .providerError | .judgeError
  | .persistenceError | .recordConflict | .recordNotFound | .dispatchError => true
  | _ => false

/-- `except Exception` catches this exception. -/
def PyError.isException (e : PyError) : Bool :=
  match e.kind with
  | .baseException _ => false
  | _ => true

/-- `raise ConfigError(message)`. -/
def PyError.config (message : String) : PyError := ⟨.configError, message⟩

/-- `raise DomainValidationError(message)`. -/
def PyError.domainValidation (message : String) : PyError := ⟨.domainValidationError, message⟩

/-- A computation that may raise. -/
abbrev Py (α : Type) := Except PyError α

/-- The computation raises no `ConfigError`. -/
def RaisesNoConfigError {α : Type} (x : Py α) : Prop := ∀ e, x = .error e → e.kind ≠ .configError

/-- A call that accepts every argument raises no `ConfigError`. -/
theorem accepts_raisesNoConfigError {α : Type} (_ : α) :
    RaisesNoConfigError (.ok () : Py Unit) := fun _ h => nomatch h

/-- The subscript `xs[i]` on a sequence. A negative index counts from the end. -/
def pyIndex {α : Type} (xs : List α) (i : ℤ) : Py α :=
  let position := if i < 0 then i + xs.length else i
  if position < 0 then throw ⟨.indexError, "tuple index out of range"⟩
  else
    match xs[position.toNat]? with
    | some x => pure x
    | none => throw ⟨.indexError, "tuple index out of range"⟩

/-- A subscript at a position in range returns the entry. -/
theorem pyIndex_of_lt {α : Type} {xs : List α} {i : ℤ} (h0 : 0 ≤ i) (hi : i < xs.length) :
    pyIndex xs i = .ok (xs.get ⟨i.toNat, by omega⟩) := by
  have hlt : i.toNat < xs.length := by omega
  unfold pyIndex
  simp only [if_neg (not_lt.mpr h0), List.getElem?_eq_getElem hlt]
  rfl

/-! ### Non-blank text -/

/-- Text that `_require_non_empty` accepts. -/
structure NonBlank where
  text : String
  nonblank : PyText.isBlank text = false
deriving DecidableEq

namespace NonBlank

theorem text_injective : Function.Injective NonBlank.text := by
  intro a b h
  cases a
  cases b
  cases h
  rfl

/-- Identifiers compare as Python strings do, by code points. -/
instance : LinearOrder NonBlank := LinearOrder.lift' NonBlank.text text_injective

instance : Inhabited NonBlank := ⟨"x", by decide⟩

end NonBlank

/-- `_require_non_empty(value, label)`. -/
def requireNonEmpty (value label : String) : Py NonBlank :=
  if h : PyText.isBlank value = false then pure ⟨value, h⟩
  else throw (.domainValidation (label ++ " must be a non-empty string"))

/-- An aware datetime, in microseconds since the epoch. A naive datetime has no value here, so
`_require_aware` has no failing case. -/
abbrev Timestamp := ℤ

end EvalOps
