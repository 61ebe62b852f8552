import EvalOps.Lib.JsonLayouts
import EvalOps.Lib.Lists
import Mathlib.Data.List.DropRight

/-!
# `EvalOps.Lib.CodePoints`: strings with lone surrogates

A Python string is a list of code points. Some of them are surrogates, which are no characters and
have no UTF-8 encoding: `json.loads` reads them from escapes, and the command line from bytes that
are not UTF-8. A stream has an `Encoder`, whose error handler may let it take some of them.
-/

set_option autoImplicit false

/-- A code point: a character, or one of the surrogates. -/
inductive CodePoint
  | char (c : Char)
  | surrogate (unit : Fin 0x800)
deriving DecidableEq

/-- A Python string. -/
abbrev PyStr := List CodePoint

/-- The encoder of a stream that takes every character, as the one of UTF-8 does. Its error handler
may take some of the surrogates. -/
structure Encoder where
  takesSurrogate : Fin 0x800 → Bool

namespace Encoder

/-- The code points that are encoded. -/
def takes (encoder : Encoder) : CodePoint → Bool
  | .char _ => true
  | .surrogate unit => encoder.takesSurrogate unit

/-- The error handler `strict`: no surrogate is encoded. -/
def strict : Encoder := ⟨fun _ => false⟩

/-- The error handler `surrogateescape`: U+DC80 to U+DCFF stand for single bytes. -/
def surrogateEscape : Encoder := ⟨fun unit => decide (0x480 ≤ unit.val ∧ unit.val < 0x500)⟩

end Encoder

namespace CodePoint

/-- `c.isspace()`. -/
def isSpace : CodePoint → Bool
  | char c => PyText.isSpace c
  | surrogate _ => false

/-- The code point inside the quotes of a `repr`. A surrogate is escaped. -/
def reprPoint (quote : Char) : CodePoint → List Char
  | char c => PyText.reprChar quote c
  | surrogate unit =>
      let n := 0xD800 + unit.val
      [PyText.backslash, 'u', PyText.hexDigit (n / 0x1000), PyText.hexDigit (n / 0x100 % 16),
        PyText.hexDigit (n / 16 % 16), PyText.hexDigit (n % 16)]

end CodePoint

namespace PyStr

/-- The string of some characters. -/
def ofChars (cs : List Char) : PyStr := cs.map .char

/-- The string of a text. -/
def ofString (s : String) : PyStr := ofChars s.toList

/-- Every code point is encoded. -/
def Encodable (encoder : Encoder) (s : PyStr) : Prop := ∀ p ∈ s, encoder.takes p = true

/-- `s.rstrip()`. -/
def rstrip (s : PyStr) : PyStr := s.rdropWhile CodePoint.isSpace

/-- `s.strip()`. -/
def strip (s : PyStr) : PyStr := rstrip (s.dropWhile CodePoint.isSpace)

/-- `s[-n:]`. -/
def takeEnd (n : ℕ) (s : PyStr) : PyStr := s.rtake n

/-- `sep.join(parts)`. -/
def join (sep : String) (parts : List PyStr) : PyStr := (ofString sep).intercalate parts

/-- `repr(s)`. -/
def repr (s : PyStr) : PyStr :=
  let quote :=
    if s.contains (.char PyText.singleQuote) && !s.contains (.char PyText.doubleQuote) then
      PyText.doubleQuote
    else PyText.singleQuote
  ofChars (quote :: s.flatMap (CodePoint.reprPoint quote) ++ [quote])

/-- The code point of a unit on its own. -/
def unitPoint (unit : ℕ) : CodePoint :=
  if h : 0xD800 ≤ unit ∧ unit < 0xE000 then .surrogate ⟨unit - 0xD800, by omega⟩
  else .char (Char.ofNat unit)

/-- The code points of a sequence of units: a high surrogate and a low one after it are one. -/
def ofUnits : List ℕ → PyStr
  | [] => []
  | [unit] => [unitPoint unit]
  | high :: low :: units =>
      if JsonReader.isHigh high && JsonReader.isLow low then
        .char (Char.ofNat (0x10000 + (high - 0xD800) * 0x400 + (low - 0xDC00))) :: ofUnits units
      else unitPoint high :: ofUnits (low :: units)

theorem ofString_injective : Function.Injective ofString := by
  intro s t h
  have hinjective : Function.Injective CodePoint.char := fun c d h => by
    cases h
    rfl
  exact String.toList_injective (hinjective.list_map h)

/-- The units of a character are the character. -/
theorem ofUnits_charUnits (c : Char) (units : List ℕ) :
    ofUnits (JsonReader.charUnits c ++ units) = .char c :: ofUnits units := by
  have hbounds := JsonReader.toNat_bounds c
  unfold JsonReader.charUnits
  split_ifs with hbmp
  · have hhigh : JsonReader.isHigh c.toNat = false := by
      rw [JsonReader.isHigh, decide_eq_false_iff_not]
      omega
    have hpoint : unitPoint c.toNat = .char c := by
      rw [unitPoint, dif_neg (by omega), Char.ofNat_toNat]
    cases units with
    | nil =>
        show [unitPoint c.toNat] = [.char c]
        rw [hpoint]
    | cons low units =>
        rw [List.cons_append, List.nil_append, ofUnits, hhigh, hpoint]
        rfl
  · have hhigh : JsonReader.isHigh (0xD800 + (c.toNat - 0x10000) / 0x400) = true := by
      rw [JsonReader.isHigh, decide_eq_true_iff]
      omega
    have hlow : JsonReader.isLow (0xDC00 + (c.toNat - 0x10000) % 0x400) = true := by
      rw [JsonReader.isLow, decide_eq_true_iff]
      omega
    have hvalue : 0x10000 + (0xD800 + (c.toNat - 0x10000) / 0x400 - 0xD800) * 0x400 +
        (0xDC00 + (c.toNat - 0x10000) % 0x400 - 0xDC00) = c.toNat := by omega
    rw [List.cons_append, List.cons_append, List.nil_append, ofUnits, hhigh, hlow, hvalue,
      Char.ofNat_toNat]
    rfl

instance : JsonReader.TextUnits PyStr where
  ofUnits := ofUnits
  ofText := ofString
  ofUnits_text cs := by
    induction cs with
    | nil => rfl
    | cons c cs ih =>
        rw [List.flatMap_cons, ofUnits_charUnits, ih]
        simp [ofString, ofChars]
  ofText_injective := ofString_injective

/-! ### What can be encoded -/

variable {encoder : Encoder}

theorem encodable_ofChars (cs : List Char) : Encodable encoder (ofChars cs) := by
  intro p hp
  obtain ⟨c, _, rfl⟩ := List.mem_map.mp hp
  rfl

theorem encodable_ofString (s : String) : Encodable encoder (ofString s) :=
  encodable_ofChars s.toList

theorem encodable_repr (s : PyStr) : Encodable encoder (repr s) := encodable_ofChars _

@[simp] theorem encodable_nil : Encodable encoder [] := fun _ hp => absurd hp List.not_mem_nil

@[simp] theorem encodable_append {s t : PyStr} :
    Encodable encoder (s ++ t) ↔ Encodable encoder s ∧ Encodable encoder t :=
  List.forall_mem_append

/-- A separator that can be encoded does not matter. -/
theorem encodable_join {sep : String} {parts : List PyStr} :
    Encodable encoder (join sep parts) ↔ ∀ part ∈ parts, Encodable encoder part := by
  unfold join
  induction parts with
  | nil => simp
  | cons part parts ih =>
      cases parts with
      | nil => simp
      | cons next parts =>
          rw [List.intercalate_cons_cons, encodable_append, encodable_append, ih,
            List.forall_mem_cons]
          simp [encodable_ofString]

/-- Whitespace at the end is made of characters. -/
theorem encodable_rstrip {s : PyStr} : Encodable encoder (rstrip s) ↔ Encodable encoder s := by
  constructor
  · intro h
    have hsplit := List.rdropWhile_append_rtakeWhile (p := CodePoint.isSpace) (l := s)
    rw [← hsplit, encodable_append]
    refine ⟨h, fun p hp => ?_⟩
    have hspace := List.mem_rtakeWhile_imp hp
    cases p with
    | char c => rfl
    | surrogate unit => exact absurd hspace (by simp [CodePoint.isSpace])
  · exact fun h p hp => h p ((List.rdropWhile_prefix _ _).mem hp)

theorem encodable_strip {s : PyStr} (h : Encodable encoder s) : Encodable encoder (strip s) :=
  encodable_rstrip.mpr fun p hp => h p ((List.dropWhile_suffix _).mem hp)

theorem encodable_takeEnd {s : PyStr} (h : Encodable encoder s) (n : ℕ) :
    Encodable encoder (takeEnd n s) :=
  fun p hp => h p (by
    rw [takeEnd, List.rtake_eq_reverse_take_reverse] at hp
    simpa using List.mem_of_mem_take (List.mem_reverse.mp hp))

/-! ### The start of a string -/

/-- A text starts with a text as its characters do. -/
theorem ofString_prefix {s t : String} :
    ofString s <+: ofString t ↔ s.toList <+: t.toList := by
  have hinjective : Function.Injective CodePoint.char := fun c d h => by
    cases h
    rfl
  exact List.prefix_map_iff_of_injective hinjective

/-- A start that does not end in whitespace stays. -/
theorem prefix_rstrip {start s : PyStr} {last : CodePoint} (hlast : last.isSpace = false)
    (h : start ++ [last] <+: s) : start ++ [last] <+: rstrip s := by
  obtain ⟨rest, rfl⟩ := h
  unfold rstrip
  induction rest using List.reverseRecOn with
  | nil =>
      rw [List.append_nil, List.rdropWhile_concat_neg _ _ _ (by simp [hlast])]
  | append_singleton rest p ih =>
      rw [← List.append_assoc, List.rdropWhile_concat]
      split
      · exact ih
      · rw [List.append_assoc (start ++ [last])]
        exact List.prefix_append _ _

end PyStr
