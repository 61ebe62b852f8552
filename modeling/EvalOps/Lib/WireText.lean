import Mathlib.Data.String.Basic

/-!
# `EvalOps.Lib.WireText`: the text of an HTTP header

The names and the values of headers are bytes. A name is ASCII and is compared in lower case, and a
value is read as Latin-1.
-/

set_option autoImplicit false

namespace WireText

/-- The bytes of an ASCII text. -/
def asciiBytes (text : String) : List UInt8 := text.toList.map fun c => UInt8.ofNat c.toNat

/-- The text of some bytes. -/
def decodeLatin1 (raw : List UInt8) : String := String.ofList (raw.map fun b => Char.ofNat b.toNat)

/-- An ASCII text in lower case. -/
def lower (text : String) : String := String.ofList (text.toList.map Char.toLower)

end WireText
