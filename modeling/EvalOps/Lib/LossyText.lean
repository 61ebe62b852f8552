import EvalOps.Lib.TextFiles

/-!
# `EvalOps.Lib.LossyText`: bytes that may not be UTF-8

`decodeReplace` is Python's decoding with `errors="replace"`: each maximal part of a character that
is not finished reads as one replacement character. On the bytes of a text it is the strict decoder
(`decodeReplace_toUTF8`).
-/

set_option autoImplicit false

namespace TextFiles

/-- Inside a character: the number of bytes after the next one, the bits so far, and the range of
the next byte. -/
structure Pending where
  left : ℕ
  value : ℕ
  low : ℕ
  high : ℕ

/-- The replacement character. -/
def replacement : Char := Char.ofNat 0xFFFD

/-- A byte that no character is open at: what it decodes to, and the character it opens. -/
def openByte (b : ℕ) : List Char × Option Pending :=
  if b < 0x80 then ([Char.ofNat b], none)
  else if 0xC2 ≤ b ∧ b < 0xE0 then ([], some ⟨0, b - 0xC0, 0x80, 0xBF⟩)
  else if 0xE0 ≤ b ∧ b < 0xF0 then
    -- No overlong form, and no surrogate.
    ([], some ⟨1, b - 0xE0, if b = 0xE0 then 0xA0 else 0x80, if b = 0xED then 0x9F else 0xBF⟩)
  else if 0xF0 ≤ b ∧ b < 0xF5 then
    ([], some ⟨2, b - 0xF0, if b = 0xF0 then 0x90 else 0x80, if b = 0xF4 then 0x8F else 0xBF⟩)
  else ([replacement], none)

/-- One byte of a text. A byte that does not continue the open character opens the next one, behind
a replacement character. -/
def decodeByte (pending : Option Pending) (b : ℕ) : List Char × Option Pending :=
  match pending with
  | none => openByte b
  | some p =>
      if p.low ≤ b ∧ b ≤ p.high then
        let value := p.value * 64 + (b - 0x80)
        match p.left with
        | 0 => ([Char.ofNat value], none)
        | left + 1 => ([], some ⟨left, value, 0x80, 0xBF⟩)
      else (replacement :: (openByte b).1, (openByte b).2)

/-- The characters of the bytes behind an open character. -/
def decodeFrom : Option Pending → List UInt8 → List Char
  | none, [] => []
  | some _, [] => [replacement]
  | pending, b :: bs =>
      (decodeByte pending b.toNat).1 ++ decodeFrom (decodeByte pending b.toNat).2 bs

/-- `data.decode("utf-8", errors="replace")`. -/
def decodeReplace (data : ByteArray) : List Char := decodeFrom none data.data.toList

/-- `path.read_text(encoding="utf-8", errors="replace")`. -/
def readTextReplace (data : ByteArray) : List Char := universalNewlines (decodeReplace data)

/-! ### The bytes of a text -/

/-- One byte is decoded, and then the rest. -/
theorem decodeFrom_byte {pending next : Option Pending} {out : List Char} {n : ℕ} (hn : n < 256)
    (h : decodeByte pending n = (out, next)) (bs : List UInt8) :
    decodeFrom pending (UInt8.ofNat n :: bs) = out ++ decodeFrom next bs := by
  have hbyte : (UInt8.ofNat n).toNat = n := by rw [UInt8.toNat_ofNat', Nat.mod_eq_of_lt hn]
  have hcons : decodeFrom pending (UInt8.ofNat n :: bs)
      = (decodeByte pending (UInt8.ofNat n).toNat).1
        ++ decodeFrom (decodeByte pending (UInt8.ofNat n).toNat).2 bs := by
    cases pending <;> rfl
  rw [hcons, hbyte, h]

theorem decodeByte_continue {left value low high b : ℕ} (h : low ≤ b ∧ b ≤ high) :
    decodeByte (some ⟨left + 1, value, low, high⟩) b
      = ([], some ⟨left, value * 64 + (b - 0x80), 0x80, 0xBF⟩) := by
  simp [decodeByte, h]

theorem decodeByte_close {value low high b : ℕ} (h : low ≤ b ∧ b ≤ high) :
    decodeByte (some ⟨0, value, low, high⟩) b = ([Char.ofNat (value * 64 + (b - 0x80))], none) := by
  simp [decodeByte, h]

/-- The bytes of a character decode to it. -/
theorem decodeFrom_utf8EncodeChar (c : Char) (bs : List UInt8) :
    decodeFrom none (String.utf8EncodeChar c ++ bs) = c :: decodeFrom none bs := by
  have hvalid : c.val.toNat < 0xD800 ∨ 0xDFFF < c.val.toNat ∧ c.val.toNat < 0x110000 := c.valid
  have hchar : Char.ofNat c.val.toNat = c := Char.ofNat_toNat c
  unfold String.utf8EncodeChar
  generalize c.val.toNat = v at hvalid hchar
  dsimp only
  split_ifs with h1 h2 h3
  · -- One byte.
    have hopen : decodeByte none v = ([Char.ofNat v], none) := if_pos (by omega)
    rw [List.singleton_append, decodeFrom_byte (by omega) hopen, hchar]
    rfl
  · -- Two bytes.
    have hopen : decodeByte none (v / 64 % 32 + 192) = ([], some ⟨0, v / 64, 0x80, 0xBF⟩) := by
      have hvalue : v / 64 % 32 + 192 - 0xC0 = v / 64 := by omega
      rw [decodeByte, openByte, if_neg (by omega), if_pos (by omega), hvalue]
    have hclose : v / 64 * 64 + (v % 64 + 128 - 0x80) = v := by omega
    rw [List.cons_append, List.singleton_append, decodeFrom_byte (by omega) hopen,
      decodeFrom_byte (by omega) (decodeByte_close (by omega)), hclose, hchar]
    rfl
  · -- Three bytes, which are no overlong form and no surrogate.
    have hopen : decodeByte none (v / 4096 % 16 + 224) = ([], some ⟨1, v / 4096,
        if v / 4096 % 16 + 224 = 0xE0 then 0xA0 else 0x80,
        if v / 4096 % 16 + 224 = 0xED then 0x9F else 0xBF⟩) := by
      have hvalue : v / 4096 % 16 + 224 - 0xE0 = v / 4096 := by omega
      rw [decodeByte, openByte, if_neg (by omega), if_neg (by omega), if_pos (by omega), hvalue]
    have hclose : (v / 4096 * 64 + (v / 64 % 64 + 128 - 0x80)) * 64 + (v % 64 + 128 - 0x80)
        = v := by
      omega
    rw [List.cons_append, List.cons_append, List.singleton_append,
      decodeFrom_byte (by omega) hopen,
      decodeFrom_byte (by omega) (decodeByte_continue (by split <;> split <;> omega)),
      decodeFrom_byte (by omega) (decodeByte_close (by omega)), hclose, hchar]
    rfl
  · -- Four bytes, which are in the range of Unicode.
    have hopen : decodeByte none (v / 262144 % 8 + 240) = ([], some ⟨2, v / 262144,
        if v / 262144 % 8 + 240 = 0xF0 then 0x90 else 0x80,
        if v / 262144 % 8 + 240 = 0xF4 then 0x8F else 0xBF⟩) := by
      have hvalue : v / 262144 % 8 + 240 - 0xF0 = v / 262144 := by omega
      rw [decodeByte, openByte, if_neg (by omega), if_neg (by omega), if_neg (by omega),
        if_pos (by omega), hvalue]
    have hclose : ((v / 262144 * 64 + (v / 4096 % 64 + 128 - 0x80)) * 64
        + (v / 64 % 64 + 128 - 0x80)) * 64 + (v % 64 + 128 - 0x80) = v := by
      omega
    rw [List.cons_append, List.cons_append, List.cons_append, List.singleton_append,
      decodeFrom_byte (by omega) hopen,
      decodeFrom_byte (by omega) (decodeByte_continue (by split <;> split <;> omega)),
      decodeFrom_byte (by omega) (decodeByte_continue (by omega)),
      decodeFrom_byte (by omega) (decodeByte_close (by omega)), hclose, hchar]
    rfl

/-- What is written in UTF-8 reads back, whatever the handling of errors. -/
theorem decodeReplace_toUTF8 (s : String) : decodeReplace s.toUTF8 = s.toList := by
  have hchars : ∀ cs : List Char,
      decodeFrom none (cs.flatMap String.utf8EncodeChar) = cs := by
    intro cs
    induction cs with
    | nil => rfl
    | cons c cs ih => rw [List.flatMap_cons, decodeFrom_utf8EncodeChar, ih]
  have hbytes : s.toUTF8.data.toList = s.toList.flatMap String.utf8EncodeChar := by
    have h : s.toByteArray = s.toList.utf8Encode := by
      conv_lhs => rw [← String.ofList_toList (s := s)]
      exact String.toByteArray_ofList
    show s.toByteArray.data.toList = _
    rw [h]
    simp [List.utf8Encode]
  rw [decodeReplace, hbytes, hchars]

end TextFiles
