/-!
# Decoding bytes that may be malformed

A file name is a string of bytes.  Where it has to be shown it is decoded as UTF-8, and every
longest run of bytes that could start a character but does not finish one becomes `U+FFFD`.

## Main definitions

* `decodeLossy` : the text of bytes, with replacements.
-/

namespace AttrCalc.Text

/-- The character that stands for malformed bytes. -/
def replacement : Char := '\ufffd'

/-- What the first byte of a character announces: its own share of the code point, how many bytes
follow, and the bounds of the first of them.  Later bytes lie between `0x80` and `0xBF`. -/
structure ByteLead where
  bits : Nat
  more : Nat
  lo : Nat
  hi : Nat

/-- Reads the first byte of a character. -/
def ByteLead.ofByte? (b : Nat) : Option ByteLead :=
  if b < 0x80 then some ⟨b, 0, 0, 0⟩
  else if b < 0xC2 then none
  else if b < 0xE0 then some ⟨b - 0xC0, 1, 0x80, 0xBF⟩
  else if b = 0xE0 then some ⟨0, 2, 0xA0, 0xBF⟩
  else if b = 0xED then some ⟨b - 0xE0, 2, 0x80, 0x9F⟩
  else if b < 0xF0 then some ⟨b - 0xE0, 2, 0x80, 0xBF⟩
  else if b = 0xF0 then some ⟨0, 3, 0x90, 0xBF⟩
  else if b < 0xF4 then some ⟨b - 0xF0, 3, 0x80, 0xBF⟩
  else if b = 0xF4 then some ⟨4, 3, 0x80, 0x8F⟩
  else none

/-- Decodes the bytes behind the part of a character that is already read.  The characters decoded
so far are kept in reverse. -/
def decodeWith (open? : Option ByteLead) (decoded : List Char) : List UInt8 → List Char
  | [] =>
    match open? with
    | some _ => (replacement :: decoded).reverse
    | none => decoded.reverse
  | byte :: bytes =>
    let b := byte.toNat
    let start (decoded : List Char) : Option ByteLead × List Char :=
      match ByteLead.ofByte? b with
      | some ⟨bits, 0, _, _⟩ => (none, Char.ofNat bits :: decoded)
      | some lead => (some lead, decoded)
      | none => (none, replacement :: decoded)
    let (open?, decoded) :=
      match open? with
      | none => start decoded
      | some ⟨bits, more, lo, hi⟩ =>
        if lo ≤ b ∧ b ≤ hi then
          let bits := 64 * bits + (b - 0x80)
          if more ≤ 1 then (none, Char.ofNat bits :: decoded)
          else (some ⟨bits, more - 1, 0x80, 0xBF⟩, decoded)
        else start (replacement :: decoded)
    decodeWith open? decoded bytes

/-- The text of bytes, with replacements for what is malformed. -/
def decodeLossy (bytes : List UInt8) : String :=
  String.ofList (decodeWith none [] bytes)

end AttrCalc.Text
