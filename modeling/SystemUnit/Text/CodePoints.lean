import SystemUnit.Text.Basic
import SystemUnit.Utf8

namespace SystemUnit

/-!
# Texts and characters

A supplementary character takes two code units, a high and a low surrogate.  A surrogate without its partner
stands for no character and is left out when a text becomes characters.  Main definitions:

* `Text.codePoints`, `Text.ofChars` — a text as characters, and back;
* `Text.toUtf8`, `Text.ofUtf8` — a text as UTF-8 bytes, and back;
* `Text.isPaired` — whether every surrogate has its partner.
-/

/-- The character of a high and a low surrogate. -/
def CodeUnit.pair (high low : CodeUnit) : Char :=
  Char.ofNat (0x10000 + (high.toNat - 0xD800) * 0x400 + (low.toNat - 0xDC00))

/-- The one or two code units of a character. -/
def CodeUnit.ofChar (c : Char) : List CodeUnit :=
  if c.toNat < 0x10000 then [UInt16.ofNat c.toNat]
  else
    [UInt16.ofNat (0xD800 + (c.toNat - 0x10000) / 0x400),
      UInt16.ofNat (0xDC00 + (c.toNat - 0x10000) % 0x400)]

namespace Text

/-- The characters of a list of units, without unpaired surrogates. -/
def charsOfUnits : List CodeUnit → List Char
  | [] => []
  | [c] => if c.isHighSurrogate || c.isLowSurrogate then [] else [c.toChar]
  | c :: d :: rest =>
    if c.isHighSurrogate then
      if d.isLowSurrogate then CodeUnit.pair c d :: charsOfUnits rest
      else charsOfUnits (d :: rest)
    else if c.isLowSurrogate then charsOfUnits (d :: rest)
    else c.toChar :: charsOfUnits (d :: rest)

/-- The characters of a text, without unpaired surrogates. -/
def codePoints (s : Text) : List Char := charsOfUnits s.units

/-- The text of a list of characters. -/
def ofChars (cs : List Char) : Text := ⟨cs.flatMap CodeUnit.ofChar⟩

/-- The text of a string. -/
def ofString (s : String) : Text := ofChars s.toList

/-- Whether every surrogate of the text has its partner. -/
def isPaired (s : Text) : Bool := ofChars s.codePoints == s

/-- The characters of a text as UTF-8. -/
def toUtf8 (s : Text) : List UInt8 := Utf8.encode s.codePoints

/-- The text of the characters among the bytes. -/
def ofUtf8 (bytes : List UInt8) : Text := ofChars (Utf8.decode bytes)

@[simp] theorem ofChars_append (a b : List Char) : ofChars (a ++ b) = ofChars a ++ ofChars b := by
  ext1
  simp [ofChars]

end Text

end SystemUnit
