import SystemUnit.Whole.Basic

namespace SystemUnit

/-!
# Code units

A character of a text is one UTF-16 code unit.  Letters, digits and blanks are the ASCII ones, and case
changes ASCII letters only.  Main definitions:

* `CodeUnit.isHighSurrogate`, `CodeUnit.isLowSurrogate` — the two halves of a supplementary character;
* `CodeUnit.upper`, `CodeUnit.lower` — the ASCII case maps;
* `CodeUnit.ofChar?` — the one code unit of a character, if it needs no more.
-/

/-- A UTF-16 code unit. -/
abbrev CodeUnit := UInt16

namespace CodeUnit

/-- The low sixteen bits of a number. -/
def ofInt (n : Int) : CodeUnit :=
  UInt16.ofNat (n % 65536).toNat

/-- The number of a code unit. -/
def ordinal (c : CodeUnit) : Int :=
  c.toNat

def isDigit (c : CodeUnit) : Bool :=
  0x30 ≤ c && c ≤ 0x39

def isUpper (c : CodeUnit) : Bool :=
  0x41 ≤ c && c ≤ 0x5A

def isLower (c : CodeUnit) : Bool :=
  0x61 ≤ c && c ≤ 0x7A

def isLetter (c : CodeUnit) : Bool :=
  c.isUpper || c.isLower

/-- Space, tab, line feed or carriage return. -/
def isBlank (c : CodeUnit) : Bool :=
  c == 0x20 || c == 0x09 || c == 0x0A || c == 0x0D

/-- The first half of a supplementary character. -/
def isHighSurrogate (c : CodeUnit) : Bool :=
  0xD800 ≤ c && c ≤ 0xDBFF

/-- The second half of a supplementary character. -/
def isLowSurrogate (c : CodeUnit) : Bool :=
  0xDC00 ≤ c && c ≤ 0xDFFF

/-- A small ASCII letter made capital. -/
def upper (c : CodeUnit) : CodeUnit :=
  if c.isLower then c - 32 else c

/-- A capital ASCII letter made small. -/
def lower (c : CodeUnit) : CodeUnit :=
  if c.isUpper then c + 32 else c

/-- The one code unit of a character of the basic plane. -/
def ofChar? (c : Char) : Option CodeUnit :=
  if c.toNat < 0x10000 then some (UInt16.ofNat c.toNat) else none

/-- The character of a code unit that is no surrogate, else the replacement character. -/
def toChar (c : CodeUnit) : Char :=
  if c.isHighSurrogate || c.isLowSurrogate then Char.ofNat 0xFFFD else Char.ofNat c.toNat

end CodeUnit

end SystemUnit
