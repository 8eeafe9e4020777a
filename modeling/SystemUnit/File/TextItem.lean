import SystemUnit.File.ByteStream
import SystemUnit.Conversion.Reading
import SystemUnit.Format.Basic

namespace SystemUnit

/-!
# Values read from a stream

A value is read from the next word, which ends before a blank; only a single code unit is read from the next
character.  Main definitions:

* `TextItem` — the types of values that can be read;
* `TextItem.ofWord?` — the value of a word;
* `ByteStream.item` — the next value of a type, if the stream holds one.
-/

/-- The types of values that can be read from a stream. -/
inductive TextItem where
  | whole (k : WholeKind)
  | floating (k : FloatingKind)
  | boolean
  | char
  | text
  deriving DecidableEq

/-- The width for which a numeral is read that has to be a number of a kind: all its numbers have a place in
    a signed integer of that width. -/
def WholeKind.numeralWidth (k : WholeKind) : Nat := if k.isSigned then k.width else k.width + 1

/-- An integer numeral whose value is a number of a kind. -/
def Reading.whole (k : WholeKind) : Reading (Whole k) where
  form := .integer
  read? s :=
    match whole? s.units (Numeral.scanWide k.numeralWidth Numeral.radixMark s.units) with
    | some n => if k.least ≤ n ∧ n ≤ k.greatest then some (Whole.ofInt k n) else none
    | none => none

/-- The value of a word; a text is any word that is not empty, and no word is a single code unit. -/
def TextItem.ofWord? (word : Text) : TextItem → Option Argument
  | whole k => ((Reading.whole k).read? word).map (.scalar <| .whole ·)
  | floating k => (Reading.real.read? word).map (.scalar <| .floating <| ·.convert k)
  | boolean => (Reading.boolean.read? word).map (.scalar <| .boolean ·)
  | char => none
  | text => if word.isEmpty then none else some (.text word)

/-- The bytes that separate words. -/
def isBlankByte (b : UInt8) : Bool := b == 0x20 || b == 0x09 || b == 0x0D || b == 0x0A

/-- The number of bytes that a first byte announces. -/
def announced (b : UInt8) : Nat :=
  if 0xF0 ≤ b && b ≤ 0xF7 then 4
  else if 0xE0 ≤ b && b ≤ 0xEF then 3
  else if 0xC0 ≤ b && b ≤ 0xDF then 2
  else 1

namespace ByteStream

/-- The next word, with a replacement character for what is no character. -/
def word (s : ByteStream) : Text × ByteStream :=
  let (_, s) := s.span isBlankByte
  let (bytes, s) := s.span (!isBlankByte ·)
  (.ofChars (Utf8.decodeMarked bytes), s)

/-- The first code unit of the next character that is no blank; the bytes that its first byte announces are
    taken even if they are no character. -/
def unit (s : ByteStream) : Option CodeUnit × ByteStream :=
  let (_, s) := s.span isBlankByte
  match s.bytes.head? with
  | none => (none, s)
  | some b =>
    let bytes := s.bytes.take (announced b)
    let chars := (Utf8.decode? bytes).getD []
    ((Text.ofChars chars).units.head?, s.drop bytes.length)

/-- The next value of a type, if the stream holds one. -/
def item (s : ByteStream) : TextItem → Option Argument × ByteStream
  | .char =>
    let (unit, s) := s.unit
    (unit.map (.scalar <| .char ·), s)
  | type =>
    let (word, s) := s.word
    (type.ofWord? word, s)

end ByteStream

end SystemUnit
