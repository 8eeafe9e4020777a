import SystemUnit.Text.CodePoints

namespace SystemUnit

/-!
# Quoted and padded texts

Main definitions:

* `Text.quoted` — a text between single quotes, each quote in it doubled;
* `Text.escaped` — the characters of a text between double quotes, control characters named by their code;
* `Text.display`, `Text.display?` — the characters of a text cut to a precision and padded on the left.
-/

namespace Text

/-- The single quote. -/
def quote : CodeUnit := 0x27

/-- A text between single quotes, each quote in it doubled. -/
def quoted (s : Text) : Text :=
  ⟨quote :: s.units.flatMap (fun c => if c = quote then [c, quote] else [c]) ++ [quote]⟩

/-- A character inside double quotes. -/
def escapeChar (c : Char) : List Char :=
  if c = '"' || c = '\\' then ['\\', c]
  else if c = '\x00' then ['\\', '0']
  else if c = '\t' then ['\\', 't']
  else if c = '\n' then ['\\', 'n']
  else if c = '\r' then ['\\', 'r']
  else if c.toNat < 0x20 || 0x7F ≤ c.toNat && c.toNat < 0xA0 then
    "\\u\x7b".toList ++ Digits.hex false c.toNat ++ "\x7d".toList
  else [c]

/-- The characters of a text between double quotes. -/
def escaped (s : Text) : List Char :=
  '"' :: s.codePoints.flatMap escapeChar ++ ['"']

/-- The characters of a text, cut to `precision` characters and then padded on the left with spaces up to
    `width`. -/
def display (s : Text) (width precision : Option Nat) : List Char :=
  let cut := match precision with
    | some p => s.codePoints.take p
    | none => s.codePoints
  Digits.padLeft ' ' (width.getD 0) cut

/-- The same, if such a width and such a precision may be asked for. -/
def display? (s : Text) (width precision : Option Nat) : Option (List Char) :=
  if width.all (· ≤ Digits.greatestWidth) && precision.all (· ≤ Digits.greatestWidth) then
    some (s.display width precision)
  else none

end Text

end SystemUnit
