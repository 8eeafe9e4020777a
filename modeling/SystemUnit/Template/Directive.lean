import SystemUnit.Template.FieldSpec

namespace SystemUnit

/-!
# Directives

A directive stands in a pattern for a value: `%[flags][width][.precision]conversion`.  Reading never fails: an
unknown conversion is kept as such, and a pattern may end before the conversion.  Main definitions:

* `Directive` — flags, width, precision and conversion;
* `Directive.scan` — the directive after a percent sign, and what follows it;
* `Directive.fieldSpec` — the field specification that does what the directive asks for.
-/

/-- The flags of a directive. -/
structure Flags where
  left : Bool := false
  plus : Bool := false
  space : Bool := false
  alternate : Bool := false
  zero : Bool := false
  deriving DecidableEq

namespace Flags

/-- The flags with one more, if the character is a flag. -/
def add? (f : Flags) : Char → Option Flags
  | '-' => some { f with left := true }
  | '+' => some { f with plus := true }
  | ' ' => some { f with space := true }
  | '#' => some { f with alternate := true }
  | '0' => some { f with zero := true }
  | _ => none

/-- The flags that are set, as characters in a fixed order. -/
def text (f : Flags) : List Char :=
  [(f.left, '-'), (f.plus, '+'), (f.space, ' '), (f.alternate, '#'), (f.zero, '0')].filterMap
    fun (isSet, c) => if isSet then some c else none

/-- Adds the flags at the start, in any order and number. -/
def scan (f : Flags) : List Char → Flags × List Char
  | [] => (f, [])
  | c :: rest =>
    match f.add? c with
    | some g => g.scan rest
    | none => (f, c :: rest)

theorem length_scan_le (f : Flags) (cs : List Char) : (f.scan cs).2.length ≤ cs.length := by
  induction cs generalizing f with
  | nil => simp [scan]
  | cons c rest ih =>
    unfold scan
    split
    · exact Nat.le_succ_of_le (ih _)
    · exact Nat.le_refl _

end Flags

/-- What a directive makes of its value. -/
inductive Conversion where
  | signed
  | unsigned
  | hex
  | hexUpper
  | fixed
  | exponent
  | exponentUpper
  | general
  | generalUpper
  | text
  | char
  | pointer
  | unknown (c : Char)
  | missing
  deriving DecidableEq

namespace Conversion

/-- The name of a conversion; an unknown one is named together with its character. -/
def name : Conversion → String
  | signed => "Signed"
  | unsigned => "Unsigned"
  | hex => "Hex"
  | hexUpper => "HexUpper"
  | fixed => "Fixed"
  | exponent => "Exp"
  | exponentUpper => "ExpUpper"
  | general => "General"
  | generalUpper => "GeneralUpper"
  | text => "Text"
  | char => "Char"
  | pointer => "Pointer"
  | unknown c => "Unknown:" ++ String.singleton c
  | missing => "Missing"

def ofChar : Char → Conversion
  | 'd' | 'i' => signed
  | 'u' => unsigned
  | 'x' => hex
  | 'X' => hexUpper
  | 'f' | 'F' => fixed
  | 'e' => exponent
  | 'E' => exponentUpper
  | 'g' => general
  | 'G' => generalUpper
  | 's' => text
  | 'c' => char
  | 'p' => pointer
  | c => unknown c

/-- Whether the zero flag means something. -/
def isInteger : Conversion → Bool
  | signed | unsigned | hex | hexUpper => true
  | _ => false

/-- Whether a precision is a width to be filled with zeros. -/
def isDecimal : Conversion → Bool
  | signed | unsigned => true
  | _ => false

/-- Whether a precision is a number of decimal places or of digits. -/
def isFloating : Conversion → Bool
  | fixed | exponent | exponentUpper | general | generalUpper => true
  | _ => false

/-- The form that a conversion asks for; texts and characters go in as they are. -/
def presentation : Conversion → Option Presentation
  | signed | unsigned => some .decimal
  | hex => some .hex
  | hexUpper => some .hexUpper
  | fixed => some .fixed
  | exponent => some .exponent
  | exponentUpper => some .exponentUpper
  | general => some .general
  | generalUpper => some .generalUpper
  | pointer => some .pointer
  | text | char | unknown _ | missing => none

end Conversion

/-- A directive of a pattern. -/
structure Directive where
  flags : Flags
  width : Option UInt64
  precision : Option UInt64
  conversion : Conversion
  deriving DecidableEq

/-- A count takes away characters from the start only. -/
theorem length_scanCount_le (cs : List Char) : (scanCount cs).2.length ≤ cs.length :=
  (List.dropWhile_suffix Char.isDigit).length_le

theorem length_scanPrecision_le (cs : List Char) : (scanPrecision cs).2.length ≤ cs.length := by
  unfold scanPrecision
  split
  · exact Nat.le_succ_of_le (length_scanCount_le _)
  · exact Nat.le_refl _

namespace Directive

/-- The conversion at the start. -/
def scanConversion : List Char → Conversion × List Char
  | c :: rest => (Conversion.ofChar c, rest)
  | [] => (.missing, [])

/-- The directive that follows a percent sign, and what follows the directive. -/
def scan (cs : List Char) : Directive × List Char :=
  let (flags, cs) := Flags.scan { } cs
  let (width, cs) := scanCount cs
  let (precision, cs) := scanPrecision cs
  let (conversion, cs) := scanConversion cs
  ({ flags, width, precision, conversion }, cs)

/-- The directive from the character number `start` on, and the number of the character after it; none at the
    end of the characters. -/
def scanAt? (cs : List Char) (start : Nat) : Option (Directive × Nat) :=
  if start < cs.length then
    let (d, rest) := scan (cs.drop start)
    some (d, cs.length - rest.length)
  else none

theorem length_scan_le (cs : List Char) : (scan cs).2.length ≤ cs.length := by
  have h₁ := Flags.length_scan_le { } cs
  have h₂ := length_scanCount_le (Flags.scan { } cs).2
  have h₃ := length_scanPrecision_le (scanCount (Flags.scan { } cs).2).2
  have h₄ : ∀ cs, (scanConversion cs).2.length ≤ cs.length := by
    intro cs
    cases cs <;> simp [scanConversion]
  have h₅ := h₄ (scanPrecision (scanCount (Flags.scan { } cs).2).2).2
  exact Nat.le_trans h₅ (Nat.le_trans h₃ (Nat.le_trans h₂ h₁))

/-- The field specification of a directive.  A precision of a decimal integer is a width filled with zeros, in
    place of any other width; the zero flag counts for integers without a precision; a precision counts
    otherwise for reals only; of the sign flags the plus sign wins. -/
def fieldSpec (d : Directive) : FieldSpec where
  align := if d.flags.left then some .left else none
  sign := if d.flags.plus then some .plus else if d.flags.space then some .space else none
  alternate := d.flags.alternate
  zeroPad :=
    if d.precision.isSome then d.conversion.isDecimal
    else d.flags.zero && d.conversion.isInteger
  width := if d.conversion.isDecimal then d.precision <|> d.width else d.width
  precision := if d.conversion.isFloating then d.precision else none
  presentation := d.conversion.presentation

end Directive

end SystemUnit
