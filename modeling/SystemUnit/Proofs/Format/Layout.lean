import SystemUnit.Proofs.Format.Outcome

namespace SystemUnit

/-!
# The layout of integers in fields

An integer is set out as a sign, a mark and digits, and filled up to the width of its directive: with spaces behind it
if it stands at the left, or else with zeros before the digits if the directive asks for zeros, or else with spaces
before it.  What a directive asks for depends on its flags, its counts and its conversion, and nothing else.

* `Directive.fieldWidth`, `Directive.fillsZeros`, `Directive.layout` — the layout, told by the directive alone;
* `Directive.length_setOut`, `Directive.setOut_eq_filled` — how long it is, and that it is filled in one place;
* `Directive.setNumber_fieldSpec` — a number in a field has that layout;
* `Argument.render?_fieldSpec_whole` — an integer in a field;
* `format_integer` — what a pattern of one directive gives for an integer.
-/

/-! ### What a directive asks for -/

/-- The sign before an integer: a minus sign if it is negative, or else a plus sign or a space if there is a flag for
    it; the plus sign wins. -/
def Flags.signText (f : Flags) (n : Int) : List Char :=
  if n < 0 then ['-'] else if f.plus then ['+'] else if f.space then [' '] else []

namespace Conversion

/-- The mark of a conversion, for those with one. -/
def markText : Conversion → List Char
  | hex => ['0', 'x']
  | hexUpper => ['0', 'X']
  | _ => []

/-- The digits of a natural number. -/
def sizeText : Conversion → Nat → List Char
  | hex => Digits.hex false
  | hexUpper => Digits.hex true
  | _ => Digits.decimal

/-- A precision means something for decimal integers and for reals. -/
theorem isFloating_of_isInteger {k : Conversion} (integer : k.isInteger = true) : k.isFloating = false := by
  cases k <;> first | rfl | cases integer

end Conversion

namespace Directive

variable (d : Directive)

/-- The width of the field.  For a decimal integer a precision takes the place of the width. -/
def fieldWidth : Nat :=
  (if d.conversion.isDecimal then d.precision <|> d.width else d.width).elim 0 UInt64.toNat

/-- Whether an integer is filled up with zeros: a precision asks for it in decimal, and the flag does if there is no
    precision. -/
def fillsZeros : Bool := if d.precision.isSome then d.conversion.isDecimal else d.flags.zero

/-- The mark before the digits of an integer, if the alternate form is asked for. -/
def markText : List Char := if d.flags.alternate then d.conversion.markText else []

/-- A text with spaces up to the width of the field: behind it if it stands at the left, or else before it. -/
def fillWithSpaces (text : List Char) : List Char :=
  if d.flags.left then text ++ List.replicate (d.fieldWidth - text.length) ' '
  else List.replicate (d.fieldWidth - text.length) ' ' ++ text

/-- A number in the field of a directive: zeros stand before the digits if it is to be filled with zeros and does not
    stand at the left. -/
def setOut (sign mark digits : List Char) : List Char :=
  if d.fillsZeros && !d.flags.left then
    sign ++ (mark ++ (List.replicate (d.fieldWidth - (sign ++ (mark ++ digits)).length) '0' ++ digits))
  else d.fillWithSpaces (sign ++ (mark ++ digits))

/-- An integer as it is without a field. -/
def body (n : Int) : List Char := d.flags.signText n ++ (d.markText ++ d.conversion.sizeText n.natAbs)

/-- **The layout of an integer** in the field of a directive. -/
def layout (n : Int) : List Char := d.setOut (d.flags.signText n) d.markText (d.conversion.sizeText n.natAbs)

/-! ### Fields and layouts -/

variable {d} {sign mark digits : List Char}

/-- A field is as wide as its width, or as its text if that is longer. -/
theorem length_fillWithSpaces (d : Directive) (text : List Char) :
    (d.fillWithSpaces text).length = max d.fieldWidth text.length := by
  unfold fillWithSpaces
  split
  all_goals
    simp only [List.length_append, List.length_replicate]
    omega

/-- A number fills up its field and is never cut. -/
theorem length_setOut : (d.setOut sign mark digits).length = max d.fieldWidth (sign ++ (mark ++ digits)).length := by
  unfold setOut
  split
  · simp only [List.length_append, List.length_replicate]
    omega
  · exact d.length_fillWithSpaces _

/-- Wherever the field is filled up, there are spaces around the number and zeros in it. -/
theorem setOut_eq_filled (d : Directive) (sign mark digits : List Char) :
    ∃ before zeros after, d.setOut sign mark digits =
      List.replicate before ' ' ++ (sign ++ (mark ++ (List.replicate zeros '0' ++ digits))) ++
        List.replicate after ' ' := by
  unfold setOut fillWithSpaces
  -- zeros between the sign and the digits, or spaces on either side
  split
  · exact ⟨0, _, 0, (List.append_nil _).symm⟩
  · split
    · exact ⟨0, 0, _, rfl⟩
    · exact ⟨_, 0, 0, (List.append_nil _).symm⟩

theorem width_fieldSpec (d : Directive) : d.fieldSpec.width.elim 0 UInt64.toNat = d.fieldWidth := rfl

/-- A text that stands at the right unless the directive says otherwise is filled up with spaces. -/
theorem fillUp_fieldSpec (d : Directive) (text : List Char) :
    d.fieldSpec.fillUp .right text = d.fillWithSpaces text := by
  rw [FieldSpec.fillUp, width_fieldSpec, fillWithSpaces]
  by_cases left : d.flags.left = true
  · simp [fieldSpec, left]
  · simp [fieldSpec, left]

/-- **A number in the field of an integer conversion has the layout of the directive.** -/
theorem setNumber_fieldSpec (integer : d.conversion.isInteger = true) :
    d.fieldSpec.setNumber sign mark digits = d.setOut sign mark digits := by
  have zeroPad : d.fieldSpec.zeroPad = d.fillsZeros := by
    simp [fieldSpec, fillsZeros, integer]
  have align : d.fieldSpec.align.isNone = !d.flags.left := by
    cases left : d.flags.left <;> simp [fieldSpec, left]
  rw [FieldSpec.setNumber, zeroPad, align, fillUp_fieldSpec, List.append_assoc, setOut]
  have field := d.width_fieldSpec
  cases width : d.fieldSpec.width with
  | none =>
    -- without a width nothing is missing, and zeros or spaces are the same
    have zero : d.fieldWidth = 0 := by
      rw [← field, width]
      rfl
    simp [fillWithSpaces, zero]
  | some w =>
    have missing : w.toNat - (sign.length + mark.length) - digits.length =
        d.fieldWidth - (sign ++ (mark ++ digits)).length := by
      rw [← field, width]
      simp only [List.length_append, Option.elim_some]
      omega
    dsimp only
    rw [Digits.padLeft, missing, List.append_assoc]

/-- The sign of a field is that of its directive. -/
theorem signText_fieldSpec (d : Directive) (n : Int) :
    d.fieldSpec.signText (decide (n < 0)) = d.flags.signText n := by
  unfold FieldSpec.signText Flags.signText fieldSpec
  cases d.flags.plus <;> cases d.flags.space <;> simp

/-- The counts of an integer field are within the limits if its width is. -/
theorem isWithinLimits_fieldSpec (integer : d.conversion.isInteger = true) (within : d.fieldWidth ≤ 32767) :
    d.fieldSpec.isWithinLimits = true := by
  rw [FieldSpec.isWithinLimits_iff]
  constructor
  · intro n mem
    have width := d.width_fieldSpec
    rw [Option.mem_def.mp mem] at width
    exact Nat.le_trans (Nat.le_of_eq width) within
  · -- a directive for integers has no precision in its field
    intro n mem
    simp [fieldSpec, Conversion.isFloating_of_isInteger integer] at mem

end Directive

/-! ### Integers in fields -/

variable {d : Directive} {k : WholeKind}

/-- **An integer has the layout of the directive that it is set by.** -/
theorem Argument.render?_fieldSpec_whole (integer : d.conversion.isInteger = true) (a : Whole k) :
    (Argument.scalar (.whole a)).render? d.fieldSpec = some (d.layout a.toInt) := by
  -- the presentations for integers are those that an integer can have
  have suits : d.fieldSpec.presentation.all Presentation.isInteger = true := by
    unfold Directive.fieldSpec
    cases conversion : d.conversion <;> first | rfl | simp [conversion, Conversion.isInteger] at integer
  show (if d.fieldSpec.presentation.all Presentation.isInteger then
    some (d.fieldSpec.setInteger (decide (a.toInt < 0)) a.toInt.natAbs) else none) = _
  rw [if_pos suits, FieldSpec.setInteger, Directive.signText_fieldSpec, Directive.layout, Directive.markText]
  have presentation : d.fieldSpec.presentation = d.conversion.presentation := rfl
  have alternate : d.fieldSpec.alternate = d.flags.alternate := rfl
  rw [presentation, FieldSpec.hexMark, FieldSpec.hexMark, alternate]
  simp only [Directive.setNumber_fieldSpec integer]
  cases conversion : d.conversion <;> simp [conversion, Conversion.isInteger] at integer <;>
    simp [Conversion.presentation, Conversion.markText, Conversion.sizeText]

/-- **A pattern of one directive sets out an integer as the directive says.** -/
theorem format_integer {pattern : Text} (only : Piece.ofPattern pattern.codePoints = [.directive d])
    (integer : d.conversion.isInteger = true) (within : d.fieldWidth ≤ 32767) (a : Whole k) :
    format pattern [.scalar (.whole a)] = .ok (.ofChars (d.layout a.toInt)) := by
  have set := Argument.render?_fieldSpec_whole integer a
  have field : (Argument.scalar (.whole a)).field d.fieldSpec = d.layout a.toInt := by
    rw [Argument.field, set, Option.getD_some]
  -- an argument that can be set in its field is one that fits it
  have accepts : d.fieldSpec.Accepts (.scalar (.whole a)) := by
    rw [FieldSpec.accepts_iff, field]
    exact ⟨Directive.isWithinLimits_fieldSpec integer within, set⟩
  rw [format_eq, only, fillIn_accepted accepts, field]
  show Except.ok (Text.ofChars (d.layout a.toInt ++ [])) = _
  rw [List.append_nil]

end SystemUnit
