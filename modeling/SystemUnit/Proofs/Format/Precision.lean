import Mathlib.Data.List.DropRight
import SystemUnit.Proofs.Format.Layout
import SystemUnit.Proofs.Numeral.Decimal
import SystemUnit.Proofs.Text.Recoding

namespace SystemUnit

/-!
# The precision of decimal integers

A precision of a decimal integer asks for that many characters, with zeros between the sign and the digits.  An integer
that stands at the right has them.  One that stands at the left is filled up with spaces behind it instead, so that
without these it is as long as the precision only if its sign and its digits are.

* `withoutSpaces`, `Digits.IsZeroPadded` — a text without the spaces behind it, and digits behind zeros;
* `Directive.layout_of_precision` — the layout that a precision asks for;
* `withoutSpaces_layout` — what the layout shows;
* `format_precision` — when a precision gives zeros, and what there is if it does not.
-/

/-! ### Spaces behind a text -/

/-- A text without the spaces at its end. -/
def withoutSpaces (text : List Char) : List Char := text.rdropWhile (· == ' ')

/-- Spaces behind a text that does not end with one are all that is taken from it. -/
theorem withoutSpaces_append {text : List Char} (last : text.getLast? ≠ some ' ') (count : Nat) :
    withoutSpaces (text ++ List.replicate count ' ') = text := by
  induction count with
  | zero =>
    rw [List.replicate_zero, List.append_nil, withoutSpaces, List.rdropWhile_eq_self_iff]
    intro ne space
    rw [beq_iff_eq] at space
    exact last (space ▸ List.getLast?_eq_some_getLast ne)
  | succ count ih =>
    -- one space is dropped from the end, and the others by induction
    rw [withoutSpaces, List.replicate_succ', ← List.append_assoc, List.rdropWhile_concat_pos _ _ _ rfl]
    exact ih

/-! ### Digits behind zeros -/

/-- A text has at least `count` characters, and these are a sign, zeros and the decimal digits of a number. -/
structure Digits.IsZeroPadded (count : Nat) (sign : List Char) (size : Nat) (text : List Char) : Prop where
  length_le : count ≤ text.length
  form : ∃ zeros, text = sign ++ (List.replicate zeros '0' ++ decimal size)

/-- Zeros before the digits make up for what is missing. -/
theorem Digits.isZeroPadded_iff {count zeros size : Nat} {sign : List Char} :
    IsZeroPadded count sign size (sign ++ (List.replicate zeros '0' ++ decimal size)) ↔
      count ≤ zeros + (sign ++ decimal size).length := by
  have length : (sign ++ (List.replicate zeros '0' ++ decimal size)).length =
      zeros + (sign ++ decimal size).length := by
    simp only [List.length_append, List.length_replicate]
    omega
  constructor
  · intro padded
    rw [← length]
    exact padded.length_le
  · intro enough
    rw [← length] at enough
    exact ⟨enough, zeros, rfl⟩

/-- A number ends with a digit. -/
theorem Digits.getLast?_append_decimal (text : List Char) (size : Nat) :
    (text ++ decimal size).getLast? ≠ some ' ' := by
  intro space
  have ne := decimal_ne_nil size
  rw [List.getLast?_append_of_ne_nil _ ne] at space
  -- a space is no digit
  have digit := isDigit_of_mem_decimal (List.mem_of_getLast? space)
  exact absurd digit (by decide)

/-- Decimal conversions are conversions of integers. -/
theorem Conversion.isInteger_of_isDecimal {k : Conversion} (decimal : k.isDecimal = true) : k.isInteger = true := by
  cases k <;> first | rfl | cases decimal

namespace Directive

variable {d : Directive} {precision : UInt64}

/-- A decimal integer has no mark, and decimal digits. -/
theorem plain_of_isDecimal (decimal : d.conversion.isDecimal = true) :
    d.markText = [] ∧ d.conversion.sizeText = Digits.decimal := by
  rw [markText]
  cases conversion : d.conversion <;> simp [conversion, Conversion.isDecimal] at decimal <;>
    exact ⟨ite_self _, rfl⟩

/-- A decimal integer without a field is its sign and its digits. -/
theorem body_of_isDecimal (decimal : d.conversion.isDecimal = true) (n : Int) :
    d.body n = d.flags.signText n ++ Digits.decimal n.natAbs := by
  obtain ⟨mark, digits⟩ := plain_of_isDecimal decimal
  rw [body, mark, digits, List.nil_append]

/-- With a precision the field of a decimal integer is as wide as that, whatever the width. -/
theorem fieldWidth_of_precision (decimal : d.conversion.isDecimal = true) (asked : d.precision = some precision) :
    d.fieldWidth = precision.toNat := by
  rw [fieldWidth, if_pos decimal, asked]
  rfl

/-- **The layout that a precision asks for**: zeros before the digits, or spaces behind an integer at the left. -/
theorem layout_of_precision (decimal : d.conversion.isDecimal = true) (asked : d.precision = some precision) (n : Int) :
    d.layout n =
      if d.flags.left then d.body n ++ List.replicate (precision.toNat - (d.body n).length) ' '
      else d.flags.signText n ++
        (List.replicate (precision.toNat - (d.body n).length) '0' ++ Digits.decimal n.natAbs) := by
  -- a precision asks for zeros, but the alignment decides whether there are any
  have fills : d.fillsZeros = true := by
    rw [fillsZeros, asked]
    exact decimal
  obtain ⟨mark, digits⟩ := plain_of_isDecimal decimal
  have body := body_of_isDecimal decimal n
  rw [layout, setOut, fills, mark, digits, fillWithSpaces, fieldWidth_of_precision decimal asked,
    List.nil_append, List.nil_append, ← body]
  cases d.flags.left <;> rfl

/-- What the layout shows: zeros up to the precision, or none at the left. -/
theorem withoutSpaces_layout (decimal : d.conversion.isDecimal = true) (asked : d.precision = some precision)
    (n : Int) :
    withoutSpaces (d.layout n) = d.flags.signText n ++
      (List.replicate (if d.flags.left then 0 else precision.toNat - (d.body n).length) '0' ++
        Digits.decimal n.natAbs) := by
  rw [layout_of_precision decimal asked]
  cases d.flags.left with
  | false =>
    -- zeros stand before the digits, so that there is nothing to drop
    have last := Digits.getLast?_append_decimal (d.flags.signText n ++
      List.replicate (precision.toNat - (d.body n).length) '0') n.natAbs
    rw [List.append_assoc] at last
    have shown := withoutSpaces_append last 0
    rw [List.replicate_zero, List.append_nil] at shown
    exact shown
  | true =>
    have last := Digits.getLast?_append_decimal (d.flags.signText n) n.natAbs
    rw [← body_of_isDecimal decimal] at last
    rw [if_pos rfl, if_pos rfl, withoutSpaces_append last, body_of_isDecimal decimal]
    rfl

end Directive

variable {d : Directive} {precision : UInt64} {k : WholeKind}

/-- **A precision of a decimal integer gives zeros, unless it stands at the left.**  In a pattern of one directive the
    integer is shown with its sign and its digits and, if it does not stand at the left, with the zeros between them
    that make it as long as the precision; a width does not count.  So it has as many characters as the precision,
    without the spaces behind it, exactly if it does not stand at the left or needs no zeros. -/
theorem format_precision {pattern : Text} (only : Piece.ofPattern pattern.codePoints = [.directive d])
    (decimal : d.conversion.isDecimal = true) (asked : d.precision = some precision)
    (within : precision.toNat ≤ 32767) (a : Whole k) :
    ∃ result, format pattern [.scalar (.whole a)] = .ok result ∧
      let sign := d.flags.signText a.toInt
      let digits := Digits.decimal a.toInt.natAbs
      let shown := withoutSpaces result.codePoints
      shown = sign ++ (List.replicate
        (if d.flags.left then 0 else precision.toNat - (sign ++ digits).length) '0' ++ digits) ∧
      (Digits.IsZeroPadded precision.toNat sign a.toInt.natAbs shown ↔
        d.flags.left = false ∨ precision.toNat ≤ (sign ++ digits).length) := by
  have integer := Conversion.isInteger_of_isDecimal decimal
  have fits : d.fieldWidth ≤ 32767 := by
    rw [Directive.fieldWidth_of_precision decimal asked]
    exact within
  refine ⟨_, format_integer only integer fits a, ?_⟩
  intro sign digits shown
  have shown_eq : shown = sign ++ (List.replicate
      (if d.flags.left then 0 else precision.toNat - (sign ++ digits).length) '0' ++ digits) := by
    show withoutSpaces (Text.ofChars _).codePoints = _
    rw [Text.codePoints_ofChars, Directive.withoutSpaces_layout decimal asked, Directive.body_of_isDecimal decimal]
  refine ⟨shown_eq, ?_⟩
  rw [shown_eq, Digits.isZeroPadded_iff]
  cases d.flags.left with
  | false =>
    -- the zeros make up for what is missing
    refine iff_of_true ?_ (.inl rfl)
    rw [if_neg Bool.false_ne_true]
    exact Nat.le_add_of_sub_le le_rfl
  | true =>
    -- there are no zeros, and so the digits have to be enough
    rw [if_pos rfl, Nat.zero_add]
    exact (or_iff_right Bool.true_eq_false.mp).symm

/-- A plus sign and six zeros, in place of a width that no field may have. -/
theorem format_precision_of_wide :
    let d : Directive := ⟨{ plus := true }, some 40000, some 8, .signed⟩
    let a : Whole .integer := ⟨7⟩
    Piece.ofPattern (Text.ofString "%+40000.8i").codePoints = [.directive d] ∧ d.conversion.isDecimal = true ∧
      d.precision = some 8 ∧ (8 : UInt64).toNat ≤ 32767 ∧
      ∃ result, format (.ofString "%+40000.8i") [.scalar (.whole a)] = .ok result ∧
        withoutSpaces result.codePoints = "+0000007".toList ∧
        Digits.IsZeroPadded 8 ['+'] 7 (withoutSpaces result.codePoints) := by
  intro d a
  have only : Piece.ofPattern (Text.ofString "%+40000.8i").codePoints = [.directive d] := by decide +kernel
  obtain ⟨result, formatted, shown, padded⟩ := format_precision only rfl rfl (by decide) a
  refine ⟨only, rfl, rfl, by decide, result, formatted, ?_, padded.mpr (.inl rfl)⟩
  rw [shown]
  decide +kernel

/-- **At the left a precision gives no zeros**, so that a digit stands for itself and not for the three characters
    asked for. -/
theorem format_precision_at_left :
    let d : Directive := ⟨{ left := true }, none, some 3, .signed⟩
    let a : Whole .integer := ⟨7⟩
    Piece.ofPattern (Text.ofString "%-.3d").codePoints = [.directive d] ∧ d.conversion.isDecimal = true ∧
      d.precision = some 3 ∧ format (.ofString "%-.3d") [.scalar (.whole a)] = .ok (.ofString "7  ") ∧
      ∀ sign, ¬ Digits.IsZeroPadded 3 sign 7 (withoutSpaces (Text.ofString "7  ").codePoints) := by
  intro d a
  have only : Piece.ofPattern (Text.ofString "%-.3d").codePoints = [.directive d] := by decide +kernel
  have layout : Text.ofChars (d.layout a.toInt) = .ofString "7  " := by decide +kernel
  refine ⟨only, rfl, rfl, ?_, fun sign padded => ?_⟩
  · rw [format_integer only rfl (by decide) a, layout]
  · -- three characters are asked for, and one is there
    have shown : withoutSpaces (Text.ofString "7  ").codePoints = ['7'] := by decide +kernel
    have length := padded.length_le
    rw [shown] at length
    exact absurd length (by decide)

end SystemUnit
