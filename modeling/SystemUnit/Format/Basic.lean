import SystemUnit.Format.Field
import SystemUnit.Template.Piece
import SystemUnit.Scalar.Basic
import SystemUnit.Floating.Arithmetic
import SystemUnit.Fault

namespace SystemUnit

/-!
# Formatting

A pattern is filled in with arguments, one for each directive; arguments that are left over do not count.
Main definitions:

* `Argument` — what a directive may be filled in with;
* `Argument.render?` — an argument set as a specification asks, if the form suits it;
* `format` — a pattern filled in, or the fault of the first directive that fails.
-/

/-- A text or a scalar. -/
inductive Argument where
  | text (t : Text)
  | scalar (s : Scalar)

/-- A value as it is written, in the parts in which it is written out; a text goes out by characters. -/
def Argument.parts : Argument → List (List Char)
  | text t => t.codePoints.map ([·])
  | scalar s => s.parts

/-- The greatest width or precision of a field. -/
def greatestField : Nat := 32767

namespace Argument

/-- An argument as the field specification asks; none if the form does not suit it.  Truth values and code
    units are numbers to the integer forms and text if no form is asked for. -/
def render? (spec : FieldSpec) : Argument → Option (List Char)
  | text t => if spec.presentation.isNone then some (spec.setText t.codePoints) else none
  | scalar ⟨.whole _, a⟩ =>
    if spec.presentation.all Presentation.isInteger then
      some (spec.setInteger (a.toInt < 0) a.toInt.natAbs)
    else none
  | scalar ⟨.floating _, a⟩ =>
    if spec.presentation.all Presentation.isFloating then
      some (spec.setFloating (a.convert .double))
    else none
  | scalar ⟨.boolean, b⟩ =>
    match spec.presentation with
    | none => some (spec.setText (Scalar.boolWord b))
    | some p => if p.isInteger then some (spec.setInteger false b.toNat) else none
  | scalar ⟨.char, c⟩ =>
    match spec.presentation with
    | none => some (spec.setText (Text.singleton c).codePoints)
    | some p => if p.isInteger then some (spec.setInteger false c.toNat) else none
  | scalar ⟨.pointer, p⟩ =>
    if spec.presentation.all (· = .pointer) then some (spec.fillUp .right p.hex) else none

end Argument

/-- Whether no count of a specification is above the greatest one of a field. -/
def FieldSpec.isWithinLimits (s : FieldSpec) : Bool :=
  s.width.all (·.toNat ≤ greatestField) && s.precision.all (·.toNat ≤ greatestField)

/-- The text of the pieces of `pattern`, filled in with arguments from the left. -/
def fillIn (pattern : List Char) : List Piece → List Argument → Except Fault (List Char)
  | [], _ => .ok []
  | .literal text :: rest, args => do
    return text ++ (← fillIn pattern rest args)
  | .directive _ :: _, [] => .error (.missingArgument pattern)
  | .directive d :: rest, arg :: args => do
    let spec := d.fieldSpec
    if !spec.isWithinLimits then throw (.unfitArgument pattern)
    match arg.render? spec with
    | some field => return field ++ (← fillIn pattern rest args)
    | none => throw (.unfitArgument pattern)

/-- A pattern filled in with arguments. -/
def format (pattern : Text) (args : List Argument) : Except Fault Text := do
  let chars := pattern.codePoints
  return .ofChars (← fillIn chars (Piece.ofPattern chars) args)

end SystemUnit
