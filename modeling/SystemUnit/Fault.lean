import SystemUnit.Text.CodePoints
import SystemUnit.Pointer

namespace SystemUnit

/-!
# Faults

Conversions, arithmetic and memory fail with a cause.  A cause has a kind, which has a class name and a code,
and a message.  Main definitions:

* `FaultKind` — the closed set of kinds;
* `Fault` — the causes;
* `Fault.kind`, `Fault.message` — what a program learns of a cause.
-/

/-- The kinds of faults. -/
inductive FaultKind where
  | exception
  | convertError
  | inOutError
  | rangeError
  | divByZero
  | overflow
  | mathError
  | accessViolation
  | invalidPointer
  | outOfMemory
  deriving DecidableEq

namespace FaultKind

def all : List FaultKind :=
  [exception, convertError, inOutError, rangeError, divByZero, overflow, mathError, accessViolation,
    invalidPointer, outOfMemory]

/-- The name of a kind by itself. -/
def name : FaultKind → String
  | exception => "Exception"
  | convertError => "ConvertError"
  | inOutError => "IoError"
  | rangeError => "RangeError"
  | divByZero => "DivByZero"
  | overflow => "Overflow"
  | mathError => "MathError"
  | accessViolation => "AccessViolation"
  | invalidPointer => "InvalidPointer"
  | outOfMemory => "OutOfMemory"

/-- The number of a kind. -/
def code : FaultKind → Int
  | exception => 0
  | convertError => 1
  | inOutError => 2
  | rangeError => 3
  | divByZero => 4
  | overflow => 5
  | mathError => 6
  | accessViolation => 7
  | invalidPointer => 8
  | outOfMemory => 9

/-- The name of the class of exceptions of a kind. -/
def className : FaultKind → String
  | exception => "Exception"
  | convertError => "EConvertError"
  | inOutError => "EInOutError"
  | rangeError => "ERangeError"
  | divByZero => "EDivByZero"
  | overflow => "EOverflow"
  | mathError => "EMathError"
  | accessViolation => "EAccessViolation"
  | invalidPointer => "EInvalidPointer"
  | outOfMemory => "EOutOfMemory"

end FaultKind

/-- What a text was read as. -/
inductive Literal where
  | integer
  | floatingPoint
  | boolean
  | hexadecimal
  deriving DecidableEq

/-- The name of a form in a message. -/
def Literal.name : Literal → String
  | integer => "integer"
  | floatingPoint => "floating point"
  | boolean => "boolean"
  | hexadecimal => "hexadecimal"

/-- The causes of a fault. -/
inductive Fault where
  | divisionByZero
  | noInteger
  | noCodeUnit (c : Char)
  | malformed (form : Literal) (text : Text)
  | missingArgument (pattern : List Char)
  | unfitArgument (pattern : List Char)
  | noAccess (p : Pointer)
  | noBlock
  | noMemory
  | raised (kind : FaultKind) (message : Text)
  deriving DecidableEq

namespace Fault

/-- The kind of a cause. -/
def kind : Fault → FaultKind
  | divisionByZero => .divByZero
  | noInteger => .mathError
  | noCodeUnit _ => .rangeError
  | malformed _ _ => .convertError
  | missingArgument _ => .convertError
  | unfitArgument _ => .convertError
  | noAccess _ => .accessViolation
  | noBlock => .invalidPointer
  | noMemory => .outOfMemory
  | raised kind _ => kind

/-- The message of a cause. -/
def message : Fault → Text
  | divisionByZero => .ofString "Division by zero"
  | noInteger => .ofString "Invalid floating point operation"
  | noCodeUnit c =>
    .ofChars ("character U+".toList ++ Digits.padLeft '0' 4 (Digits.hex true c.toNat) ++
      " does not fit in Char".toList)
  | malformed form text =>
    .ofChars ("'".toList ++ text.codePoints ++ "' is not a valid ".toList ++ form.name.toList ++
      " value".toList)
  | missingArgument pattern =>
    .ofChars ("No argument for format '".toList ++ pattern ++ "'".toList)
  | unfitArgument pattern =>
    .ofChars ("Format '".toList ++ pattern ++ "' invalid or incompatible with argument".toList)
  | noAccess p => .ofChars ("Access violation at address ".toList ++ p.hex)
  | noBlock => .ofString "Invalid pointer operation"
  | noMemory => .ofString "Out of memory"
  | raised _ message => message

end Fault

/-- Two steps one after the other give a result only if both do. -/
theorem bind_eq_ok {ε α β : Type} {x : Except ε α} {f : α → Except ε β} {y : β}
    (h : (x >>= f) = .ok y) : ∃ z, x = .ok z ∧ f z = .ok y := by
  cases x with
  | error e => cases h
  | ok z => exact ⟨z, rfl, h⟩

/-- Two steps one after the other fail with the first that does. -/
theorem bind_eq_error_iff {ε α β : Type} {x : Except ε α} {f : α → Except ε β} {e : ε} :
    (x >>= f) = .error e ↔ x = .error e ∨ ∃ z, x = .ok z ∧ f z = .error e := by
  cases x with
  | error e' => simp [Bind.bind, Except.bind]
  | ok z => simp [Bind.bind, Except.bind]

/-- A step that cannot fail does not add to the failures. -/
theorem bind_pure_eq_error_iff {ε α β : Type} {x : Except ε α} {f : α → β} {e : ε} :
    (x >>= fun z => pure (f z)) = .error e ↔ x = .error e := by
  rw [bind_eq_error_iff]
  exact or_iff_left fun ⟨_, _, failed⟩ => nomatch failed

end SystemUnit
