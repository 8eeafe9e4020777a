import SystemUnit.Arithmetic
import SystemUnit.Conversion.Reading
import SystemUnit.Format.Basic
import SystemUnit.Session
import SystemUnit.File.TextFile
import SystemUnit.Arena

namespace SystemUnit

/-!
# Faults as they are raised

An operation that fails gives a fault, and the message of the fault becomes the last one when the operation is over.
Here the same operations are written as programs of steps, any of which may raise a fault: its message is noted at
that moment, and the program ends there.

* `Machine` — what operations work on;
* `RaiseM`, `raise` — programs that may raise faults;
* `RaiseM.exec`, `RaiseM.exec_bind` — programs performed;
* `RaiseM.Settles`, `RaiseM.Settles.bind` — programs that leave all as it was but for the message of their fault;
* `RaiseM.divide`, `RaiseM.fit`, `RaiseM.single`, `RaiseM.strict`, `RaiseM.format` — arithmetic, conversions and
  formatting, each with the result that it settles.
-/

/-- What operations that may fail work on: the shared state, memory and a text file. -/
structure Machine where
  session : Session
  arena : Arena
  file : TextFile

/-- A program that may raise a fault, which ends it. -/
abbrev RaiseM := ExceptT Fault (StateM Machine)

namespace Machine

/-- The machine with another last message. -/
def noting (m : Machine) (message : Text) : Machine := { m with session := { m.session with message } }

/-- A result and the machine after it: the message of a fault has become the last one. -/
def settle {α : Type} (m : Machine) : Except Fault α → Except Fault α × Machine
  | .ok a => (.ok a, m)
  | .error fault => (.error fault, m.noting fault.message)

end Machine

namespace RaiseM

variable {α β : Type} {m : Machine}

/-! ### Programs performed -/

/-- Performs a program: its result or the fault that it raised, and the machine then. -/
def exec (program : RaiseM α) (m : Machine) : Except Fault α × Machine := program.run.run m

/-- A program that has raised a fault does not go on. -/
theorem exec_bind (program : RaiseM α) (next : α → RaiseM β) (m : Machine) :
    exec (program >>= next) m =
      match exec program m with
      | (.ok a, m) => exec (next a) m
      | (.error fault, m) => (.error fault, m) := by
  unfold exec
  rw [ExceptT.run_bind, StateT.run_bind]
  rcases program.run.run m with ⟨_ | _, _⟩ <;> rfl

/-- A program gives a result and leaves the machine as it was, but for the message of its fault. -/
def Settles (program : RaiseM α) (m : Machine) (result : Except Fault α) : Prop :=
  exec program m = m.settle result

/-- To answer raises no fault. -/
theorem settles_pure (a : α) : Settles (pure a) m (.ok a) := rfl

/-- Programs one after another settle the results one after another, and the first fault ends them. -/
theorem Settles.bind {program : RaiseM α} {next : α → RaiseM β} {first : Except Fault α}
    {second : α → Except Fault β} (h : Settles program m first)
    (h' : ∀ a, first = .ok a → Settles (next a) m (second a)) : Settles (program >>= next) m (first >>= second) := by
  unfold Settles
  rw [exec_bind, h]
  cases first with
  | ok a => exact h' a rfl
  | error fault => rfl

/-! ### Faults -/

/-- Notes the message of a fault and ends the program. -/
def raise (fault : Fault) : RaiseM α := do
  modify (·.noting fault.message)
  throw fault

/-- The value that there is, or else a fault. -/
def orRaise (value? : Option α) (fault : Fault) : RaiseM α :=
  match value? with
  | some value => return value
  | none => raise fault

/-- Goes on if all is fine, and else raises a fault. -/
def ensure (fine : Prop) [Decidable fine] (fault : Fault) : RaiseM Unit :=
  if fine then return else raise fault

/-- A fault that is raised is the result. -/
theorem settles_raise (fault : Fault) : Settles (raise fault : RaiseM α) m (.error fault) := rfl

/-- A value that is there is given, and else the fault is raised. -/
theorem settles_orRaise (value? : Option α) (fault : Fault) :
    Settles (orRaise value? fault) m (value?.elim (.error fault) .ok) := by
  cases value? <;> rfl

/-- What follows a test that has to be passed. -/
theorem Settles.ensure {fine : Prop} [Decidable fine] {next : RaiseM α} {result : Except Fault α} (fault : Fault)
    (h : fine → Settles next m result) :
    Settles (do ensure fine fault; next) m (if fine then result else .error fault) := by
  unfold RaiseM.ensure
  split
  · rename_i fine
    exact h fine
  · rfl

/-! ### Arithmetic -/

/-- Division, with the operation to be performed if the divisor is not zero. -/
def divide {k : WholeKind} (operation : Whole k → Whole k → Whole k) (a b : Whole k) : RaiseM (Whole k) := do
  ensure (b.toInt ≠ 0) .divisionByZero
  return operation a b

/-- A division tests its divisor first. -/
theorem settles_divide {k : WholeKind} (operation : Whole k → Whole k → Whole k) (a b : Whole k) :
    Settles (divide operation a b) m
      (if b.toInt = 0 then .error .divisionByZero else .ok (operation a b)) := by
  rw [← ite_not]
  exact Settles.ensure .divisionByZero fun _ => settles_pure (operation a b)

/-- An integral number as an integer: it is refused if it is none, too small or too great. -/
def fit (target : WholeKind) (integral? : Option Int) : RaiseM (Whole target) := do
  let n ← orRaise integral? .noInteger
  ensure (target.least ≤ n ∧ n ≤ target.greatest) .noInteger
  return Whole.ofInt target n

/-- A number that is none of the type raises the fault of the conversion. -/
theorem settles_fit (target : WholeKind) (integral? : Option Int) :
    Settles (fit target integral?) m (Floating.fit target integral?) := by
  cases integral? with
  | none => rfl
  | some n => exact Settles.ensure .noInteger fun _ => settles_pure (Whole.ofInt target n)

/-! ### Conversions -/

/-- A character as one code unit. -/
def single (c : Char) : RaiseM CodeUnit := orRaise (CodeUnit.ofChar? c) (.noCodeUnit c)

/-- A character is given as one unit, or its fault is raised. -/
theorem settles_single (c : Char) : Settles (single c) m (CodeUnit.ofSingle c) := by
  unfold single CodeUnit.ofSingle
  cases CodeUnit.ofChar? c <;> rfl

/-- The value of a text. -/
def strict (r : Reading α) (s : Text) : RaiseM α := orRaise (r.read? s) (.malformed r.form s)

/-- A text is read, or the fault of the reading is raised. -/
theorem settles_strict (r : Reading α) (s : Text) : Settles (strict r s) m (r.strict s) := by
  unfold strict Reading.strict
  cases r.read? s <;> rfl

/-! ### Formatting -/

/-- Writes pieces behind the text that is there already, and takes an argument for each directive. -/
def fillOut (pattern out : List Char) : List Piece → List Argument → RaiseM (List Char)
  | [], _ => return out
  | .literal text :: rest, args => fillOut pattern (out ++ text) rest args
  | .directive d :: rest, args => do
    let arg ← orRaise args.head? (.missingArgument pattern)
    ensure (d.fieldSpec.isWithinLimits = true) (.unfitArgument pattern)
    let field ← orRaise (arg.render? d.fieldSpec) (.unfitArgument pattern)
    fillOut pattern (out ++ field) rest args.tail

/-- A pattern filled in with arguments. -/
def format (pattern : Text) (args : List Argument) : RaiseM Text := do
  return .ofChars (← fillOut pattern.codePoints [] (Piece.ofPattern pattern.codePoints) args)

/-- Text is put before what the other pieces give. -/
theorem fillIn_literal (pattern text : List Char) (rest : List Piece) (args : List Argument) :
    fillIn pattern (.literal text :: rest) args = (text ++ ·) <$> fillIn pattern rest args := by
  rw [fillIn, bind_pure_comp]

/-- A directive takes the next argument, which has to suit it. -/
theorem fillIn_directive (pattern : List Char) (d : Directive) (rest : List Piece) (arg : Argument)
    (args : List Argument) :
    fillIn pattern (.directive d :: rest) (arg :: args) =
      if d.fieldSpec.isWithinLimits = true then do
        let field ← (arg.render? d.fieldSpec).elim (.error (.unfitArgument pattern)) .ok
        (field ++ ·) <$> fillIn pattern rest args
      else .error (.unfitArgument pattern) := by
  rw [fillIn]
  -- the limits are tested before the argument is looked at
  cases d.fieldSpec.isWithinLimits with
  | false => rfl
  | true =>
    cases arg.render? d.fieldSpec with
    | none => rfl
    | some field => exact bind_pure_comp (field ++ ·) (fillIn pattern rest args)

/-- The text of the pieces goes behind what was there before. -/
theorem settles_fillOut (pattern out : List Char) (pieces : List Piece) (args : List Argument) :
    Settles (fillOut pattern out pieces args) m ((out ++ ·) <$> fillIn pattern pieces args) := by
  induction pieces generalizing out args with
  | nil =>
    show Settles (pure out) m (.ok (out ++ []))
    rw [List.append_nil]
    exact settles_pure out
  | cons piece rest ih =>
    -- what has been put out so far stands before what the other pieces give
    have behind (field : List Char) (args : List Argument) : Settles (fillOut pattern (out ++ field) rest args) m
        ((out ++ ·) <$> (field ++ ·) <$> fillIn pattern rest args) := by
      rw [Functor.map_map]
      simp only [← List.append_assoc]
      exact ih (out ++ field) args
    cases piece with
    | literal text =>
      rw [fillIn_literal]
      exact behind text args
    | directive d =>
      cases args with
      | nil => rfl
      | cons arg args =>
        rw [fillIn_directive, apply_ite ((out ++ ·) <$> ·), map_bind]
        exact Settles.ensure _ fun _ => (settles_orRaise _ _).bind fun field _ => behind field args

/-- **A pattern is filled in piece by piece**, and the first field that does not fit raises its fault. -/
theorem settles_format (pattern : Text) (args : List Argument) :
    Settles (format pattern args) m (SystemUnit.format pattern args) := by
  have filled := settles_fillOut (m := m) pattern.codePoints [] (Piece.ofPattern pattern.codePoints) args
  simp only [List.nil_append, id_map'] at filled
  exact filled.bind fun chars _ => settles_pure (Text.ofChars chars)

end RaiseM

end SystemUnit
