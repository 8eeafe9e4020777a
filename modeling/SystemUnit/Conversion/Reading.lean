import SystemUnit.Numeral.Real
import SystemUnit.Text.Case
import SystemUnit.Fault

namespace SystemUnit

/-!
# Values from texts

A value is read from a whole text in one of three ways: a text that holds none is a fault, or gives a default,
or leaves a variable as it is.  Main definitions:

* `Reading` — a way to read a value, with the name of what is read;
* `Reading.strict`, `Reading.orElse`, `Reading.into` — the three ways;
* `valInt`, `valReal` — a value, or the index of the unit at which reading fails.
-/

/-- A way to read a value from a whole text. -/
structure Reading (α : Type) where
  form : Literal
  read? : Text → Option α

namespace Reading

variable {α : Type}

/-- The value of a text, or a fault. -/
def strict (r : Reading α) (s : Text) : Except Fault α :=
  match r.read? s with
  | some v => .ok v
  | none => .error (.malformed r.form s)

/-- The value of a text, or a default. -/
def orElse (r : Reading α) (s : Text) (default : α) : α :=
  (r.read? s).getD default

/-- Whether a text has a value, and the variable that receives it. -/
def into (r : Reading α) (s : Text) (old : α) : Bool × α :=
  ((r.read? s).isSome, (r.read? s).getD old)

/-- An integer numeral for 32 bits. -/
def integer : Reading (Whole .integer) where
  form := .integer
  read? s := (whole? s.units (Numeral.scan 32 Numeral.radixMark s.units)).map (Whole.ofInt .integer)

/-- An integer numeral for 64 bits. -/
def int64 : Reading (Whole .int64) where
  form := .integer
  read? s := (whole? s.units (Numeral.scan 64 Numeral.radixMark s.units)).map (Whole.ofInt .int64)

/-- A real numeral. -/
def real : Reading (Floating .double) where
  form := .floatingPoint
  read? s := whole? s.units (Numeral.scanReal s.units)

/-- A word for a truth value in any case, or one of three numbers; no blanks are allowed. -/
def boolean : Reading Bool where
  form := .boolean
  read? s :=
    if s.upper = .ofString "TRUE" ∨ s = .ofString "1" ∨ s = .ofString "-1" then some true
    else if s.upper = .ofString "FALSE" ∨ s = .ofString "0" then some false
    else none

/-- A numeral in base sixteen for 32 bits, whether it has a mark or not.  A dollar sign stands before
    everything else. -/
def hexadecimal : Reading (Whole .integer) where
  form := .hexadecimal
  read? s :=
    let trimmed := s.units.dropWhile CodeUnit.isBlank
    let body := if startsWith '$' trimmed then trimmed.tail else s.units
    (whole? body (Numeral.scan 32 Numeral.hexMark body)).map (Whole.ofInt .integer)

end Reading

/-! ### Reading with a position -/

/-- The value of a scan that reaches the end of the units, and 0; or else the index of the unit at which the
    scan ends. -/
def valued {α : Type} (units : List CodeUnit) (scanned : Except Nat (α × Nat)) : Option α × Nat :=
  match scanned with
  | .ok (value, stop) => if stop = units.length then (some value, 0) else (none, stop + 1)
  | .error n => (none, n + 1)

/-- The integer that a text is the numeral of, without blanks after it, and 0; or else 0 and the index of the
    unit at which reading fails. -/
def valInt (s : Text) : Whole .integer × Whole .integer :=
  let (value, code) := valued s.units (Numeral.scan 32 Numeral.radixMark s.units)
  (Whole.ofInt .integer (value.getD 0), Whole.ofNat .integer code)

/-- The real that a text is the numeral of, without blanks after it, and 0; or else 0 and the index of the
    unit at which reading fails. -/
def valReal (s : Text) : Floating .double × Whole .integer :=
  let (value, code) := valued s.units (Numeral.scanReal s.units)
  (value.getD (Floating.zero .double), Whole.ofNat .integer code)

end SystemUnit
