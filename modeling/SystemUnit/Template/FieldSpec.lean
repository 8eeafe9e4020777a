import SystemUnit.Numeral.Digits

namespace SystemUnit

/-!
# Field specifications

A field specification says how a value is set in a field.  Its text is

  `[[fill]align][sign][#][0][width][.precision][type]`

and reading is lenient: what does not fit is left out.  Main definitions:

* `FieldSpec` — the parts of a specification;
* `FieldSpec.text`, `FieldSpec.parse` — its text, and the specification that a text starts with;
* `scanCount` — a run of digits, whose value stops at the greatest count.
-/

/-- Where the value stands in its field. -/
inductive Alignment where
  | left
  | center
  | right
  deriving DecidableEq

namespace Alignment

def all : List Alignment := [left, center, right]

def name : Alignment → String
  | left => "Left"
  | center => "Center"
  | right => "Right"

def toChar : Alignment → Char
  | left => '<'
  | center => '^'
  | right => '>'

def ofChar? : Char → Option Alignment
  | '<' => some left
  | '^' => some center
  | '>' => some right
  | _ => none

@[simp] theorem ofChar?_toChar (a : Alignment) : ofChar? a.toChar = some a := by
  cases a <;> rfl

end Alignment

/-- The mark of a number that is not negative; a negative one has a minus sign in any case. -/
inductive SignMark where
  | plus
  | minus
  | space
  deriving DecidableEq

namespace SignMark

def all : List SignMark := [plus, minus, space]

def name : SignMark → String
  | plus => "Plus"
  | minus => "Minus"
  | space => "Space"

def toChar : SignMark → Char
  | plus => '+'
  | minus => '-'
  | space => ' '

def ofChar? : Char → Option SignMark
  | '+' => some plus
  | '-' => some minus
  | ' ' => some space
  | _ => none

@[simp] theorem ofChar?_toChar (s : SignMark) : ofChar? s.toChar = some s := by
  cases s <;> rfl

end SignMark

/-- The form of a value. -/
inductive Presentation where
  | decimal
  | hex
  | hexUpper
  | fixed
  | exponent
  | exponentUpper
  | general
  | generalUpper
  | pointer
  deriving DecidableEq

namespace Presentation

def name : Presentation → String
  | decimal => "Decimal"
  | hex => "Hex"
  | hexUpper => "HexUpper"
  | fixed => "Fixed"
  | exponent => "Exp"
  | exponentUpper => "ExpUpper"
  | general => "General"
  | generalUpper => "GeneralUpper"
  | pointer => "Pointer"

def toChar : Presentation → Char
  | decimal => 'd'
  | hex => 'x'
  | hexUpper => 'X'
  | fixed => 'f'
  | exponent => 'e'
  | exponentUpper => 'E'
  | general => 'g'
  | generalUpper => 'G'
  | pointer => 'p'

def ofChar? : Char → Option Presentation
  | 'd' => some decimal
  | 'x' => some hex
  | 'X' => some hexUpper
  | 'f' => some fixed
  | 'e' => some exponent
  | 'E' => some exponentUpper
  | 'g' => some general
  | 'G' => some generalUpper
  | 'p' => some pointer
  | _ => none

/-- Whether the form is one of integers only. -/
def isInteger : Presentation → Bool
  | decimal | hex | hexUpper => true
  | _ => false

/-- Whether the form is one of reals only. -/
def isFloating : Presentation → Bool
  | fixed | exponent | exponentUpper | general | generalUpper => true
  | _ => false

@[simp] theorem ofChar?_toChar (p : Presentation) : ofChar? p.toChar = some p := by
  cases p <;> rfl

end Presentation

/-! ### Counts -/

/-- The greatest count. -/
def greatestCount : Nat := 0xFFFFFFFFFFFFFFFF

/-- The value of a word of decimal digits, or the greatest count if that is less. -/
def saturatedValue (digits : List Char) : Nat :=
  digits.foldl (fun v c => min (v * 10 + (c.toNat - 0x30)) greatestCount) 0

/-- A run of digits at the start, if there is one, as a count, and what follows it. -/
def scanCount (cs : List Char) : Option UInt64 × List Char :=
  let digits := cs.takeWhile Char.isDigit
  (if digits.isEmpty then none else some (UInt64.ofNat (saturatedValue digits)),
    cs.dropWhile Char.isDigit)

/-- A point and a run of digits at the start as a precision, which is zero if the digits are missing. -/
def scanPrecision : List Char → Option UInt64 × List Char
  | '.' :: rest => (some ((scanCount rest).1.getD 0), (scanCount rest).2)
  | cs => (none, cs)

/-- A count in decimal. -/
def countText (n : UInt64) : List Char := Digits.decimal n.toNat

/-! ### Specifications -/

/-- The parts of a field specification. -/
structure FieldSpec where
  fill : Option Char := none
  align : Option Alignment := none
  sign : Option SignMark := none
  alternate : Bool := false
  zeroPad : Bool := false
  width : Option UInt64 := none
  precision : Option UInt64 := none
  presentation : Option Presentation := none
  deriving DecidableEq

namespace FieldSpec

/-- The specification that asks for nothing. -/
def empty : FieldSpec := { }

instance : Inhabited FieldSpec := ⟨empty⟩

/-- Whether nothing is asked for. -/
def isEmpty (s : FieldSpec) : Bool := s = empty

/-- The text of a specification; a fill character is written with an alignment only. -/
def text (s : FieldSpec) : List Char :=
  (match s.align with
    | some a => s.fill.toList ++ [a.toChar]
    | none => []) ++
  s.sign.toList.map SignMark.toChar ++
  (if s.alternate then ['#'] else []) ++
  (if s.zeroPad then ['0'] else []) ++
  (match s.width with
    | some n => countText n
    | none => []) ++
  (match s.precision with
    | some n => '.' :: countText n
    | none => []) ++
  s.presentation.toList.map Presentation.toChar

/-- The fill character and the alignment at the start; any character before an alignment is its fill. -/
def scanAlignment : List Char → (Option Char × Option Alignment) × List Char
  | c :: d :: rest =>
    match Alignment.ofChar? d with
    | some a => ((some c, some a), rest)
    | none =>
      match Alignment.ofChar? c with
      | some a => ((none, some a), d :: rest)
      | none => ((none, none), c :: d :: rest)
  | [c] =>
    match Alignment.ofChar? c with
    | some a => ((none, some a), [])
    | none => ((none, none), [c])
  | [] => ((none, none), [])

/-- The sign mark at the start. -/
def scanSign : List Char → Option SignMark × List Char
  | c :: rest =>
    match SignMark.ofChar? c with
    | some s => (some s, rest)
    | none => (none, c :: rest)
  | [] => (none, [])

/-- Whether a text starts with a mark, and what follows it. -/
def scanMark (mark : Char) : List Char → Bool × List Char
  | c :: rest => if c = mark then (true, rest) else (false, c :: rest)
  | [] => (false, [])

/-- The specification that a text starts with. -/
def parse (cs : List Char) : FieldSpec :=
  let ((fill, align), cs) := scanAlignment cs
  let (sign, cs) := scanSign cs
  let (alternate, cs) := scanMark '#' cs
  let (zeroPad, cs) := scanMark '0' cs
  let (width, cs) := scanCount cs
  let (precision, cs) := scanPrecision cs
  let presentation := cs.head?.bind Presentation.ofChar?
  { fill, align, sign, alternate, zeroPad, width, precision, presentation }

end FieldSpec

end SystemUnit
