import SystemUnit.Whole.Basic
import SystemUnit.Numeral.Digits

namespace SystemUnit

/-!
# The end of a process

A process ends with a code, of which the host keeps the low byte, after what standard output holds back has
been written.  Main definitions:

* `Ending` — what is seen of a process when it has ended;
* `Ending.halt`, `Ending.runError`, `Ending.abort` — the three ways to end.
-/

/-- What is seen of a process when it has ended. -/
structure Ending where
  code : Nat
  output : List UInt8
  errors : List Char
  deriving DecidableEq

namespace Ending

/-- Ends with a code, which is an integer of 32 bits. -/
def halt (held : List UInt8) (code : Int) : Ending where
  code := (WholeKind.integer.wrap code % 256).toNat
  output := held
  errors := []

/-- Ends with a code and says so on standard error, unless the code is zero. -/
def runError (held : List UInt8) (code : Int) : Ending :=
  let number := WholeKind.integer.wrap code
  let errors :=
    if number = 0 then []
    else "Runtime error ".toList ++ Digits.signedDecimal number ++ ['\n']
  { halt held code with errors }

/-- Ends with code 3. -/
def abort (held : List UInt8) : Ending := halt held 3

end Ending

end SystemUnit
