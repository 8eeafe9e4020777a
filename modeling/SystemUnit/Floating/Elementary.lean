import SystemUnit.Floating.Arithmetic

namespace SystemUnit

/-!
# Elementary functions

Roots, logarithms, trigonometric and hyperbolic functions of floating-point numbers, computed in double
precision.  The inverse hyperbolic tangent goes through `log1p`, which keeps the digits of a small argument.
-/

/-- The logarithm of `1 + x`, accurate for a small `x`: what rounding took from `1 + x` is made good by a
    factor. -/
def log1p (x : Float) : Float :=
  let u := 1 + x
  if u == 1 || u == 1 / 0 then x else u.log * (x / (u - 1))

namespace Floating

variable {k : FloatingKind}

/-- The square root. -/
def sqrt (a : Floating k) : Floating k :=
  a.map Float.sqrt

/-- The greatest integral number that is not greater. -/
def floor (a : Floating k) : Floating k :=
  a.map Float.floor

/-- The least integral number that is not less. -/
def ceil (a : Floating k) : Floating k :=
  a.map Float.ceil

/-- What is above the floor. -/
def fraction (a : Floating k) : Floating k :=
  a.map fun x => x - x.floor

/-- The ratio of a circle's circumference to its diameter. -/
def pi : Floating .double :=
  ofDecimal .double false 3141592653589793238462643383279 (-30)

def sin (a : Floating k) : Floating k :=
  a.map Float.sin

def cos (a : Floating k) : Floating k :=
  a.map Float.cos

def tan (a : Floating k) : Floating k :=
  a.map Float.tan

def arcSin (a : Floating k) : Floating k :=
  a.map Float.asin

def arcCos (a : Floating k) : Floating k :=
  a.map Float.acos

def arcTan (a : Floating k) : Floating k :=
  a.map Float.atan

def sinh (a : Floating k) : Floating k :=
  a.map Float.sinh

def cosh (a : Floating k) : Floating k :=
  a.map Float.cosh

def tanh (a : Floating k) : Floating k :=
  a.map Float.tanh

/-- The inverse hyperbolic sine. -/
def arcSinh (a : Floating k) : Floating k :=
  a.map Float.asinh

/-- The inverse hyperbolic cosine; not a number below one. -/
def arcCosh (a : Floating k) : Floating k :=
  a.map Float.acosh

/-- The inverse hyperbolic tangent. -/
def arcTanh (a : Floating k) : Floating k :=
  a.map fun x => 0.5 * log1p (2 * x / (1 - x))

/-- The natural logarithm. -/
def ln (a : Floating k) : Floating k :=
  a.map Float.log

def exp (a : Floating k) : Floating k :=
  a.map Float.exp

def log10 (a : Floating k) : Floating k :=
  a.map Float.log10

def log2 (a : Floating k) : Floating k :=
  a.map Float.log2

/-- A power. -/
def power (base exponent : Floating k) : Floating k :=
  map₂ Float.pow base exponent

/-- The angle of the point `(x, y)`. -/
def arcTan2 (y x : Floating k) : Floating k :=
  map₂ Float.atan2 y x

/-- The logarithm to a given base. -/
def logN (base value : Floating k) : Floating k :=
  map₂ (fun b v => v.log / b.log) base value

end Floating

end SystemUnit
