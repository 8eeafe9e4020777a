import SystemUnit.Whole.Basic

namespace SystemUnit

/-!
# Loops

Both bounds of a counting loop are known before it starts, and the counter never goes past the last one, so
that a loop may end at the greatest integer.  A body may leave its loop.  Main definitions:

* `Loop.upTo`, `Loop.downTo` — counting loops;
* `Loop.repeatUntil` — a loop whose condition is looked at after the body.
-/

namespace Loop

variable {σ : Type}

/-- What a body asks for. -/
inductive Step where
  | again
  | leave
  deriving DecidableEq

/-- Runs the body for `count` values, each `step` after the one before. -/
def counted (body : Int → StateM σ Step) (step : Int) : Nat → Int → StateM σ Unit
  | 0, _ => pure ()
  | count + 1, value => do
    match ← body value with
    | .leave => pure ()
    | .again => counted body step count (value + step)

/-- Runs the body for every integer from `start` up to `finish`. -/
def upTo (start finish : Whole .integer) (body : Int → StateM σ Step) : StateM σ Unit :=
  counted body 1 (finish.toInt - start.toInt + 1).toNat start.toInt

/-- Runs the body for every integer from `start` down to `finish`. -/
def downTo (start finish : Whole .integer) (body : Int → StateM σ Step) : StateM σ Unit :=
  counted body (-1) (start.toInt - finish.toInt + 1).toNat start.toInt

/-- Runs the body until the condition holds after it, at most `limit` times. -/
def repeatUntil (body : StateM σ Step) (condition : StateM σ Bool) : Nat → StateM σ Unit
  | 0 => pure ()
  | limit + 1 => do
    match ← body with
    | .leave => pure ()
    | .again => if ← condition then pure () else repeatUntil body condition limit

end Loop

end SystemUnit
