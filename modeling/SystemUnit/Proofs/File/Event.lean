import SystemUnit.Proofs.File.Perform

namespace SystemUnit

/-!
# What happens to a handle

While a handle is in use, other handles are too, and what all of them share changes between two operations on it.

* `Need` — what an operation needs of the handle that it is for;
* `Event`, `Event.act` — an operation on a handle, or anything else that changes what all handles share;
* `after_invariant` — what every operation keeps of a handle is kept by all that happens.
-/

/-- What an operation needs of its handle: a name, an open file, or one that may be read or written. -/
inductive Need where
  | nothing
  | name
  | opened
  | reading
  | writing
  deriving DecidableEq

/-- What may happen while a handle is in use. -/
inductive Event (Operation : Type) where
  | operation (op : Operation)
  | elsewhere (change : FileContext → FileContext)

namespace Event

variable {σ α Operation : Type}

/-- What an event does; only an operation has an answer. -/
def act (perform : Operation → StateT σ FileM α) : Event Operation → StateT σ FileM (Option α)
  | operation op => some <$> perform op
  | elsewhere change => do
    liftM (modify change : FileM Unit)
    return none

/-- Whether an event is an operation of a kind. -/
def isOperation (kind : Operation → Bool) : Event Operation → Bool
  | operation op => kind op
  | elsewhere _ => false

variable {run : Operation → StateT σ FileM α}

open FileM

/-- **What every operation keeps of a handle is kept by all that happens.** -/
theorem after_invariant {P : σ → Prop} (keeps : ∀ op f c, P f → P (perform (run op) (f, c)).2.1)
    (events : List (Event Operation)) {s : σ × FileContext} (holds : P s.1) :
    P (after s (events.map (act run))).1 := by
  induction events generalizing s with
  | nil => exact holds
  | cons event events ih =>
    apply ih
    cases event with
    | operation op => exact keeps op s.1 s.2 holds
    | elsewhere change => exact holds

/-- What only operations of a kind bring about has come about if it was there before or one of them has happened. -/
theorem after_isOperation {kind : Operation → Bool} {p : σ → Bool}
    (step : ∀ op f c, p (perform (run op) (f, c)).2.1 = (p f || kind op)) (events : List (Event Operation))
    (s : σ × FileContext) :
    p (after s (events.map (act run))).1 = (p s.1 || events.any (isOperation kind)) := by
  induction events generalizing s with
  | nil => exact (Bool.or_false _).symm
  | cons event events ih =>
    rw [List.any_cons, ← Bool.or_assoc]
    refine (ih _).trans ?_
    cases event with
    | operation op => exact congrArg (· || _) (step op s.1 s.2)
    | elsewhere change => exact congrArg (· || _) (Bool.or_false _).symm

end Event

end SystemUnit
