import SystemUnit.File.Writer

namespace SystemUnit

/-!
# Operations performed

An operation on a handle works on the handle and on what all file operations share, and gives an answer.

* `FileM.perform` — an operation performed: its answer, the handle and the context after it;
* `FileM.after`, `FileM.trace` — operations one after another: what they leave, and each answer with the code
  that is left behind it;
* `Volume.codeOf` — the code of what the host answers;
* `perform_bind`, `perform_report`, `perform_attempt` — what the parts of an operation do.
-/

/-- The code of what the host answers to an operation on a path. -/
def Volume.codeOf {α : Type} (v : Volume) (outcome : Except HostError α) (path : Option (List Char)) : IoCode :=
  match outcome with
  | .ok _ => .success
  | .error e => e.toCode v path

/-- What the host refuses is no success. -/
theorem HostError.toCode_ne_success (e : HostError) (v : Volume) (path : Option (List Char)) :
    e.toCode v path ≠ .success := by
  cases e with
  | notFound =>
    simp only [toCode]
    split <;> simp
  | denied | full | tooManyOpen | other => simp [toCode]

/-- What an operation on a writer answers, and what it makes of the writer and of the volume. -/
def Writer.effect (w : Writer) (v : Volume) (operation : WriterM Unit) :
    Except HostError Unit × Writer × Volume :=
  operation.run.run (w, v)

namespace FileM

variable {σ α β : Type}

/-- Performs an operation on a handle and a context: the answer, and what both have become. -/
def perform (operation : StateT σ FileM α) (s : σ × FileContext) : α × σ × FileContext :=
  let ((answer, f), c) := (operation.run s.1).run s.2
  (answer, f, c)

/-- The handle and the context after operations one after another. -/
def after (s : σ × FileContext) : List (StateT σ FileM α) → σ × FileContext
  | [] => s
  | operation :: rest => after (perform operation s).2 rest

/-- Operations one after another: the answer of each, and the code behind it. -/
def trace (s : σ × FileContext) : List (StateT σ FileM α) → List (α × IoCode)
  | [] => []
  | operation :: rest =>
    ((perform operation s).1, (perform operation s).2.2.result) :: trace (perform operation s).2 rest

variable (s : σ × FileContext)

/-- What operations leave that come after others is what all of them leave. -/
theorem after_append (x y : List (StateT σ FileM α)) : after s (x ++ y) = after (after s x) y := by
  induction x generalizing s with
  | nil => rfl
  | cons operation x ih => exact ih (perform operation s).2

/-- Operations after others answer as they do where the others have left off. -/
theorem trace_append (x y : List (StateT σ FileM α)) :
    trace s (x ++ y) = trace s x ++ trace (after s x) y := by
  induction x generalizing s with
  | nil => rfl
  | cons operation x ih => exact congrArg (_ :: ·) (ih (perform operation s).2)

/-! ### Parts of operations -/

-- each of these holds by definition; in parentheses, so that `simp` uses them inside of a condition as well

@[simp] theorem perform_pure (a : α) : perform (pure a) s = (a, s) := (rfl)

@[simp] theorem perform_bind (m : StateT σ FileM α) (k : α → StateT σ FileM β) :
    perform (m >>= k) s = perform (k (perform m s).1) (perform m s).2 := (rfl)

@[simp] theorem perform_map (g : α → β) (m : StateT σ FileM α) :
    perform (g <$> m) s = (g (perform m s).1, (perform m s).2) := (rfl)

@[simp] theorem perform_get : perform (get : StateT σ FileM σ) s = (s.1, s) := (rfl)

@[simp] theorem perform_set (f : σ) : perform (set f : StateT σ FileM PUnit) s = (⟨⟩, f, s.2) := (rfl)

@[simp] theorem perform_modify (g : σ → σ) :
    perform (modify g : StateT σ FileM PUnit) s = (⟨⟩, g s.1, s.2) := (rfl)

@[simp] theorem perform_setCode (code : IoCode) :
    perform (liftM (setCode code) : StateT σ FileM Unit) s = ((), s.1, { s.2 with result := code }) := (rfl)

@[simp] theorem perform_volume : perform (liftM volume : StateT σ FileM Volume) s = (s.2.volume, s) := (rfl)

@[simp] theorem perform_setVolume (v : Volume) :
    perform (liftM (setVolume v) : StateT σ FileM Unit) s = ((), s.1, { s.2 with volume := v }) := (rfl)

@[simp] theorem perform_fail (e : HostError) (path : Option (List Char)) :
    perform (liftM (fail e path) : StateT σ FileM Unit) s =
      ((), s.1, { s.2 with result := e.toCode s.2.volume path }) := (rfl)

/-- A report leaves the code of what the host answered. -/
@[simp] theorem perform_report (outcome : Except HostError α) (path : Option (List Char)) :
    perform (liftM (report outcome path) : StateT σ FileM (Option α)) s =
      (outcome.toOption, s.1, { s.2 with result := s.2.volume.codeOf outcome path }) := by
  cases outcome <;> rfl

/-- An attempt leaves success and another volume, or the code of the refusal and the volume as it was. -/
theorem perform_attempt (operation : Volume → Except HostError Volume) (path : Option (List Char)) :
    perform (liftM (attempt operation path) : StateT σ FileM Bool) s =
      match operation s.2.volume with
      | .ok v => (true, s.1, { s.2 with volume := v, result := .success })
      | .error e => (false, s.1, { s.2 with result := e.toCode s.2.volume path }) := by
  -- the attempt looks at the volume first, and goes on as the operation answers there
  change perform (liftM (match operation s.2.volume with
    | .ok v => do setVolume v; setCode .success; return true
    | .error e => do fail e path; return false : FileM Bool)) s = _
  cases operation s.2.volume <;> rfl

/-- An attempt leaves the code of what the host answers, if nothing that follows leaves another. -/
theorem result_attempt (operation : Volume → Except HostError Volume)
    (path : Option (List Char)) (next : Bool → StateT σ FileM β)
    (h : ∀ b s, (perform (next b) s).2.2.result = s.2.result) :
    (perform (liftM (attempt operation path) >>= next) s).2.2.result =
      s.2.volume.codeOf (operation s.2.volume) path := by
  rw [perform_bind, h, perform_attempt]
  cases operation s.2.volume <;> rfl

/-- What an operation on a writer answers, and what it makes of the writer and of the volume. -/
@[simp] theorem perform_writer (w : Writer) (operation : WriterM Unit) :
    perform (liftM (w.perform operation) : StateT σ FileM (Except HostError Unit × Writer)) s =
      (((w.effect s.2.volume operation).1, (w.effect s.2.volume operation).2.1), s.1,
        { s.2 with volume := (w.effect s.2.volume operation).2.2 }) := (rfl)

@[simp] theorem perform_ite {p : Prop} [Decidable p] (m n : StateT σ FileM α) :
    perform (if p then m else n) s = if p then perform m s else perform n s := by
  split <;> rfl

end FileM

end SystemUnit
