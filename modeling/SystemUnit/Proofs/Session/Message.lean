import SystemUnit.Proofs.Session.Memory
import SystemUnit.Proofs.File.Operation

namespace SystemUnit

/-!
# The message of the last fault

Every fault that an operation gives has left its message as the last one, and nothing else touches the last message.

* `Call`, `Call.act` — the operations that may fail, those that swallow a failure, and the operations on a text file;
* `Call.program` — each of them step by step, with its faults as they are raised;
* `Call.exec_program` — both give the same result and leave the same machine;
* `Machine.after`, `Machine.faults` — the machine after a run, and the faults of a run;
* `message_mirrors_faults` — the last message, after every call of a run.
-/

/-- The operations that may fail, those that answer a default, a truth value or a position instead, and the operations
    on a text file, each with the type of its result. -/
inductive Call : Type → Type 1 where
  | raise (kind : FaultKind) (message : Text) : Call Unit
  | div {k : WholeKind} (a b : Whole k) : Call (Whole k)
  | mod {k : WholeKind} (a b : Whole k) : Call (Whole k)
  | trunc {k : FloatingKind} (target : WholeKind) (x : Floating k) : Call (Whole target)
  | round {k : FloatingKind} (target : WholeKind) (x : Floating k) : Call (Whole target)
  | single (c : Char) : Call CodeUnit
  | strict {α : Type} (r : Reading α) (s : Text) : Call α
  | orElse {α : Type} (r : Reading α) (s : Text) (default : α) : Call α
  | into {α : Type} (r : Reading α) (s : Text) (old : α) : Call (Bool × α)
  | valInt (s : Text) : Call (Whole .integer × Whole .integer)
  | valReal (s : Text) : Call (Floating .double × Whole .integer)
  | format (pattern : Text) (args : List Argument) : Call Text
  | memory (call : Arena.Call) : Call (Option Pointer)
  | bytes (p : Pointer) (count : Int) : Call (List UInt8)
  | compareMem (p q : Pointer) (count : Int) : Call Int
  | readByte (p : Pointer) : Call UInt8
  | blockSize (p : Pointer) : Call (Option Nat)
  | liveBlocks : Call Nat
  | file (op : TextFile.Operation) : Call TextFile.Answer

namespace Machine

variable {α : Type}

/-- The outcome of an operation that may fail, in the shared state. -/
def outcome (result : Except Fault α) : StateM Machine (Except Fault α) := do
  let m ← get
  let (result, session) := (Session.outcome result).run m.session
  set { m with session }
  return result

/-- Performs an operation on the text file. -/
def operate (op : TextFile.Operation) : StateM Machine TextFile.Answer := do
  let m ← get
  let ((answer, file), session) := (Session.file (op.act.run m.file)).run m.session
  set { m with session, file }
  return answer

/-- What an operation gives is settled when it is over. -/
theorem outcome_run (result : Except Fault α) (m : Machine) : (outcome result).run m = m.settle result := by
  cases result <;> rfl

end Machine

namespace Call

open Machine

variable {α : Type}

/-- Performs an operation. -/
def act : Call α → StateM Machine (Except Fault α)
  | raise kind message => outcome (.error (.raised kind message))
  | div a b => outcome (a.div b)
  | mod a b => outcome (a.mod b)
  | trunc target x => outcome (x.trunc target)
  | round target x => outcome (x.round target)
  | single c => outcome (CodeUnit.ofSingle c)
  | strict r s => outcome (r.strict s)
  | orElse r s default => return .ok (r.orElse s default)
  | into r s old => return .ok (r.into s old)
  | valInt s => return .ok (SystemUnit.valInt s)
  | valReal s => return .ok (SystemUnit.valReal s)
  | format pattern args => outcome (SystemUnit.format pattern args)
  | memory call => do
    let (answer, arena) := (← get).arena.perform call
    modify fun m => { m with arena }
    outcome answer
  | bytes p count => do outcome ((← get).arena.bytes p count)
  | compareMem p q count => do outcome ((← get).arena.compareMem p q count)
  | readByte p => do outcome ((← get).arena.readByte p)
  | blockSize p => return .ok ((← get).arena.blockSize? p)
  | liveBlocks => return .ok (← get).arena.liveBlocks
  | file op => return .ok (← operate op)

/-- Performs an operation step by step, with each fault raised where it comes up. -/
def program : Call α → RaiseM α
  | raise kind message => RaiseM.raise (.raised kind message)
  | div a b => RaiseM.divide Whole.quotient a b
  | mod a b => RaiseM.divide Whole.remainder a b
  | trunc target x => RaiseM.fit target x.truncate?
  | round target x => RaiseM.fit target x.roundAway?
  | single c => RaiseM.single c
  | strict r s => RaiseM.strict r s
  | orElse r s default => return (r.read? s).getD default
  | into r s old => return ((r.read? s).isSome, (r.read? s).getD old)
  | valInt s => return SystemUnit.valInt s
  | valReal s => return SystemUnit.valReal s
  | format pattern args => RaiseM.format pattern args
  | memory call => RaiseM.call call
  | bytes p count => RaiseM.bytes p count
  | compareMem p q count => RaiseM.compareMem p q count
  | readByte p => RaiseM.readByte p
  | blockSize p => return (← RaiseM.memory).blockSize? p
  | liveBlocks => return (← RaiseM.memory).liveBlocks
  | file op => liftM (operate op)

variable {m : Machine}

/-- **Raising faults step by step gives the same result and leaves the same machine**: no fault is raised and then
    swallowed, and none is given that was not raised last. -/
theorem exec_program (layout : m.arena.Layout) (call : Call α) : call.program.exec m = call.act.run m := by
  have settled {β : Type} {program : RaiseM β} {result : Except Fault β} (h : program.Settles m result) :
      program.exec m = (outcome result).run m :=
    h.trans (outcome_run result m).symm
  -- what can fail settles its result, or gives it and leaves an arena; the others raise nothing
  cases call with
  | raise kind message => exact settled (RaiseM.settles_raise _)
  | div a b => exact settled (RaiseM.settles_divide Whole.quotient a b)
  | mod a b => exact settled (RaiseM.settles_divide Whole.remainder a b)
  | trunc target x => exact settled (RaiseM.settles_fit target x.truncate?)
  | round target x => exact settled (RaiseM.settles_fit target x.roundAway?)
  | single c => exact settled (RaiseM.settles_single c)
  | strict r s => exact settled (RaiseM.settles_strict r s)
  | format pattern args => exact settled (RaiseM.settles_format pattern args)
  | memory call => exact (RaiseM.gives_call layout call).trans (outcome_run _ _).symm
  | bytes p count => exact settled (RaiseM.settles_bytes layout p count)
  | compareMem p q count => exact settled (RaiseM.settles_compareMem layout p q count)
  | readByte p => exact settled (RaiseM.settles_readByte layout p)
  | orElse r s default | into r s old | valInt s | valReal s | blockSize p | liveBlocks | file op => rfl

/-- What a call gives and leaves: with a fault its message as the last one, and else the last message as it was. -/
def Mirrors (m : Machine) (given : Except Fault α × Machine) : Prop :=
  match given with
  | (.ok _, m') => m'.session.message = m.session.message
  | (.error fault, m') => m'.session.message = fault.message

theorem mirrors_settle {m' : Machine} (same : m'.session.message = m.session.message) (result : Except Fault α) :
    Mirrors m (m'.settle result) := by
  cases result with
  | ok a => exact same
  | error fault => rfl

theorem mirrors_outcome (result : Except Fault α) : Mirrors m ((outcome result).run m) := by
  rw [outcome_run]
  exact mirrors_settle rfl result

/-- **The message mirrors the outcome of every call**: that of its fault, or the one of before. -/
theorem mirrors_act (call : Call α) (m : Machine) : Mirrors m (call.act.run m) := by
  cases call with
  | raise kind message => exact mirrors_outcome (.error (.raised kind message))
  | div _ _ | mod _ _ | trunc _ _ | round _ _ | single _ | strict _ _ | format _ _ | bytes _ _ | compareMem _ _ _
  | readByte _ => exact mirrors_outcome _
  | memory call =>
    show Mirrors m ((outcome (m.arena.perform call).1).run { m with arena := (m.arena.perform call).2 })
    rw [outcome_run]
    exact mirrors_settle rfl _
  -- these raise nothing, and tell a failure by their value or by a code
  | orElse _ _ _ | into _ _ _ | valInt _ | valReal _ | blockSize _ | liveBlocks | file _ => rfl

theorem arena_settle (m : Machine) (result : Except Fault α) : (m.settle result).2.arena = m.arena := by
  cases result <;> rfl

/-- Every call keeps the layout of the arena. -/
theorem layout_act (layout : m.arena.Layout) (call : Call α) : (call.act.run m).2.arena.Layout := by
  have same (result : Except Fault α) : ((outcome result).run m).2.arena.Layout := by
    rw [outcome_run, arena_settle]
    exact layout
  cases call with
  | raise _ _ | div _ _ | mod _ _ | trunc _ _ | round _ _ | single _ | strict _ _ | format _ _ | bytes _ _
  | compareMem _ _ _ | readByte _ => exact same _
  | memory call =>
    show ((outcome (m.arena.perform call).1).run { m with arena := (m.arena.perform call).2 }).2.arena.Layout
    rw [outcome_run, arena_settle]
    exact layout.perform call
  | orElse _ _ _ | into _ _ _ | valInt _ | valReal _ | blockSize _ | liveBlocks | file _ => exact layout

end Call

namespace Machine

/-- The machine after calls one after another. -/
def after (m : Machine) : List (Σ α, Call α) → Machine
  | [] => m
  | ⟨_, call⟩ :: run => (call.act.run m).2.after run

/-- The faults that calls give one after another. -/
def faults (m : Machine) : List (Σ α, Call α) → List Fault
  | [] => []
  | ⟨_, call⟩ :: run =>
    match call.act.run m with
    | (.ok _, m') => m'.faults run
    | (.error fault, m') => fault :: m'.faults run

theorem layout_after {m : Machine} (layout : m.arena.Layout) (run : List (Σ α, Call α)) :
    (m.after run).arena.Layout := by
  induction run generalizing m with
  | nil => exact layout
  | cons call run ih => exact ih (call.2.layout_act layout)

/-- The last message after a run is that of its last fault. -/
theorem message_after (m : Machine) (run : List (Σ α, Call α)) :
    (m.after run).session.message = (m.faults run).getLast?.elim m.session.message Fault.message := by
  induction run generalizing m with
  | nil => rfl
  | cons call run ih =>
    have step := call.2.mirrors_act m
    have rest := ih (call.2.act.run m).2
    unfold after faults
    rw [rest]
    generalize call.2.act.run m = given at step
    obtain ⟨fault | a, m'⟩ := given
    · -- the fault is the last one unless another follows
      have last : m'.session.message = fault.message := step
      rw [List.getLast?_cons, last]
      cases (m'.faults run).getLast? <;> rfl
    · have kept : m'.session.message = m.session.message := step
      rw [kept]

end Machine

/-- **The last message mirrors the faults.**  At every moment of a run that starts without blocks, each call does step
    by step, with its faults raised where they come up, what it does as a whole; after it the last message is that of
    the fault that it gives, or what it was before the call if it gives none.  So the last message is that of the last
    fault of the run. -/
theorem message_mirrors_faults (session : Session) (file : TextFile) (run : List (Σ α, Call α)) :
    let start : Machine := { session, arena := .empty, file }
    let m := start.after run
    (∀ (α : Type) (call : Call α), call.program.exec m = call.act.run m ∧
      match call.act.run m with
      | (.ok _, m') => m'.session.message = m.session.message
      | (.error fault, m') => m'.session.message = fault.message) ∧
    m.session.message = (start.faults run).getLast?.elim session.message Fault.message := by
  intro start m
  -- the steps of an access look a block up again, for which it has to lie where the layout has it
  have layout : m.arena.Layout := Machine.layout_after Arena.Layout.empty run
  refine ⟨fun α call => ⟨call.exec_program layout, call.mirrors_act m⟩, Machine.message_after start run⟩

end SystemUnit
