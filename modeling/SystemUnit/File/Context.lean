import SystemUnit.File.IoCode

namespace SystemUnit

/-!
# What file operations work on

Main definitions:

* `FileContext` — the code of the last operation, the file mode and the volume;
* `FileM` — a file operation;
* `report`, `attempt` — an operation of the host, whose outcome becomes the code.
-/

/-- The code of the last file operation, the mode in which binary files are opened, and the volume. -/
structure FileContext where
  result : IoCode := .success
  mode : FileMode := .readWrite
  volume : Volume := .initial

instance : Inhabited FileContext := ⟨{ }⟩

/-- A file operation. -/
abbrev FileM := StateM FileContext

namespace FileM

/-- Leaves a code. -/
def setCode (code : IoCode) : FileM Unit := modify fun s => { s with result := code }

/-- The code that was left, which is success from then on. -/
def takeCode : FileM IoCode := do
  let code := (← get).result
  setCode .success
  return code

/-- The volume. -/
def volume : FileM Volume := return (← get).volume

/-- Puts another volume in place. -/
def setVolume (volume : Volume) : FileM Unit := modify fun s => { s with volume }

/-- The mode in which binary files are opened. -/
def mode : FileM FileMode := return (← get).mode

/-- Sets the mode in which binary files are opened. -/
def setMode (mode : FileMode) : FileM Unit := modify fun s => { s with mode }

/-- The code of an error on the volume. -/
def codeOf (error : HostError) (path : Option (List Char)) : FileM IoCode :=
  return error.toCode (← volume) path

/-- Leaves the code of an error. -/
def fail (error : HostError) (path : Option (List Char)) : FileM Unit := do
  setCode (← codeOf error path)

/-- Leaves the code of an outcome, and hands on its value. -/
def report {α : Type} (outcome : Except HostError α) (path : Option (List Char)) : FileM (Option α) := do
  match outcome with
  | .ok value =>
    setCode .success
    return some value
  | .error e =>
    fail e path
    return none

/-- An operation on the volume, which stays as it is if the operation fails, and leaves a code. -/
def attempt (operation : Volume → Except HostError Volume) (path : Option (List Char)) : FileM Bool := do
  match operation (← volume) with
  | .ok v =>
    setVolume v
    setCode .success
    return true
  | .error e =>
    fail e path
    return false

end FileM

end SystemUnit
