import SystemUnit.Volume.Basic

namespace SystemUnit

/-!
# Codes of file operations

A file operation has no fault: it leaves a code.  Main definitions:

* `IoCode` — the codes;
* `HostError.toCode` — the code of an error of the host;
* `FileMode` — what a binary file is opened for.
-/

/-- The outcome of a file operation. -/
inductive IoCode where
  | success
  | fileNotFound
  | pathNotFound
  | tooManyOpenFiles
  | accessDenied
  | invalidHandle
  | invalidAccessMode
  | diskFull
  | ioError
  | fileNotOpen
  deriving DecidableEq

namespace IoCode

/-- The number of a code. -/
def toInt : IoCode → Int
  | success => 0
  | fileNotFound => 2
  | pathNotFound => 3
  | tooManyOpenFiles => 4
  | accessDenied => 5
  | invalidHandle => 6
  | invalidAccessMode => 12
  | diskFull => 101
  | ioError => 103
  | fileNotOpen => 104

/-- The code of a number. -/
def ofInt? : Int → Option IoCode
  | 0 => some success
  | 2 => some fileNotFound
  | 3 => some pathNotFound
  | 4 => some tooManyOpenFiles
  | 5 => some accessDenied
  | 6 => some invalidHandle
  | 12 => some invalidAccessMode
  | 101 => some diskFull
  | 103 => some ioError
  | 104 => some fileNotOpen
  | _ => none

def isSuccess (c : IoCode) : Bool := c = success

@[simp] theorem ofInt?_toInt (c : IoCode) : ofInt? c.toInt = some c := by
  cases c <;> rfl

end IoCode

/-- Whether the directory of a path is missing; it is not if the path names no directory. -/
def Volume.isParentMissing (v : Volume) (path : List Char) : Bool :=
  match Path.parent? path with
  | some parent =>
    !parent.isEmpty &&
      (match v.resolve parent with
        | .ok id => !v.isDirectory id
        | .error _ => true)
  | none => false

/-- The code of an error; with a path, what is not found is the path if its directory is missing too. -/
def HostError.toCode (v : Volume) (path : Option (List Char)) : HostError → IoCode
  | notFound => if path.any v.isParentMissing then .pathNotFound else .fileNotFound
  | denied => .accessDenied
  | full => .diskFull
  | tooManyOpen => .tooManyOpenFiles
  | other => .ioError

/-- What a binary file is opened for. -/
inductive FileMode where
  | readOnly
  | writeOnly
  | readWrite
  deriving DecidableEq

namespace FileMode

/-- The number of a mode. -/
def toInt : FileMode → Int
  | readOnly => 0
  | writeOnly => 1
  | readWrite => 2

/-- The mode of a number; every other number is the mode for both. -/
def ofInt : Int → FileMode
  | 0 => readOnly
  | 1 => writeOnly
  | _ => readWrite

def canRead : FileMode → Bool
  | readOnly | readWrite => true
  | writeOnly => false

def canWrite : FileMode → Bool
  | writeOnly | readWrite => true
  | readOnly => false

end FileMode

end SystemUnit
