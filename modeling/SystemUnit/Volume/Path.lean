import SystemUnit.Utf8

namespace SystemUnit

/-!
# Paths

A path is a sequence of names between slashes.  It starts at the root if it starts with a slash, else at the
current directory; a slash at the end asks for a directory.  Main definitions:

* `Path`, `Path.ofChars` — a path as names;
* `Path.parent?` — the directory that a path names its last entry in.
-/

/-- A path as names. -/
structure Path where
  isAbsolute : Bool
  names : List (List Char)
  asDirectory : Bool
  deriving DecidableEq

namespace Path

/-- The pieces of a text between slashes. -/
def split : List Char → List (List Char)
  | [] => [[]]
  | c :: rest =>
    if c = '/' then [] :: split rest
    else
      match split rest with
      | name :: names => (c :: name) :: names
      | [] => [[c]]

/-- The name of a directory in itself. -/
def here : List Char := ['.']

/-- The name of the directory above. -/
def above : List Char := ['.', '.']

/-- The path of a text. -/
def ofChars (text : List Char) : Path where
  isAbsolute := text.head? == some '/'
  names := (split text).filter (!·.isEmpty)
  asDirectory := text.getLast? == some '/'

/-- The greatest number of bytes of a name. -/
def greatestName : Nat := 255

/-- The greatest number of bytes of a path. -/
def greatestPath : Nat := 4095

/-- Whether a text has a zero in it, with which the host would take it to end. -/
def hasZero (text : List Char) : Bool := text.contains '\x00'

/-- Whether a name is too long for an entry of a directory. -/
def isTooLong (name : List Char) : Bool := greatestName < (Utf8.encode name).length

/-- Whether a text may be a path at all: it has no zero in it and is not too long. -/
def isProper (text : List Char) : Bool :=
  !hasZero text && (Utf8.encode text).length ≤ greatestPath

/-- A path without its last name; none if it has no name, and no text if nothing is left of it.  Names of the
    same directory count only at the start of a path that does not start at the root. -/
def parent? (text : List Char) : Option (List Char) :=
  let p := ofChars text
  let names := match p.names with
    | [] => []
    | name :: rest =>
      (if name = here && p.isAbsolute then [] else [name]) ++ rest.filter (· ≠ here)
  if names.isEmpty then none
  else some ((if p.isAbsolute then ['/'] else []) ++ ['/'].intercalate names.dropLast)

end Path

end SystemUnit
