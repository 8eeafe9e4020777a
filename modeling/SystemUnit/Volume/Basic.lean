import SystemUnit.Volume.Path

namespace SystemUnit

/-!
# Volumes

A volume is a tree of directories with files in it, a current directory, and two devices: one that takes
everything and one that is always full.  Nodes are numbered, so that an open file stays what it is when its
name goes.  Main definitions:

* `HostError` — why the host refuses an operation;
* `Volume` — the nodes and the current directory;
* `Volume.resolve`, `Volume.place` — the node of a path, and the entry of a directory that a path names;
* `Volume.openFile`, `Volume.readAt`, `Volume.writeAt` — files;
* `Volume.unlink`, `Volume.rename`, `Volume.makeDirectory`, `Volume.removeDirectory` — entries.
-/

/-- Why the host refuses an operation, as far as it makes a difference. -/
inductive HostError where
  | notFound
  | denied
  | full
  | tooManyOpen
  | other
  deriving DecidableEq

/-- The error of a number of the host. -/
def HostError.ofNumber (n : Int) : HostError :=
  if n = 2 then notFound
  else if n = 1 ∨ n = 13 then denied
  else if n = 28 then full
  else if n = 24 then tooManyOpen
  else other

/-- The number of a node. -/
abbrev NodeId := Nat

/-- A file, a directory with its parent and its entries, or a device.  A directory that has been removed is in
    no other directory any more. -/
inductive Node where
  | file (bytes : List UInt8)
  | directory (parent : NodeId) (removed : Bool) (entries : List (List Char × NodeId))
  | sink
  | fullDevice
  deriving DecidableEq

/-- The nodes by their numbers, the current directory, and the greatest size of a file if there is one. -/
structure Volume where
  nodes : List Node
  current : NodeId
  greatestSize : Option Nat := none

namespace Volume

/-- The root directory. -/
def root : NodeId := 0

/-- The directory of the devices. -/
def devices : NodeId := 1

/-- The directory in which a volume starts. -/
def home : NodeId := 2

/-- The path of the directory in which a volume starts. -/
def homePath : List Char := "/home".toList

/-- A volume with an empty current directory. -/
def initial : Volume where
  nodes := [
    .directory root false [("dev".toList, devices), ("home".toList, home)],
    .directory root false [("null".toList, 3), ("full".toList, 4)],
    .directory root false [],
    .sink,
    .fullDevice]
  current := home

instance : Inhabited Volume := ⟨initial⟩

/-- The node of a number. -/
def node? (v : Volume) (id : NodeId) : Option Node := v.nodes[id]?

/-- The volume with another node in place of one. -/
def set (v : Volume) (id : NodeId) (node : Node) : Volume := { v with nodes := v.nodes.set id node }

/-- The volume with one more node, and its number. -/
def add (v : Volume) (node : Node) : NodeId × Volume :=
  (v.nodes.length, { v with nodes := v.nodes ++ [node] })

def isDirectory (v : Volume) (id : NodeId) : Bool :=
  match v.node? id with
  | some (.directory _ _ _) => true
  | _ => false

def isFile (v : Volume) (id : NodeId) : Bool :=
  match v.node? id with
  | some (.file _) => true
  | _ => false

/-- The entries of a directory. -/
def entries (v : Volume) (id : NodeId) : List (List Char × NodeId) :=
  match v.node? id with
  | some (.directory _ _ entries) => entries
  | _ => []

/-! ### Paths -/

/-- The node of an entry of a directory, if there is one.  A directory that has been removed has no entries
    and takes none. -/
def entry? (v : Volume) (directory : NodeId) (name : List Char) : Except HostError (Option NodeId) :=
  match v.node? directory with
  | some (.directory _ removed entries) =>
    if removed then .error .notFound
    else if Path.isTooLong name then .error .other
    else .ok (entries.lookup name)
  | _ => .error .other

/-- The node of a name in a directory. -/
def lookup (v : Volume) (directory : NodeId) (name : List Char) : Except HostError NodeId :=
  match v.node? directory with
  | some (.directory parent _ _) =>
    if name = Path.here then .ok directory
    else if name = Path.above then .ok parent
    else do
      match ← v.entry? directory name with
      | some id => return id
      | none => throw .notFound
  | _ => .error .other

/-- The node that names lead to, from a directory on. -/
def walk (v : Volume) (start : NodeId) (names : List (List Char)) : Except HostError NodeId :=
  names.foldlM v.lookup start

/-- The node at which a path starts. -/
def origin (v : Volume) (p : Path) : NodeId := if p.isAbsolute then root else v.current

/-- A text as a path; the empty text names nothing. -/
def parse (text : List Char) : Except HostError Path :=
  if !Path.isProper text then .error .other
  else if text.isEmpty then .error .notFound
  else .ok (Path.ofChars text)

/-- The node of a path. -/
def resolve (v : Volume) (text : List Char) : Except HostError NodeId := do
  let p ← parse text
  let id ← v.walk (v.origin p) p.names
  if p.asDirectory && !v.isDirectory id then throw .other
  return id

/-- An entry that a path names: its directory, its name and whether it has to be a directory.  A path that ends
    in a name of a directory relative to itself names no entry. -/
structure Place where
  directory : NodeId
  name : List Char
  asDirectory : Bool

/-- The entry that a path names in a directory that there is; none for a path whose end names no entry. -/
def place? (v : Volume) (text : List Char) : Except HostError (Option Place) := do
  let p ← parse text
  match p.names.getLast? with
  | none => return none
  | some name =>
    let directory ← v.walk (v.origin p) p.names.dropLast
    if !v.isDirectory directory then throw .other
    if name = Path.here || name = Path.above then return none
    return some ⟨directory, name, p.asDirectory⟩

/-- The entry that a path names. -/
def place (v : Volume) (text : List Char) : Except HostError Place := do
  match ← v.place? text with
  | some p => return p
  | none => throw .other

/-- The node of an entry that a path names, if there is one. -/
def find? (v : Volume) (p : Place) : Except HostError (Option NodeId) := v.entry? p.directory p.name

/-- Puts an entry into a directory, in place of one of the same name. -/
def link (v : Volume) (directory : NodeId) (name : List Char) (id : NodeId) :
    Except HostError Volume :=
  match v.node? directory with
  | some (.directory parent removed entries) =>
    if directory ≤ devices then .error .denied
    else
      .ok (v.set directory
        (.directory parent removed (entries.filter (·.1 ≠ name) ++ [(name, id)])))
  | _ => .error .other

/-- Takes an entry out of a directory. -/
def drop (v : Volume) (directory : NodeId) (name : List Char) : Except HostError Volume :=
  match v.node? directory with
  | some (.directory parent removed entries) =>
    if directory ≤ devices then .error .denied
    else .ok (v.set directory (.directory parent removed (entries.filter (·.1 ≠ name))))
  | _ => .error .other

/-- Marks a directory as removed. -/
def remove (v : Volume) (id : NodeId) : Volume :=
  match v.node? id with
  | some (.directory parent _ entries) => v.set id (.directory parent true entries)
  | _ => v

/-! ### Files -/

/-- How a file is opened. -/
structure OpenMode where
  writes : Bool := false
  creates : Bool := false
  truncates : Bool := false

/-- Opens the file of a path. -/
def openFile (v : Volume) (text : List Char) (mode : OpenMode) : Except HostError (NodeId × Volume) := do
  match ← v.place? text with
  | some p =>
    if mode.creates && p.asDirectory then throw .other
    match ← v.find? p with
    | some id =>
      if v.isDirectory id then
        if mode.writes then throw .other else return (id, v)
      else if p.asDirectory then throw .other
      else if mode.truncates && v.isFile id then return (id, v.set id (.file []))
      else return (id, v)
    | none =>
      if !mode.creates then throw .notFound
      let (id, v) := v.add (.file [])
      let v ← v.link p.directory p.name id
      return (id, v)
  | none =>
    let id ← v.resolve text
    if mode.writes then throw .other else return (id, v)

/-- At most `count` bytes of a node from an offset on.  A full device has zeros without end, and a directory no
    bytes to read. -/
def readAt (v : Volume) (id : NodeId) (offset count : Nat) : Except HostError (List UInt8) :=
  match v.node? id with
  | some (.file bytes) => .ok ((bytes.drop offset).take count)
  | some .sink => .ok []
  | some .fullDevice => .ok (List.replicate count 0)
  | _ => .error .other

/-- All bytes of a node from an offset on; of zeros without end no more than `block`. -/
def readFrom (v : Volume) (id : NodeId) (offset block : Nat) : Except HostError (List UInt8) :=
  match v.node? id with
  | some (.file bytes) => .ok (bytes.drop offset)
  | some .sink => .ok []
  | some .fullDevice => .ok (List.replicate block 0)
  | _ => .error .other

/-- Bytes with others in them from an offset on; zeros fill a gap. -/
def splice (bytes : List UInt8) (offset : Nat) (data : List UInt8) : List UInt8 :=
  bytes.take offset ++ List.replicate (offset - bytes.length) 0 ++ data ++
    bytes.drop (offset + data.length)

/-- Whether a file may have a size. -/
def admits (v : Volume) (size : Nat) : Bool := v.greatestSize.all (size ≤ ·)

/-- Writes bytes to a node from an offset on. -/
def writeAt (v : Volume) (id : NodeId) (offset : Nat) (data : List UInt8) :
    Except HostError Volume :=
  if data.isEmpty then .ok v
  else
    match v.node? id with
    | some (.file bytes) =>
      if v.admits (offset + data.length) then .ok (v.set id (.file (splice bytes offset data)))
      else .error .other
    | some .sink => .ok v
    | some .fullDevice => .error .full
    | _ => .error .other

/-- The number of bytes of a node. -/
def sizeOf (v : Volume) (id : NodeId) : Nat :=
  match v.node? id with
  | some (.file bytes) => bytes.length
  | some (.directory _ _ _) => 4096
  | _ => 0

/-- An offset in a node; in a device there is only the start. -/
def offsetIn (v : Volume) (id : NodeId) (offset : Nat) : Nat :=
  if v.isFile id || v.isDirectory id then offset else 0

/-- The greatest offset in a file or a directory. -/
def greatestOffset : Nat := 0x7FFFFFFFFFFFFFFF

/-- Whether a position may be set to an offset in a node. -/
def mayMoveTo (v : Volume) (id : NodeId) (offset : Nat) : Bool := v.offsetIn id offset ≤ greatestOffset

/-- Cuts a file, or fills it up with zeros. -/
def resize (v : Volume) (id : NodeId) (size : Nat) : Except HostError Volume :=
  match v.node? id with
  | some (.file bytes) =>
    if v.admits size then
      .ok (v.set id (.file (bytes.take size ++ List.replicate (size - bytes.length) 0)))
    else .error .other
  | _ => .error .other

/-! ### Entries -/

/-- Takes the name of a file away. -/
def unlink (v : Volume) (text : List Char) : Except HostError Volume := do
  let p ← v.place text
  match ← v.find? p with
  | none => throw .notFound
  | some id => if v.isDirectory id || p.asDirectory then throw .other else v.drop p.directory p.name

/-- Makes a directory. -/
def makeDirectory (v : Volume) (text : List Char) : Except HostError Volume := do
  let p ← v.place text
  if (← v.find? p).isSome then throw .other
  let (id, v) := v.add (.directory p.directory false [])
  v.link p.directory p.name id

/-- Removes a directory without entries. -/
def removeDirectory (v : Volume) (text : List Char) : Except HostError Volume := do
  let p ← v.place text
  match ← v.find? p with
  | none => throw .notFound
  | some id =>
    if !v.isDirectory id || !(v.entries id).isEmpty then throw .other
    return (← v.drop p.directory p.name).remove id

/-- The directories from one up to the root, itself included. -/
def ancestors (v : Volume) (id : NodeId) : Nat → List NodeId
  | 0 => [id]
  | limit + 1 =>
    match v.node? id with
    | some (.directory parent _ _) =>
      if parent = id then [id] else id :: v.ancestors parent limit
    | _ => [id]

/-- Gives a directory another parent. -/
def reparent (v : Volume) (id parent : NodeId) : Volume :=
  match v.node? id with
  | some (.directory _ removed entries) => v.set id (.directory parent removed entries)
  | _ => v

/-- Gives an entry another name and directory.  A file replaces a file, and a directory a directory without
    entries that does not lie in it; an entry replaces itself without effect.  Both directories have to be
    there before either entry is looked for, and the entry that goes before the one that comes. -/
def rename (v : Volume) (source target : List Char) : Except HostError Volume := do
  if Path.hasZero source || Path.hasZero target then throw .other
  let p? ← v.place? source
  let q? ← v.place? target
  match p?, q? with
  | some p, some q =>
    if (p.directory = devices) ≠ (q.directory = devices) then throw .other
    match ← v.find? p with
    | none => throw .notFound
    | some id =>
      let other? ← v.find? q
      let moves := v.isDirectory id
      if !moves && (p.asDirectory || q.asDirectory) then throw .other
      if moves && (v.ancestors q.directory v.nodes.length).contains id then throw .other
      match other? with
      | some other =>
        if other = id then return v
        if moves != v.isDirectory other || !(v.entries other).isEmpty then throw .other
        let v ← v.drop p.directory p.name
        let v ← v.link q.directory q.name id
        return (v.remove other).reparent id q.directory
      | none =>
        let v ← v.drop p.directory p.name
        let v ← v.link q.directory q.name id
        return v.reparent id q.directory
  | _, _ => throw .other

/-! ### The current directory -/

/-- Makes the directory of a path the current one. -/
def changeDirectory (v : Volume) (text : List Char) : Except HostError Volume := do
  let id ← v.resolve text
  if v.isDirectory id then return { v with current := id } else throw .other

/-- The names on the way from the root to a directory, behind others. -/
def namesTo (v : Volume) (id : NodeId) (names : List (List Char)) : Nat → Option (List (List Char))
  | 0 => none
  | limit + 1 =>
    match v.node? id with
    | some (.directory parent removed _) =>
      if id = root then some names
      else if removed then none
      else
        match (v.entries parent).find? (·.2 == id) with
        | some (name, _) => v.namesTo parent (name :: names) limit
        | none => none
    | _ => none

/-- The path of the current directory. -/
def currentPath (v : Volume) : Except HostError (List Char) :=
  match v.namesTo v.current [] (v.nodes.length + 1) with
  | some names => .ok ('/' :: ['/'].intercalate names)
  | none => .error .notFound

/-! ### A look at the volume -/

/-- The bytes of the file of a path. -/
def contents? (v : Volume) (text : List Char) : Option (List UInt8) :=
  match v.resolve text with
  | .ok id =>
    match v.node? id with
    | some (.file bytes) => some bytes
    | some .sink => some []
    | _ => none
  | .error _ => none

/-- The names in the directory of a path, in order. -/
def names? (v : Volume) (text : List Char) : Option (List (List Char)) :=
  match v.resolve text with
  | .ok id =>
    if v.isDirectory id then
      some (((v.entries id).map Prod.fst).mergeSort fun a b => Ord.compare a b != .gt)
    else none
  | .error _ => none

/-- Writes a file that has these bytes and no others. -/
def put (v : Volume) (text : List Char) (bytes : List UInt8) : Except HostError Volume := do
  let (id, v) ← v.openFile text { writes := true, creates := true, truncates := true }
  v.writeAt id 0 bytes

end Volume

end SystemUnit
