import SystemUnit.Volume.Basic
import SystemUnit.Fault
import Mathlib.Data.List.Basic

namespace SystemUnit

namespace Volume

/-!
# Regular files

An open file is a node that holds bytes.  What is read, written and asked there concerns these bytes alone, and
the path by which the file was opened leads to it whatever they become.

* `readAt_of_file`, `writeAt_of_file`, `resize_of_file` — the operations on a file as operations on its bytes;
* `openFile_cases` — opening a file for output finds the entry of a file, or makes one;
* `node?_of_openFile` — a file that is opened and truncated holds no bytes;
* `Extends` — a volume that has all the entries of another one;
* `openFile_of_opened` — a file that was opened for output is opened for input by the same path.
-/

variable {v v' w : Volume} {id : NodeId} {bytes data : List UInt8} {text : List Char} {mode : OpenMode}

/-! ### Bytes of a file -/

/-- A node that is put in place is found there. -/
theorem node?_set_self {old : Node} (h : v.node? id = some old) (node : Node) :
    (v.set id node).node? id = some node := by
  obtain ⟨lt, -⟩ := List.getElem?_eq_some_iff.mp h
  exact List.getElem?_set_self lt

/-- The other nodes are where they were. -/
theorem node?_set_ne {other : NodeId} (ne : id ≠ other) (node : Node) :
    (v.set id node).node? other = v.node? other :=
  List.getElem?_set_ne ne

/-- A node put in place of itself changes nothing. -/
theorem set_eq_self {node : Node} (h : v.node? id = some node) : v.set id node = v := by
  obtain ⟨lt, rfl⟩ := List.getElem?_eq_some_iff.mp h
  unfold set
  rw [List.set_getElem_self]

/-- Of two nodes put in the same place the later one stays. -/
@[simp] theorem set_set (node node' : Node) : (v.set id node).set id node' = v.set id node' := by
  simp only [set, List.set_set]

variable (file : v.node? id = some (.file bytes))
include file

theorem isFile_of_file : v.isFile id = true := by
  simp [isFile, file]

theorem isDirectory_of_file : v.isDirectory id = false := by
  simp [isDirectory, file]

/-- The size of a file is the number of its bytes. -/
theorem sizeOf_of_file : v.sizeOf id = bytes.length := by
  simp [sizeOf, file]

/-- A file, unlike a device, has offsets. -/
theorem offsetIn_of_file (offset : Nat) : v.offsetIn id offset = offset := by
  simp [offsetIn, isFile_of_file file]

/-- Offsets in a file have a limit, but the size of the file is none. -/
theorem mayMoveTo_of_file (offset : Nat) : v.mayMoveTo id offset = decide (offset ≤ greatestOffset) := by
  rw [mayMoveTo, offsetIn_of_file file offset]

/-- Bytes of a file are read from an offset on, fewer at the end. -/
theorem readAt_of_file (offset count : Nat) : v.readAt id offset count = .ok ((bytes.drop offset).take count) := by
  simp [readAt, file]

/-- So are all bytes from an offset on. -/
theorem readFrom_of_file (offset count : Nat) : v.readFrom id offset count = .ok (bytes.drop offset) := by
  simp [readFrom, file]

/-- On a volume without a limit bytes are written into a file, and beyond its end with zeros before them. -/
theorem writeAt_of_file (offset : Nat) (unlimited : v.greatestSize = none) (some : data ≠ []) :
    v.writeAt id offset data = .ok (v.set id (.file (splice bytes offset data))) := by
  simp [writeAt, file, admits, unlimited, some]

/-- On a volume without a limit a file is cut off, or made longer by zeros. -/
theorem resize_of_file (count : Nat) (unlimited : v.greatestSize = none) :
    v.resize id count =
      .ok (v.set id (.file (bytes.take count ++ List.replicate (count - bytes.length) 0))) := by
  simp [resize, file, admits, unlimited]

omit file

/-- Bytes that are written at the end are put behind the others. -/
theorem splice_length (bytes data : List UInt8) : splice bytes bytes.length data = bytes ++ data := by
  simp [splice]

/-! ### Opening -/

/-- A file is opened for output where its path has an entry that is no directory, or where an entry can be made. -/
theorem openFile_cases (writes : mode.writes = true) (h : v.openFile text mode = .ok (id, v')) :
    ∃ p, v.place? text = .ok (some p) ∧ p.asDirectory = false ∧
      (v.find? p = .ok (some id) ∧ v.isDirectory id = false ∧
          v' = (if mode.truncates && v.isFile id then v.set id (.file []) else v) ∨
        v.find? p = .ok none ∧ id = v.nodes.length ∧
          (v.add (.file [])).2.link p.directory p.name id = .ok v') := by
  unfold openFile at h
  obtain ⟨p?, placed, h⟩ := bind_eq_ok h
  cases p? with
  | none =>
    -- a path whose end names no entry is that of a directory
    obtain ⟨d, -, h⟩ := bind_eq_ok h
    rw [if_pos writes] at h
    cases h
  | some p =>
    refine ⟨p, placed, ?_⟩
    simp only at h
    split at h
    · cases h
    rename_i kind
    obtain ⟨id?, found, h⟩ := bind_eq_ok h
    cases id? with
    | none =>
      simp only [Bool.not_eq_eq_eq_not, Bool.not_true] at h
      split at h
      · cases h
      rename_i creates
      obtain ⟨v₁, linked, h⟩ := bind_eq_ok h
      cases h
      refine ⟨by simpa [creates] using kind, .inr ⟨found, rfl, linked⟩⟩
    | some d =>
      -- what is there is neither a directory nor asked for as one
      simp only at h
      split at h
      · cases h
      rename_i noDirectory
      split at h
      · cases h
      rename_i noSlash
      have same : d = id ∧ v' = if mode.truncates && v.isFile d then v.set d (.file []) else v := by
        split at h
        · rename_i truncates
          cases h
          exact ⟨rfl, (if_pos truncates).symm⟩
        · rename_i keeps
          cases h
          exact ⟨rfl, (if_neg keeps).symm⟩
      obtain ⟨rfl, rfl⟩ := same
      exact ⟨by simpa using noSlash, .inl ⟨found, by simpa using noDirectory, rfl⟩⟩

/-- An entry that is put into a directory leaves the other nodes as they are. -/
theorem link_eq_ok {directory : NodeId} {name : List Char} (h : v.link directory name id = .ok v') :
    ∃ parent removed entries, v.node? directory = some (.directory parent removed entries) ∧
      v' = v.set directory (.directory parent removed (entries.filter (·.1 ≠ name) ++ [(name, id)])) := by
  unfold link at h
  split at h
  · rename_i parent removed entries node
    split at h
    · cases h
    cases h
    exact ⟨parent, removed, entries, node, rfl⟩
  · cases h

/-- A node that is added is found behind all the others. -/
theorem node?_add_length (v : Volume) (node : Node) : (v.add node).2.node? v.nodes.length = some node := by
  simp [add, node?]

/-- A file that is opened and truncated holds no bytes, and no limit is put on its size. -/
theorem node?_of_openFile (writes : mode.writes = true) (truncates : mode.truncates = true)
    (h : v.openFile text mode = .ok (id, v')) (file : v'.isFile id = true) :
    v'.node? id = some (.file []) ∧ v'.greatestSize = v.greatestSize := by
  obtain ⟨p, -, -, ⟨-, -, rfl⟩ | ⟨-, rfl, linked⟩⟩ := openFile_cases writes h
  · rw [truncates, Bool.true_and] at file ⊢
    by_cases regular : v.isFile id = true
    · rw [if_pos regular]
      unfold isFile at regular
      split at regular
      · rename_i bytes node
        exact ⟨node?_set_self node _, rfl⟩
      · cases regular
    · rw [if_neg regular] at file
      exact absurd file regular
  · obtain ⟨parent, removed, entries, node, rfl⟩ := link_eq_ok linked
    -- the new node lies behind all others, and is not the directory that got the entry
    have new := node?_add_length v (.file [])
    have ne : p.directory ≠ v.nodes.length := by
      intro same
      rw [same, new] at node
      cases node
    exact ⟨(node?_set_ne ne _).trans new, rfl⟩

/-! ### Volumes with more entries -/

/-- A volume has all the directories of another one, each with the same parent and at least the same entries. -/
structure Extends (v w : Volume) : Prop where
  current : w.current = v.current
  directory : ∀ {id parent removed entries}, v.node? id = some (.directory parent removed entries) →
    ∃ more, w.node? id = some (.directory parent removed more) ∧
      ∀ name x, entries.lookup name = some x → more.lookup name = some x

namespace Extends

/-- A volume has its own entries. -/
theorem refl (v : Volume) : v.Extends v := ⟨rfl, fun node => ⟨_, node, fun _ _ found => found⟩⟩

/-- Entries that are kept twice are kept. -/
theorem trans {u : Volume} (h : v.Extends w) (h' : w.Extends u) : v.Extends u where
  current := h'.current.trans h.current
  directory node := by
    obtain ⟨more, node, same⟩ := h.directory node
    obtain ⟨evenMore, node, same'⟩ := h'.directory node
    exact ⟨evenMore, node, fun name x found => same' name x (same name x found)⟩

/-- A directory stays one. -/
theorem isDirectory (h : v.Extends w) (directory : v.isDirectory id = true) : w.isDirectory id = true := by
  unfold Volume.isDirectory at directory ⊢
  split at directory
  · rename_i node
    obtain ⟨more, node', -⟩ := h.directory node
    rw [node']
  · cases directory

/-- An entry that is found in a directory is found there afterwards. -/
theorem entry? (h : v.Extends w) {directory x : NodeId} {name : List Char}
    (found : v.entry? directory name = .ok (some x)) : w.entry? directory name = .ok (some x) := by
  unfold Volume.entry? at found ⊢
  split at found
  · rename_i node
    obtain ⟨more, node', same⟩ := h.directory node
    rw [node']
    simp only
    split at found
    · cases found
    rename_i there
    split at found
    · cases found
    rename_i short
    rw [if_neg there, if_neg short, same name x (Except.ok.inj found)]
  · cases found

/-- So is a name, be it that of an entry, of the directory itself or of the one above it. -/
theorem lookup (h : v.Extends w) {directory x : NodeId} {name : List Char}
    (found : v.lookup directory name = .ok x) : w.lookup directory name = .ok x := by
  unfold Volume.lookup at found ⊢
  split at found
  · rename_i node
    obtain ⟨more, node', -⟩ := h.directory node
    rw [node']
    simp only
    -- the directory itself, the one above it, and an entry
    split at found
    · rename_i here
      rw [if_pos here, found]
    rename_i notHere
    rw [if_neg notHere]
    split at found
    · rename_i above
      rw [if_pos above, found]
    rename_i notAbove
    rw [if_neg notAbove]
    obtain ⟨x?, entry, found⟩ := bind_eq_ok found
    cases x? with
    | none => cases found
    | some y =>
      rw [h.entry? entry]
      exact found
  · cases found

/-- So are names one after another. -/
theorem walk (h : v.Extends w) {names : List (List Char)} {start x : NodeId}
    (found : v.walk start names = .ok x) : w.walk start names = .ok x := by
  -- one name leads to the directory from which the others lead on
  induction names generalizing start with
  | nil => exact found
  | cons name names ih =>
    unfold Volume.walk at found ⊢
    rw [List.foldlM_cons] at found ⊢
    obtain ⟨d, step, rest⟩ := bind_eq_ok found
    rw [h.lookup step]
    exact ih rest

/-- So is the place that a path leads to, if there is one. -/
theorem place? (h : v.Extends w) {p : Place} (found : v.place? text = .ok (some p)) :
    w.place? text = .ok (some p) := by
  unfold Volume.place? at found ⊢
  obtain ⟨path, parsed, found⟩ := bind_eq_ok found
  rw [parsed]
  simp only [bind, Except.bind] at found ⊢
  -- a path starts from the root or from the current directory, and neither has changed
  have origin : w.origin path = v.origin path := by
    unfold Volume.origin
    rw [h.current]
  rw [origin]
  split at found
  · cases found
  · rename_i name last
    cases walked : v.walk (v.origin path) path.names.dropLast with
    | error e =>
      rw [walked] at found
      cases found
    | ok d =>
      rw [walked] at found
      rw [h.walk walked]
      simp only at found ⊢
      cases directory : v.isDirectory d with
      | false =>
        rw [directory] at found
        cases found
      | true =>
        rw [directory] at found
        rw [h.isDirectory directory]
        exact found

end Extends

/-! ### Opening a file again -/

/-- A node that is no directory may be any file in a volume with the same entries. -/
theorem extends_set (notDirectory : v.isDirectory id = false) (bytes : List UInt8) :
    v.Extends (v.set id (.file bytes)) where
  current := rfl
  directory {d parent removed entries} node := by
    have ne : id ≠ d := by
      rintro rfl
      simp [isDirectory, node] at notDirectory
    exact ⟨entries, (node?_set_ne ne _).trans node, fun _ _ found => found⟩

/-- The nodes that were there are found where they were. -/
theorem node?_add {d : NodeId} {old : Node} (h : v.node? d = some old) (node : Node) :
    (v.add node).2.node? d = some old := by
  obtain ⟨lt, -⟩ := List.getElem?_eq_some_iff.mp h
  exact (List.getElem?_append_left lt).trans h

/-- A name that has no entry is short enough, and its directory is still there. -/
theorem entry?_eq_none {directory : NodeId} {name : List Char} (h : v.entry? directory name = .ok none) :
    ∃ parent entries, v.node? directory = some (.directory parent false entries) ∧
      Path.isTooLong name = false ∧ entries.lookup name = none := by
  unfold entry? at h
  split at h
  · rename_i parent removed entries node
    split at h
    · cases h
    rename_i there
    split at h
    · cases h
    rename_i short
    rw [Bool.not_eq_true] at there short
    rw [there] at node
    exact ⟨parent, entries, node, short, Except.ok.inj h⟩
  · cases h

/-- The entry that is put behind those of other names is the one of its name. -/
theorem lookup_filter_append (entries : List (List Char × NodeId)) (name : List Char) (id : NodeId) :
    (entries.filter (·.1 ≠ name) ++ [(name, id)]).lookup name = some id := by
  have none : (entries.filter (·.1 ≠ name)).lookup name = none := by
    rw [List.lookup_eq_none_iff]
    intro entry mem
    have ne := (List.mem_filter.mp mem).2
    simp only [decide_eq_true_eq] at ne
    simpa using Ne.symm ne
  rw [List.lookup_append, none]
  simp

/-- The entries of other names are as before. -/
theorem lookup_filter_append_of_ne (entries : List (List Char × NodeId)) {name other : List Char}
    (ne : other ≠ name) (id : NodeId) :
    (entries.filter (·.1 ≠ name) ++ [(name, id)]).lookup other = entries.lookup other := by
  induction entries with
  | nil => simp [List.lookup_cons, beq_false_of_ne ne]
  | cons entry entries ih =>
    obtain ⟨key, x⟩ := entry
    -- an entry of the name itself is left out, and would not have been the answer
    by_cases same : key = name
    · have kept : (other == key) = false := beq_false_of_ne (same ▸ ne)
      rw [List.lookup_cons, kept, ← ih, List.filter_cons_of_neg (by simpa using same)]
    · rw [List.filter_cons_of_pos (by simpa using same), List.cons_append, List.lookup_cons, List.lookup_cons, ih]

/-- An entry that is made where there was none takes no other entry away, and is found. -/
theorem extends_of_created {p : Place} (none : v.find? p = .ok none)
    (linked : (v.add (.file [])).2.link p.directory p.name v.nodes.length = .ok v') :
    v.Extends v' ∧ v'.find? p = .ok (some v.nodes.length) := by
  obtain ⟨parent, entries, node, short, absent⟩ := entry?_eq_none none
  have there := node?_add node (.file [])
  obtain ⟨parent', removed, entries', node', rfl⟩ := link_eq_ok linked
  cases there.symm.trans node'
  have self := node?_set_self there (.directory parent false (entries.filter (·.1 ≠ p.name) ++
    [(p.name, v.nodes.length)]))
  constructor
  · -- no node but the directory of the new entry has changed
    refine ⟨rfl, fun {d _ _ _} found => ?_⟩
    by_cases same : p.directory = d
    · subst same
      cases node.symm.trans found
      refine ⟨_, self, fun name x has => ?_⟩
      have ne : name ≠ p.name := by
        rintro rfl
        rw [absent] at has
        cases has
      rw [lookup_filter_append_of_ne entries ne, has]
    · exact ⟨_, (node?_set_ne same _).trans (node?_add found _), fun _ _ has => has⟩
  · unfold find? entry?
    rw [self]
    simp only [Bool.false_eq_true, if_false, short, lookup_filter_append]

/-- A file that is opened for output is found where its path leads. -/
theorem found_of_openFile (writes : mode.writes = true) (h : v.openFile text mode = .ok (id, v')) :
    ∃ p, v.place? text = .ok (some p) ∧ p.asDirectory = false ∧ v.Extends v' ∧
      v'.find? p = .ok (some id) := by
  obtain ⟨p, placed, noSlash, ⟨found, notDirectory, rfl⟩ | ⟨none, rfl, linked⟩⟩ := openFile_cases writes h
  · have kept : v.Extends (if mode.truncates && v.isFile id then v.set id (.file []) else v) := by
      split
      · exact extends_set notDirectory []
      · exact Extends.refl v
    exact ⟨p, placed, noSlash, kept, kept.entry? found⟩
  · obtain ⟨kept, found⟩ := extends_of_created none linked
    exact ⟨p, placed, noSlash, kept, found⟩

/-- **A file that was opened for output is opened for input by the same path**, whatever its bytes have become. -/
theorem openFile_of_opened (writes : mode.writes = true) (h : v.openFile text mode = .ok (id, v'))
    {old : List UInt8} (file : v'.node? id = some (.file old)) (bytes : List UInt8) :
    (v'.set id (.file bytes)).openFile text { } = .ok (id, v'.set id (.file bytes)) := by
  obtain ⟨p, placed, noSlash, extended, found⟩ := found_of_openFile writes h
  have changed : v'.Extends (v'.set id (.file bytes)) := extends_set (isDirectory_of_file file) bytes
  have notDirectory := isDirectory_of_file (node?_set_self file (.file bytes))
  unfold openFile
  rw [(extended.trans changed).place? placed]
  simp only [bind, Except.bind, Bool.false_and, Bool.false_eq_true, if_false,
    changed.entry? found, find?, notDirectory, noSlash]
  rfl

end Volume

end SystemUnit
