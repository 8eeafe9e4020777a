import SystemUnit.Proofs.Volume.Files

namespace SystemUnit

namespace Volume

/-!
# Names come and go, files stay

An open file is a node, and the names by which it is found are entries of directories.  What is done to the entries
leaves every file with its bytes.

* `SameFiles` — two volumes with the same files;
* `sameFiles_link`, `sameFiles_drop`, `sameFiles_remove`, `sameFiles_reparent` — entries of a directory;
* `sameFiles_unlink`, `sameFiles_rename` — a name taken away, or changed;
* `Opened`, `opened_of_openFile` — what opening a file for output does to it and to the others;
* `openFile_again` — the path by which a file was opened leads to it;
* `Yields`, `yields_bind`, `yields_unless` — what operations in several steps give;
* `openFile_keeps` — a file that is opened neither to be made nor to be emptied is opened without a change.
-/

variable {v w u : Volume} {id directory parent : NodeId} {name text : List Char}

/-- A node that is found has been added before. -/
theorem lt_of_node? {node : Node} (h : v.node? id = some node) : id < v.nodes.length :=
  (List.getElem?_eq_some_iff.mp h).1

/-- The same nodes are files, with the same bytes, and there are as many nodes and the same limit. -/
structure SameFiles (v w : Volume) : Prop where
  greatestSize : w.greatestSize = v.greatestSize
  length : w.nodes.length = v.nodes.length
  file : ∀ id bytes, w.node? id = some (.file bytes) ↔ v.node? id = some (.file bytes)

namespace SameFiles

/-- A volume has its own files. -/
theorem refl (v : Volume) : v.SameFiles v := ⟨rfl, rfl, fun _ _ => Iff.rfl⟩

/-- Files that are the same twice over are the same. -/
theorem trans (h : v.SameFiles w) (h' : w.SameFiles u) : v.SameFiles u where
  greatestSize := h'.greatestSize.trans h.greatestSize
  length := h'.length.trans h.length
  file id bytes := (h'.file id bytes).trans (h.file id bytes)

end SameFiles

/-! ### Entries of a directory -/

/-- A directory in place of a directory is no change to a file. -/
theorem sameFiles_set {removed removed' : Bool} {parent' : NodeId} {entries entries' : List (List Char × NodeId)}
    (node : v.node? id = some (.directory parent removed entries)) :
    v.SameFiles (v.set id (.directory parent' removed' entries')) where
  greatestSize := rfl
  length := List.length_set
  file other bytes := by
    by_cases same : id = other
    · subst same
      rw [node?_set_self node, node]
      simp
    · rw [node?_set_ne same]

/-- An entry that is made changes no file. -/
theorem sameFiles_link (h : v.link directory name id = .ok w) : v.SameFiles w := by
  obtain ⟨parent, removed, entries, node, rfl⟩ := link_eq_ok h
  exact sameFiles_set node

/-- Nor does one that is taken away. -/
theorem sameFiles_drop (h : v.drop directory name = .ok w) : v.SameFiles w := by
  unfold drop at h
  split at h
  · rename_i node
    split at h
    · cases h
    cases h
    exact sameFiles_set node
  · cases h

/-- A directory that is marked as removed is no file. -/
theorem sameFiles_remove (v : Volume) (id : NodeId) : v.SameFiles (v.remove id) := by
  unfold remove
  split
  · rename_i node
    exact sameFiles_set node
  · exact .refl v

/-- Nor is one that gets another directory above it. -/
theorem sameFiles_reparent (v : Volume) (id parent : NodeId) : v.SameFiles (v.reparent id parent) := by
  unfold reparent
  split
  · rename_i node
    exact sameFiles_set node
  · exact .refl v

/-! ### Operations in steps -/

/-- What an operation gives, if the host does not refuse it, has a property. -/
def Yields {α : Type} (P : α → Prop) (outcome : Except HostError α) : Prop := ∀ a, outcome = .ok a → P a

section Yields

variable {α β : Type} {P : β → Prop} {e : HostError}

/-- A step that gives what it should. -/
theorem yields_pure {b : β} (h : P b) : Yields P (pure b) := by
  rintro _ ⟨⟩
  exact h

/-- A step that fails gives nothing. -/
theorem yields_throw : Yields P (throw e) := by
  intro b given
  cases given

/-- If a step succeeds, what counts is what the steps after it give. -/
theorem yields_bind {first : Except HostError α} {next : α → Except HostError β}
    (h : ∀ a, first = .ok a → Yields P (next a)) : Yields P (first >>= next) := by
  intro b given
  obtain ⟨a, done, rest⟩ := bind_eq_ok given
  exact h a done b rest

/-- The steps behind a test are taken if it refuses nothing. -/
theorem yields_unless {refused : Prop} [Decidable refused] {never : α → Except HostError β}
    {next : Except HostError β} (h : Yields P next) : Yields P (if refused then throw e >>= never else next) := by
  split
  · exact yields_throw
  · exact h

/-- Either way what is given is as it should be. -/
theorem yields_ite {p : Prop} [Decidable p] {x y : Except HostError β} (h : Yields P x) (h' : Yields P y) :
    Yields P (if p then x else y) := by
  split
  · exact h
  · exact h'

end Yields

/-! ### Names -/

/-- **A name that is taken away leaves every file with its bytes.** -/
theorem sameFiles_unlink (v : Volume) (text : List Char) : Yields v.SameFiles (v.unlink text) := by
  unfold unlink
  refine yields_bind fun p _ => yields_bind fun id? _ => ?_
  cases id? with
  | none => exact yields_throw
  | some id => exact yields_ite yields_throw fun w => sameFiles_drop

/-- **So does a name that is changed**, also where another file had the new one. -/
theorem sameFiles_rename (v : Volume) (source target : List Char) :
    Yields v.SameFiles (v.rename source target) := by
  unfold rename
  refine yields_unless (yields_bind fun p? _ => yields_bind fun q? _ => ?_)
  split
  · refine yields_unless (yields_bind fun id? _ => ?_)
    cases id? with
    | none => exact yields_throw
    | some id =>
      refine yields_bind fun other? _ => yields_unless (yields_unless ?_)
      -- an entry goes and one comes, and a directory that it takes the place of is marked
      cases other? with
      | none =>
        refine yields_bind fun v₁ dropped => yields_bind fun v₂ linked => yields_pure ?_
        exact (sameFiles_drop dropped).trans ((sameFiles_link linked).trans (sameFiles_reparent ..))
      | some other =>
        refine yields_ite (yields_pure (.refl v)) (yields_unless ?_)
        refine yields_bind fun v₁ dropped => yields_bind fun v₂ linked => yields_pure ?_
        exact (sameFiles_drop dropped).trans
          ((sameFiles_link linked).trans ((sameFiles_remove ..).trans (sameFiles_reparent ..)))
  · exact yields_throw

/-- A file that is opened neither to be made nor to be emptied is opened without a change. -/
theorem openFile_keeps (v : Volume) (text : List Char) {mode : OpenMode} (keeps : mode.creates = false)
    (whole : mode.truncates = false) : Yields (fun opened => opened.2 = v) (v.openFile text mode) := by
  unfold openFile
  rw [keeps, whole]
  refine yields_bind fun p? _ => ?_
  cases p? with
  | none => exact yields_bind fun d _ => yields_ite yields_throw (yields_pure rfl)
  | some p =>
    refine yields_unless (yields_bind fun id? _ => ?_)
    -- what is not there is not made
    cases id? with
    | none => exact yields_throw
    | some d =>
      refine yields_ite (yields_ite yields_throw (yields_pure rfl)) (yields_ite yields_throw ?_)
      rw [Bool.false_and, if_neg Bool.false_ne_true]
      exact yields_pure rfl

/-! ### Opening -/

/-- A node has been opened for output: other files are what they were, and it is empty if it is new or has been
    truncated, and holds what it held if not. -/
structure Opened (v w : Volume) (id : NodeId) (truncates : Bool) : Prop where
  greatestSize : w.greatestSize = v.greatestSize
  length : v.nodes.length ≤ w.nodes.length
  others : ∀ other bytes, other ≠ id → w.node? other = some (.file bytes) → v.node? other = some (.file bytes)
  own : ∀ bytes, w.node? id = some (.file bytes) →
    v.nodes.length ≤ id ∧ bytes = [] ∨ ∃ old, v.node? id = some (.file old) ∧ bytes = if truncates then [] else old

/-- A file is a node with bytes. -/
theorem isFile_iff : v.isFile id = true ↔ ∃ bytes, v.node? id = some (.file bytes) := by
  unfold isFile
  split
  · rename_i bytes node
    exact ⟨fun _ => ⟨bytes, node⟩, fun _ => rfl⟩
  · rename_i noFile
    exact ⟨nofun, fun ⟨bytes, node⟩ => absurd node (noFile bytes)⟩

/-- A file that is opened for output is the entry of its path, or a new one. -/
theorem opened_of_openFile {mode : OpenMode} (writes : mode.writes = true)
    (h : v.openFile text mode = .ok (id, w)) : v.Opened w id mode.truncates := by
  obtain ⟨p, -, -, ⟨-, -, rfl⟩ | ⟨-, rfl, linked⟩⟩ := openFile_cases writes h
  · -- the entry was there; only a regular file is ever emptied
    cases truncated : mode.truncates && v.isFile id with
    | true =>
      obtain ⟨truncates, file⟩ := Bool.and_eq_true_iff.mp truncated
      obtain ⟨old, node⟩ := isFile_iff.mp file
      rw [if_pos rfl]
      refine ⟨rfl, Nat.le_of_eq List.length_set.symm, fun other bytes ne file => ?_,
        fun bytes file => .inr ⟨old, node, ?_⟩⟩
      · rwa [node?_set_ne ne.symm] at file
      · cases (node?_set_self node _).symm.trans file
        rw [truncates, if_pos rfl]
    | false =>
      rw [if_neg Bool.false_ne_true]
      refine ⟨rfl, Nat.le_refl _, fun other bytes _ file => file, fun bytes file => .inr ⟨bytes, file, ?_⟩⟩
      rw [isFile_iff.mpr ⟨bytes, file⟩, Bool.and_true] at truncated
      rw [truncated, if_neg Bool.false_ne_true]
  · -- the node is new, and so it is behind all that were there
    have same := sameFiles_link linked
    have length : (v.add (.file [])).2.nodes.length = v.nodes.length + 1 := List.length_append
    refine ⟨same.greatestSize, by rw [same.length, length]; exact Nat.le_succ _, fun other bytes ne file => ?_,
      fun bytes file => .inl ⟨Nat.le_refl _, ?_⟩⟩
    · have before := (same.file other bytes).mp file
      have lt := lt_of_node? before
      rw [length] at lt
      exact (List.getElem?_append_left (Nat.lt_of_le_of_ne (Nat.lt_succ_iff.mp lt) ne)).symm.trans before
    · cases (node?_add_length v (.file [])).symm.trans ((same.file _ bytes).mp file)
      rfl

/-- The path by which a file was opened for output leads to it. -/
theorem openFile_again {mode : OpenMode} (writes : mode.writes = true) (h : v.openFile text mode = .ok (id, w)) :
    w.openFile text { } = .ok (id, w) := by
  obtain ⟨p, placed, noSlash, extended, found⟩ := found_of_openFile writes h
  have noDirectory : w.isDirectory id = false := by
    obtain ⟨p, -, -, ⟨-, noDirectory, rfl⟩ | ⟨-, rfl, linked⟩⟩ := openFile_cases writes h
    · -- a file that was there, emptied or not, and then one that has been made
      split
      · rename_i truncated
        obtain ⟨-, file⟩ := Bool.and_eq_true_iff.mp truncated
        obtain ⟨old, node⟩ := isFile_iff.mp file
        exact isDirectory_of_file (node?_set_self node _)
      · exact noDirectory
    · exact isDirectory_of_file (((sameFiles_link linked).file _ _).mpr (node?_add_length v _))
  unfold openFile
  rw [extended.place? placed]
  simp only [bind, Except.bind, Bool.false_and, Bool.false_eq_true, if_false, found, noDirectory, noSlash]
  rfl

end Volume

end SystemUnit
