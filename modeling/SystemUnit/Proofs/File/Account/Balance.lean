import SystemUnit.Proofs.File.Output
import SystemUnit.Proofs.Volume.Entries
import Mathlib.Logic.Function.Basic

namespace SystemUnit

/-!
# Accounts of files

An account of a file says what the file has to hold: what it held when it was opened for output last, and behind it
what has been written to it since.  It is balanced if the file holds that, but for what is held back.

* `Account`, `Account.bytes` — what a file has to hold;
* `TextFile.target?` — the file that a text file is open for output to;
* `TextFile.Operation.account`, `TextFile.accountsAfter` — the accounts after an operation, and after a run;
* `Writer.Spares` — operations on a writer that change no file if the writer has none;
* `TextFile.Balanced` — every file holds what its account says, but for what the target holds back;
* `TextFile.balanced_enter`, `TextFile.balanced_device` — an account is entered for the target, if it is a file;
* `TextFile.Balanced.effect`, `TextFile.Balanced.opened` — what is done with a writer, and a file that is opened.
-/

open FileM

/-- What a file held when it was opened for output last, and the characters that have been written to it since. -/
structure Account where
  held : List UInt8 := []
  since : List Char := []

/-- What a file has to hold. -/
def Account.bytes (a : Account) : List UInt8 := a.held ++ Utf8.encode a.since

/-- The accounts of files that have not been written to. -/
def Volume.accounts (v : Volume) (id : NodeId) : Account where
  held := match v.node? id with
    | some (.file bytes) => bytes
    | _ => []

namespace Writer

variable {base v : Volume} {written : List UInt8} {w : Writer}

/-- The node holds what has been written but for what is held back. -/
theorem Holds.node (h : Holds base written w v) :
    ∃ bytes, v.node? w.node = some (.file bytes) ∧ bytes ++ w.pending.toList = written := by
  obtain ⟨-, ⟨old, file⟩, bytes, rfl, -, all⟩ := h
  exact ⟨bytes, Volume.node?_set_self file _, all⟩

/-- Nothing has changed since now. -/
theorem Holds.self (h : Holds base written w v) : Holds v written w v := by
  obtain ⟨bytes, node, all⟩ := h.node
  obtain ⟨unlimited, ⟨old, file⟩, bytes', rfl, place, all'⟩ := h
  cases List.append_cancel_right (all.trans all'.symm)
  exact ⟨unlimited, ⟨bytes, node⟩, bytes, (Volume.set_eq_self node).symm, place, all⟩

/-- A flush appends nothing to what has been written. -/
theorem appends_flush : Appends flush [] := by
  intro base written w v h
  refine ⟨_, _, effect_flush h, rfl, h.unlimited, h.file, written, rfl, .inr rfl, ?_⟩
  simp

/-- An operation on the writer of what is no file changes no file, and the node stays the same. -/
def Spares (operation : WriterM Unit) : Prop :=
  ∀ (w : Writer) (v : Volume), v.isFile w.node = false →
    (w.effect v operation).2.2 = v ∧ (w.effect v operation).2.1.node = w.node

/-- What spares the files step by step spares them as a whole. -/
theorem Spares.seq {a b : WriterM Unit} (ha : Spares a) (hb : Spares b) : Spares (do a; b) := by
  intro w v device
  have first := ha w v device
  rw [effect_seq]
  generalize w.effect v a = done at first ⊢
  obtain ⟨_ | _, w₁, v₁⟩ := done
  · exact first
  · -- the node is the same one behind the first step, and so the second one spares the files as well
    obtain ⟨rfl, node⟩ : v₁ = v ∧ w₁.node = w.node := first
    obtain ⟨same', node'⟩ := hb w₁ v₁ (node ▸ device)
    exact ⟨same', node'.trans node⟩

/-- What is held back is in the writer, and not in a file. -/
theorem spares_hold (g : Writer → Array UInt8) : Spares (modify fun (w, v) => ({ w with pending := g w }, v)) :=
  fun _ _ _ => ⟨rfl, rfl⟩

/-- What is sent to a device changes no file. -/
theorem spares_emit (data : List UInt8) : Spares (emit data) := by
  intro w v device
  rw [effect_emit]
  -- the one case that changes a file is that of a file
  have same : ∀ offset v', v.writeAt w.node offset data = .ok v' → v' = v := by
    intro offset v' h
    unfold Volume.writeAt at h
    split at h
    · cases h
      rfl
    · split at h
      · rename_i file
        simp [Volume.isFile, file] at device
      · cases h
        rfl
      · cases h
      · cases h
  cases written : v.writeAt w.node (if w.appends then v.sizeOf w.node else w.offset) data with
  | error e => exact ⟨rfl, rfl⟩
  | ok v' => exact ⟨same _ v' written, rfl⟩

/-- A flush sends what is held back and then holds back nothing. -/
theorem spares_flush : Spares flush := by
  intro w v device
  rw [effect_flush_eq]
  exact (spares_emit w.pending.toList).seq (spares_hold fun _ => #[]) w v device

/-- What is written to a device changes no file, whether it is held back or sent. -/
theorem spares_write (data : List UInt8) : Spares (write data) := by
  have add : Spares (add data) := by
    unfold add
    split
    · exact spares_hold fun w => w.pending ++ data
    · exact spares_emit data
  intro w v device
  rw [effect_write]
  split
  · exact spares_flush.seq add w v device
  · exact add w v device

/-- Nor do parts that are written to it one after another. -/
theorem spares_writing (parts : List (List Char)) : Spares (parts.forM fun part => write (Utf8.encode part)) := by
  induction parts with
  | nil => exact fun w v _ => ⟨rfl, rfl⟩
  | cons part parts ih => exact (spares_write (Utf8.encode part)).seq ih

end Writer

namespace TextFile

/-- The writer of a text file that is open for output. -/
def writer? (f : TextFile) : Option Writer :=
  match f.stream with
  | .output w => some w
  | _ => none

/-- The file that a writer writes to; a device is none. -/
def fileOf (w? : Option Writer) (v : Volume) : Option NodeId := (w?.map Writer.node).filter v.isFile

/-- The file that a text file is open for output to. -/
def target? (f : TextFile) (v : Volume) : Option NodeId := fileOf f.writer? v

/-- The accounts with another one of a file, if there is one. -/
def enter (accounts : NodeId → Account) (id? : Option NodeId) (entry : Account → Account) : NodeId → Account :=
  id?.elim accounts fun id => Function.update accounts id (entry (accounts id))

/-- The accounts after an operation, with the target before it and after it: a file that is created is empty, one that
    is opened at its end keeps what it has to hold, and what is written goes to the target. -/
def Operation.account (op : Operation) (before after : Option NodeId) (accounts : NodeId → Account) :
    NodeId → Account :=
  match op with
  | .create => enter accounts after fun _ => { }
  | .append => enter accounts after fun a => { held := a.bytes }
  | _ => enter accounts before fun a => { a with since := a.since ++ op.written }

/-- The accounts after a run. -/
def accountsAfter (s : TextFile × FileContext) (accounts : NodeId → Account) : List Operation → NodeId → Account
  | [] => accounts
  | op :: run =>
    let t := (FileM.perform op.act s).2
    accountsAfter t (op.account (s.1.target? s.2.volume) (t.1.target? t.2.volume) accounts) run

/-- Whether an operation opens a file for output. -/
def Operation.opensForOutput : Operation → Bool
  | .create | .append => true
  | _ => false

/-- Whether an operation closes the file: by itself, or because the file is opened for input, gets another name or
    loses the one it has. -/
def Operation.closes : Operation → Bool
  | .assign _ | .reset | .close | .erase | .rename _ => true
  | _ => false

/-- Whether an operation leaves nothing held back: a flush, and everything that closes the file, be it to open it for
    output again. -/
def Operation.settles : Operation → Bool
  | .flush => true
  | op => op.closes || op.opensForOutput

/-- Every file holds what its account says. -/
def Settled (accounts : NodeId → Account) (v : Volume) : Prop :=
  ∀ id bytes, v.node? id = some (.file bytes) → (accounts id).bytes = bytes

/-- Every file but the target of a writer holds what its account says, and the target with what is held back.  There
    is nothing in the account of a file that has not been made. -/
structure Balanced (accounts : NodeId → Account) (w? : Option Writer) (v : Volume) : Prop where
  unlimited : v.greatestSize = none
  others : ∀ id bytes, v.node? id = some (.file bytes) → fileOf w? v ≠ some id → (accounts id).bytes = bytes
  target : ∀ w, w? = some w → v.isFile w.node = true → w.Holds v (accounts w.node).bytes v
  unmade : ∀ id, v.nodes.length ≤ id → (accounts id).bytes = []

variable {accounts : NodeId → Account} {w? : Option Writer} {w : Writer} {v v' : Volume} {f : TextFile}
  {c : FileContext} {op : Operation}

/-- A writer that writes to a file has that file for its target. -/
theorem fileOf_some (file : v.isFile w.node = true) : fileOf (some w) v = some w.node := by
  simp [fileOf, file]

/-- A writer that writes to a device has no file for its target. -/
theorem fileOf_device (device : v.isFile w.node = false) : fileOf (some w) v = none := by
  simp [fileOf, device]

/-! ### Accounts -/

/-- The account that is entered is found at its file. -/
theorem enter_self (accounts : NodeId → Account) (id : NodeId) (entry : Account → Account) :
    enter accounts (some id) entry id = entry (accounts id) := by
  rw [enter, Option.elim_some, Function.update_self]

/-- The accounts of other files are as before. -/
theorem enter_of_ne (accounts : NodeId → Account) {id other : NodeId} (ne : other ≠ id) (entry : Account → Account) :
    enter accounts (some id) entry other = accounts other := by
  rw [enter, Option.elim_some, Function.update_of_ne ne]

/-- An account is entered for the file that a writer writes to: all is balanced if the writer is, and the other files
    are. -/
theorem balanced_enter {entry : Account → Account} (unlimited : v.greatestSize = none)
    (holds : w.Holds v (entry (accounts w.node)).bytes v)
    (others : ∀ id bytes, id ≠ w.node → v.node? id = some (.file bytes) → (accounts id).bytes = bytes)
    (unmade : ∀ id, v.nodes.length ≤ id → (accounts id).bytes = []) :
    Balanced (enter accounts (fileOf (some w) v) entry) (some w) v := by
  obtain ⟨bytes, node, -⟩ := holds.node
  have target := fileOf_some (Volume.isFile_of_file node)
  rw [target]
  refine ⟨unlimited, fun id bytes' file other => ?_, fun w' open? _ => ?_, fun id le => ?_⟩
  · have ne : id ≠ w.node := by
      rintro rfl
      exact other target
    rw [enter_of_ne accounts ne]
    exact others id bytes' ne file
  · cases open?
    rw [enter_self]
    exact holds
  · -- the file of the writer has been made
    have ne : id ≠ w.node := by
      rintro rfl
      exact absurd le (Nat.not_le.mpr (Volume.lt_of_node? node))
    rw [enter_of_ne accounts ne]
    exact unmade id le

/-- No account is entered for a device, of which nothing is asked. -/
theorem balanced_device {entry : Account → Account} (unlimited : v.greatestSize = none)
    (device : v.isFile w.node = false)
    (others : ∀ id bytes, v.node? id = some (.file bytes) → (accounts id).bytes = bytes)
    (unmade : ∀ id, v.nodes.length ≤ id → (accounts id).bytes = []) :
    Balanced (enter accounts (fileOf (some w) v) entry) (some w) v := by
  rw [fileOf_device device]
  refine ⟨unlimited, fun id bytes file _ => others id bytes file, fun w' open? file => ?_, unmade⟩
  cases open?
  rw [device] at file
  cases file

/-- At the start each file holds what its account says. -/
theorem balanced_accounts (unlimited : v.greatestSize = none) : Balanced v.accounts none v where
  unlimited := unlimited
  others id bytes file _ := by simp [Account.bytes, Volume.accounts, file]
  target w open? := by cases open?
  unmade id le := by
    have none : v.node? id = none := List.getElem?_eq_none le
    simp [Account.bytes, Volume.accounts, none]

/-- The file that a writer writes to holds all of it if nothing is held back. -/
theorem Balanced.settled (h : Balanced accounts w? v)
    (empty : ∀ w, w? = some w → v.isFile w.node = true → w.pending = #[]) : Settled accounts v := by
  intro id bytes file
  by_cases target : fileOf w? v = some id
  · -- the target holds all but what is held back, and that is nothing
    obtain ⟨same, isFile⟩ := Option.filter_eq_some_iff.mp target
    obtain ⟨w, open?, rfl⟩ := Option.map_eq_some_iff.mp same
    obtain ⟨held, node, all⟩ := (h.target w open? isFile).node
    cases node.symm.trans file
    rw [← all, empty w open? isFile]
    simp
  · exact h.others id bytes file target

/-- Where there is no writer, there are only files that hold what their accounts say. -/
theorem Balanced.sameFiles (h : Balanced accounts none v) (same : v.SameFiles v') : Balanced accounts none v' where
  unlimited := same.greatestSize.trans h.unlimited
  others id bytes file _ := h.others id bytes ((same.file id bytes).mp file) nofun
  target w open? := by cases open?
  unmade id le := h.unmade id (same.length ▸ le)

/-- What a writer does to a file is entered into the account of the file. -/
theorem Balanced.effect (h : Balanced accounts (some w) v) {operation : WriterM Unit} {chars : List Char}
    (appends : Writer.Appends operation (Utf8.encode chars)) (spares : Writer.Spares operation) :
    Balanced (enter accounts (fileOf (some w) v) fun a => { a with since := a.since ++ chars })
      (some (w.effect v operation).2.1) (w.effect v operation).2.2 := by
  -- a device has no account; a file has one that grows by what is written
  cases file : v.isFile w.node with
  | true =>
    obtain ⟨w', v', effect, node, holds⟩ := appends (h.target w rfl file)
    have written : (accounts w.node).bytes ++ Utf8.encode chars =
        ({ accounts w.node with since := (accounts w.node).since ++ chars } : Account).bytes := by
      rw [Account.bytes, Account.bytes, Utf8.encode_append, List.append_assoc]
    rw [written] at holds
    have holds' := holds.self
    -- the file of the writer is the same, and the only one to change
    have target : fileOf (some w) v = fileOf (some w') v' := by
      obtain ⟨bytes, there, -⟩ := holds'.node
      rw [fileOf_some file, fileOf_some (Volume.isFile_of_file there), node]
    obtain ⟨-, -, bytes, same, -, -⟩ := holds
    rw [effect, target]
    refine balanced_enter (same ▸ h.unlimited) (by rw [node]; exact holds') (fun id bytes' ne file' => ?_)
      fun id le => ?_
    · rw [node] at ne same
      rw [same, Volume.node?_set_ne ne.symm] at file'
      apply h.others id bytes' file'
      rw [fileOf_some file]
      exact fun eq => ne (Option.some.inj eq).symm
    · rw [same] at le
      exact h.unmade id (List.length_set ▸ le)
  | false =>
    obtain ⟨same, node⟩ := spares w v file
    have target : fileOf (some w) v = fileOf (some (w.effect v operation).2.1) v := by
      rw [fileOf_device file, fileOf_device (node ▸ file)]
    rw [same, target]
    refine balanced_device h.unlimited (node ▸ file) (fun id bytes file' => ?_) h.unmade
    exact h.others id bytes file' (by rw [fileOf_device file]; nofun)

/-- A file that is opened for output holds what its account says from then on. -/
theorem Balanced.opened (h : Balanced accounts none v) {id : NodeId} {truncates : Bool}
    (opened : v.Opened v' id truncates) :
    Balanced (enter accounts (fileOf (some { node := id, offset := 0, appends := !truncates }) v')
      fun a => if truncates then { } else { held := a.bytes })
      (some { node := id, offset := 0, appends := !truncates }) v' := by
  have unlimited := opened.greatestSize.trans h.unlimited
  have others (other : NodeId) (bytes : List UInt8) (ne : other ≠ id) (file : v'.node? other = some (.file bytes)) :
      (accounts other).bytes = bytes :=
    h.others other bytes (opened.others other bytes ne file) nofun
  have unmade (other : NodeId) (le : v'.nodes.length ≤ other) : (accounts other).bytes = [] :=
    h.unmade other (Nat.le_trans opened.length le)
  -- the account of a file begins anew with what the file holds now
  cases file : v'.isFile id with
  | true =>
    obtain ⟨bytes, node⟩ := Volume.isFile_iff.mp file
    -- a file that has not been there before is empty, and so is its account
    have own : (if truncates then { } else { held := (accounts id).bytes } : Account).bytes = bytes := by
      rcases opened.own bytes node with ⟨new, rfl⟩ | ⟨old, was, rfl⟩
      · rw [h.unmade id new]
        split <;> rfl
      · rw [h.others id old was nofun]
        split
        · rfl
        · exact List.append_nil old
    refine balanced_enter unlimited ?_ others unmade
    dsimp only
    rw [own]
    refine ⟨unlimited, ⟨bytes, node⟩, bytes, (Volume.set_eq_self node).symm, ?_, List.append_nil bytes⟩
    cases truncates with
    | true =>
      cases own
      exact .inr rfl
    | false => exact .inl rfl
  | false =>
    refine balanced_device unlimited file (fun other bytes file' => ?_) unmade
    have ne : other ≠ id := by
      rintro rfl
      rw [Volume.isFile_of_file file'] at file
      cases file
    exact others other bytes ne file'

end TextFile

end SystemUnit
