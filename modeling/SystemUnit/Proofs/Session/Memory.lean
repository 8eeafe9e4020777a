import SystemUnit.Proofs.Session.Raising
import SystemUnit.Proofs.Arena.Run

namespace SystemUnit

namespace RaiseM

/-!
# Faults of memory as they are raised

The operations on memory as programs of steps.  A block is looked up by its address once it has been located, room is
asked for before an old block goes, and a copy between two blocks goes through a copy of the bytes, so that a fault may
be raised at two or three places of an operation, some of which are never reached.

* `RaiseM.Gives` — programs that give a result and leave an arena;
* `RaiseM.span`, `RaiseM.blockAt`, `Gives.located` — a range of bytes, and the block that it is in;
* `RaiseM.insert`, `RaiseM.getMem`, `RaiseM.freeMem`, `RaiseM.reallocMem` — blocks;
* `RaiseM.bytes`, `RaiseM.change`, `RaiseM.moveMem`, `RaiseM.compareMem`, `RaiseM.readByte` — bytes;
* `RaiseM.call`, `RaiseM.gives_call` — the calls that may change an arena.
-/

open Arena (alignment addressLimit overwrite)

variable {α β : Type} {m : Machine} {a : Arena} {p q : Pointer} {size count : Int} {grants : Nat → Bool}

/-! ### Programs that change the arena -/

/-- The arena. -/
def memory : RaiseM Arena := return (← get).arena

/-- Puts another arena in place. -/
def setMemory (a : Arena) : RaiseM Unit := modify fun m => { m with arena := a }

/-- A program gives a result and leaves an arena, and the machine is as it was in all else but for the message of its
    fault. -/
def Gives (program : RaiseM α) (m : Machine) (result : Except Fault α × Arena) : Prop :=
  exec program m = { m with arena := result.2 }.settle result.1

/-- To answer leaves the arena as it is. -/
theorem gives_pure (x : α) : Gives (pure x) m (.ok x, m.arena) := rfl

/-- A program that leaves the arena as it is settles its result. -/
theorem Gives.settles {program : RaiseM α} {result : Except Fault α} (h : Gives program m (result, m.arena)) :
    Settles program m result := h

/-- What a program gives that begins with the arena. -/
theorem gives_memory {next : Arena → RaiseM α} {result : Except Fault α × Arena} (h : Gives (next m.arena) m result) :
    Gives (memory >>= next) m result := h

/-- So with a program that leaves the arena as it is. -/
theorem settles_memory {next : Arena → RaiseM α} {result : Except Fault α} (h : Settles (next m.arena) m result) :
    Settles (memory >>= next) m result := h

/-- What follows once the arena has been changed. -/
theorem gives_setMemory {next : RaiseM α} {result : Except Fault α × Arena}
    (h : Gives next { m with arena := a } result) : Gives (do setMemory a; next) m result := h

/-- A test that is not passed raises its fault, and nothing has happened to the arena. -/
theorem Gives.ensure {fine : Prop} [Decidable fine] {next : RaiseM α} {result : Except Fault α × Arena} (fault : Fault)
    (h : fine → Gives next m result) :
    Gives (do RaiseM.ensure fine fault; next) m (if fine then result else (.error fault, m.arena)) := by
  unfold RaiseM.ensure
  split
  · rename_i fine
    exact h fine
  · rfl

/-- What follows a program that gives a value. -/
theorem Settles.gives_next {program : RaiseM α} {next : α → RaiseM β} {x : α} {result : Except Fault β × Arena}
    (h : Settles program m (.ok x)) (h' : Gives (next x) m result) : Gives (program >>= next) m result := by
  unfold Gives
  rw [exec_bind, h]
  exact h'

/-- Nothing follows a fault. -/
theorem Settles.gives_fault {program : RaiseM α} {fault : Fault} (h : Settles program m (.error fault))
    (next : α → RaiseM β) : Gives (program >>= next) m (.error fault, m.arena) := by
  unfold Gives
  rw [exec_bind, h]
  rfl

/-! ### Ranges -/

/-- The address of the block that holds a range of bytes, and the offset in it. -/
def span (p : Pointer) (count : Nat) : RaiseM (Nat × Nat) := do
  ensure (p.isNil = false) (.noAccess p)
  let block ← orRaise ((← memory).blockBelow? p.address.toNat) .noBlock
  let offset := p.address.toNat - block.base
  ensure (offset ≤ block.bytes.length) .noBlock
  ensure (offset + count ≤ block.bytes.length) (.noAccess p)
  return (block.base, offset)

/-- **A range of bytes is looked for as by the search**: the tests are made one after another, and each raises its own
    fault. -/
theorem settles_span (p : Pointer) (count : Nat) :
    Settles (span p count) m ((fun x => (x.1.base, x.2)) <$> m.arena.locate p count) := by
  -- the result of the steps is read off them, and then told to be that of the search, one test after another
  have steps : Settles (span p count) m _ :=
    Settles.ensure (.noAccess p) fun _ => settles_memory <|
      (settles_orRaise (m.arena.blockBelow? p.address.toNat) .noBlock).bind fun block _ =>
        Settles.ensure .noBlock fun _ => Settles.ensure (.noAccess p) fun _ =>
          settles_pure (block.base, p.address.toNat - block.base)
  unfold Arena.locate
  cases nil : p.isNil with
  | true =>
    rw [nil] at steps
    exact steps
  | false =>
    rw [if_pos nil] at steps
    rw [if_neg Bool.false_ne_true]
    cases found : m.arena.blockBelow? p.address.toNat with
    | none =>
      rw [found] at steps
      exact steps
    | some block =>
      rw [found] at steps
      change Settles _ m (if p.address.toNat - block.base ≤ block.bytes.length then
        if p.address.toNat - block.base + count ≤ block.bytes.length then
          .ok (block.base, p.address.toNat - block.base) else .error (.noAccess p) else .error .noBlock) at steps
      simp only
      -- the steps test the converse of what the search tests
      by_cases inside : p.address.toNat - block.base ≤ block.bytes.length
      · rw [if_pos inside] at steps
        rw [if_neg (Nat.not_lt.mpr inside)]
        by_cases fits : p.address.toNat - block.base + count ≤ block.bytes.length
        · rw [if_pos fits] at steps ⊢
          exact steps
        · rw [if_neg fits] at steps ⊢
          exact steps
      · rw [if_neg inside] at steps
        rw [if_pos (Nat.lt_of_not_le inside)]
        exact steps

/-- The block at an address, of which a fault is raised if there is none. -/
def blockAt (base : Nat) : RaiseM Block := do
  orRaise ((← memory).block? base) .noBlock

/-- A block that is there is found. -/
theorem settles_blockAt {base : Nat} {block : Block} (found : m.arena.block? base = some block) :
    Settles (blockAt base) m (.ok block) := by
  have asked := settles_orRaise (m := m) (m.arena.block? base) .noBlock
  rw [found] at asked
  apply settles_memory
  rw [found]
  exact asked

/-- What is done where a range of bytes is; the block that it is in is there once it has been located. -/
theorem Gives.located (layout : m.arena.Layout) {count : Nat} {next : Nat × Nat → RaiseM α}
    {result : Except Fault α × Arena}
    (ok : ∀ block offset, m.arena.locate p count = .ok (block, offset) →
      Settles (blockAt block.base) m (.ok block) → Gives (next (block.base, offset)) m result)
    (error : ∀ fault, m.arena.locate p count = .error fault → result = (.error fault, m.arena)) :
    Gives (span p count >>= next) m result := by
  have start := settles_span (m := m) p count
  cases located : m.arena.locate p count with
  | error fault =>
    rw [located] at start
    rw [error fault located]
    exact Settles.gives_fault start next
  | ok x =>
    obtain ⟨block, offset⟩ := x
    -- a range that has been found lies in a block, which is found again by its address
    obtain ⟨mem, -, -⟩ := layout.locate_eq_ok_iff.mp located
    rw [located] at start
    apply Settles.gives_next start
    exact ok block offset located (settles_blockAt (layout.block?_eq_some_iff.mpr ⟨mem, rfl⟩))

/-! ### Blocks -/

/-- Places a block at the next free address: neither its length, rounded up, nor the gap behind it, nor the address
    after both may be too great. -/
def insert (bytes : List UInt8) : RaiseM Pointer := do
  let a ← memory
  let rounded := (max bytes.length 1 + alignment - 1) / alignment * alignment
  ensure (rounded < addressLimit) .noMemory
  ensure (rounded + alignment < addressLimit) .noMemory
  ensure (a.next + (rounded + alignment) < addressLimit) .noMemory
  setMemory { blocks := a.blocks ++ [⟨a.next, bytes⟩], next := a.next + (rounded + alignment) }
  return ⟨UInt64.ofNat a.next⟩

/-- A block is placed, or refused for want of addresses, as the last of three tests says. -/
theorem gives_insert (bytes : List UInt8) : Gives (insert bytes) m (m.arena.settle (m.arena.insert bytes)) := by
  have steps : Gives (insert bytes) m _ :=
    gives_memory <| Gives.ensure .noMemory fun _ => Gives.ensure .noMemory fun _ => Gives.ensure .noMemory fun _ =>
      gives_setMemory (gives_pure _)
  have reach : (max bytes.length 1 + alignment - 1) / alignment * alignment + alignment =
      Arena.reach bytes.length := rfl
  unfold Arena.insert
  rw [reach] at steps
  -- the last test is the strictest
  by_cases room : m.arena.next + Arena.reach bytes.length < addressLimit
  · rw [if_pos (by omega), if_pos (by omega), if_pos room] at steps
    simp only [if_pos room]
    exact steps
  · simp only [if_neg room]
    rw [if_neg room] at steps
    split at steps
    · split at steps <;> exact steps
    · exact steps

/-- As many zeros, if the host has room for them. -/
def zeroed (grants : Nat → Bool) (size : Nat) : RaiseM (List UInt8) := do
  ensure (grants size = true) .noMemory
  return List.replicate size 0

/-- Zeros are given if the host has room for them. -/
theorem settles_zeroed (grants : Nat → Bool) (size : Nat) :
    Settles (zeroed grants size) m (if grants size = true then .ok (List.replicate size 0) else .error .noMemory) :=
  Settles.ensure .noMemory fun _ => settles_pure _

/-- A new block of zeros. -/
def getMem (grants : Nat → Bool) (size : Int) : RaiseM Pointer := do
  if size ≤ 0 then return .nil
  insert (← zeroed grants size.toNat)

/-- An allocation asks the host first, and then for addresses. -/
theorem gives_getMem (grants : Nat → Bool) (size : Int) :
    Gives (getMem grants size) m (m.arena.settle (m.arena.getMem grants size)) := by
  unfold getMem Arena.getMem
  split
  · exact gives_pure _
  · have steps := settles_zeroed (m := m) grants size.toNat
    cases granted : grants size.toNat with
    | false =>
      rw [granted] at steps
      exact Settles.gives_fault steps _
    | true =>
      rw [granted] at steps
      exact Settles.gives_next steps (gives_insert _)

/-- Releases a block. -/
def freeMem (p : Pointer) : RaiseM Pointer := do
  if p.isNil then return p
  let a ← memory
  let _ ← orRaise (a.block? p.address.toNat) .noBlock
  setMemory (a.erase p.address.toNat)
  return .nil

/-- A release looks for the block that starts at the pointer. -/
theorem gives_freeMem (p : Pointer) : Gives (freeMem p) m (m.arena.settle (m.arena.freeMem p)) := by
  unfold freeMem Arena.freeMem
  split
  · exact gives_pure p
  · apply gives_memory
    have asked := settles_orRaise (m := m) (m.arena.block? p.address.toNat) .noBlock
    cases found : m.arena.block? p.address.toNat with
    | none =>
      rw [found] at asked
      exact Settles.gives_fault asked _
    | some old =>
      rw [found] at asked
      exact Settles.gives_next asked (gives_setMemory (gives_pure Pointer.nil))

/-- A block of another size: the old one goes once there is room for the new one, but before it has an address. -/
def reallocMem (grants : Nat → Bool) (p : Pointer) (size : Int) : RaiseM Pointer := do
  if p.isNil then return ← getMem grants size
  if size ≤ 0 then return ← freeMem p
  ensure (((← memory).block? p.address.toNat).isSome = true) .noBlock
  let grown ← zeroed grants size.toNat
  let a ← memory
  let old ← orRaise (a.block? p.address.toNat) .noBlock
  setMemory (a.erase p.address.toNat)
  let keep := min old.bytes.length size.toNat
  insert (old.bytes.take keep ++ grown.drop keep)

/-- The bytes that are kept, and zeros behind them. -/
theorem take_append_drop_zeros (bytes : List UInt8) (size : Nat) :
    bytes.take (min bytes.length size) ++ (List.replicate size 0).drop (min bytes.length size) =
      Arena.resized bytes size := by
  unfold Arena.resized
  rw [List.drop_replicate]
  rcases Nat.le_total bytes.length size with short | long
  · rw [Nat.min_eq_left short, List.take_length, List.take_of_length_le short]
  · rw [Nat.min_eq_right long, Nat.sub_self, Nat.sub_eq_zero_of_le long]

/-- **A reallocation is its steps**: the host is asked while the old block is still there, and the addresses when it is
    gone. -/
theorem gives_reallocMem (grants : Nat → Bool) (p : Pointer) (size : Int) :
    Gives (reallocMem grants p size) m (m.arena.reallocMem grants p size) := by
  rw [Arena.reallocMem_eq]
  unfold reallocMem
  split
  · exact gives_getMem grants size
  split
  · exact gives_freeMem p
  apply gives_memory
  have asked := settles_orRaise (m := m) (m.arena.block? p.address.toNat) .noBlock
  have room := settles_zeroed (m := m) grants size.toNat
  cases found : m.arena.block? p.address.toNat with
  | none => rfl
  | some old =>
    have base : old.base = p.address.toNat := by simpa using List.find?_some found
    rw [found] at asked
    -- the block is there, and is found again when there is room for the new one
    refine Settles.gives_next (x := ()) rfl ?_
    cases granted : grants size.toNat with
    | false =>
      rw [granted] at room
      exact Settles.gives_fault room _
    | true =>
      rw [granted] at room
      refine Settles.gives_next room (gives_memory ?_)
      rw [found]
      refine Settles.gives_next asked (gives_setMemory ?_)
      show Gives (insert (old.bytes.take (min old.bytes.length size.toNat) ++
        (List.replicate size.toNat 0).drop (min old.bytes.length size.toNat))) _
        ((m.arena.erase old.base).settle ((m.arena.erase old.base).insert (Arena.resized old.bytes size.toNat)))
      -- the bytes that are kept, and zeros behind them
      rw [take_append_drop_zeros, base]
      exact gives_insert _

/-! ### Bytes -/

/-- The bytes from a pointer on. -/
def bytes (p : Pointer) (count : Int) : RaiseM (List UInt8) := do
  if count ≤ 0 then return []
  let (base, offset) ← span p count.toNat
  let block ← blockAt base
  return (block.bytes.drop offset).take count.toNat

/-- Bytes are read, or the fault of their range is raised. -/
theorem settles_bytes (layout : m.arena.Layout) (p : Pointer) (count : Int) :
    Settles (bytes p count) m (m.arena.bytes p count) := by
  unfold bytes Arena.bytes
  split
  · exact settles_pure []
  · apply Gives.settles
    refine Gives.located layout (fun block offset located found => ?_) fun fault none => ?_
    · rw [located]
      exact Settles.gives_next found (gives_pure _)
    · rw [none]
      rfl

/-- Writes bytes into the range of `count` bytes from a pointer on. -/
def change (p : Pointer) (count : Int) (data : List UInt8) : RaiseM Unit := do
  if count ≤ 0 then return
  let (base, offset) ← span p count.toNat
  let block ← blockAt base
  setMemory ((← memory).update base (overwrite block offset data))

/-- The arena after bytes have been written into a range. -/
def changed (a : Arena) (p : Pointer) (count : Int) (data : List UInt8) : Except Fault Arena :=
  if count ≤ 0 then .ok a
  else do
    let (block, offset) ← a.locate p count.toNat
    return a.update block.base (overwrite block offset data)

/-- An operation that only writes. -/
def Writes (program : RaiseM Unit) (m : Machine) (result : Except Fault Arena) : Prop :=
  Gives program m (m.arena.settle (result.map fun a => ((), a)))

/-- Bytes are written, or the fault of their range is raised. -/
theorem writes_change (layout : m.arena.Layout) (p : Pointer) (count : Int) (data : List UInt8) :
    Writes (change p count data) m (changed m.arena p count data) := by
  unfold change changed
  split
  · exact gives_pure ()
  · refine Gives.located layout (fun block offset located found => ?_) fun fault none => ?_
    · rw [located]
      exact Settles.gives_next found (gives_memory (gives_setMemory (gives_pure ())))
    · rw [none]
      rfl

/-- Writes bytes from a pointer on. -/
def store (p : Pointer) (data : List UInt8) : RaiseM Unit := change p data.length data

/-- To store no bytes is always possible. -/
theorem writes_store (layout : m.arena.Layout) (p : Pointer) (data : List UInt8) :
    Writes (store p data) m (m.arena.store p data) := by
  have written := writes_change layout p data.length data
  unfold changed at written
  unfold Arena.store
  cases data with
  | nil => exact written
  | cons b data =>
    rw [if_neg (by simp)] at written
    exact written

/-- Writes a pattern over and over. -/
def fillBytes (p : Pointer) (count : Int) (pattern : List UInt8) : RaiseM Unit :=
  change p count (Arena.repeated pattern count.toNat)

/-- A fill writes its pattern as often as it fits. -/
theorem writes_fillBytes (layout : m.arena.Layout) (p : Pointer) (count : Int) (pattern : List UInt8) :
    Writes (fillBytes p count pattern) m (m.arena.fillBytes p count pattern) :=
  writes_change layout p count (Arena.repeated pattern count.toNat)

/-- Copies bytes inside of a block, or from one block to another through a copy. -/
def moveMem (source dest : Pointer) (count : Int) : RaiseM Unit := do
  if count ≤ 0 then return
  let (base, start) ← span source count.toNat
  let (base', place) ← span dest count.toNat
  if base = base' then
    if let some block := (← memory).block? base then
      setMemory ((← memory).update base (overwrite block place ((block.bytes.drop start).take count.toNat)))
  else
    let copied ← bytes source count
    change dest count copied

/-- **A copy is its steps**, within a block as well as from one to another; the source is looked for first. -/
theorem writes_moveMem (layout : m.arena.Layout) (source dest : Pointer) (count : Int) :
    Writes (moveMem source dest count) m (m.arena.moveMem source dest count) := by
  unfold moveMem Arena.moveMem
  by_cases none : count ≤ 0
  · rw [if_pos none, if_pos none]
    exact gives_pure ()
  rw [if_neg none, if_neg none]
  refine Gives.located layout (fun block start located found => ?_) fun fault none => by rw [none]; rfl
  rw [located]
  refine Gives.located layout (fun block' place located' found' => ?_) fun fault none => by rw [none]; rfl
  rw [located']
  show Gives (if block.base = block'.base then _ else _) m _
  by_cases same : block.base = block'.base
  · -- both ranges lie in the same block
    rw [if_pos same]
    obtain ⟨mem, -, -⟩ := layout.locate_eq_ok_iff.mp located
    obtain ⟨mem', -, -⟩ := layout.locate_eq_ok_iff.mp located'
    cases layout.eq_of_base_eq mem mem' same
    apply gives_memory
    rw [layout.block?_eq_some_iff.mpr ⟨mem, rfl⟩]
    exact gives_memory (gives_setMemory (gives_pure ()))
  · -- the ranges are looked up again, and are found as before
    have copied := settles_bytes layout source count
    have written := writes_change layout dest count ((block.bytes.drop start).take count.toNat)
    rw [if_neg same]
    unfold Arena.bytes at copied
    unfold changed at written
    rw [if_neg none, located] at copied
    rw [if_neg none, located'] at written
    exact Settles.gives_next copied written

/-- The order of two ranges of bytes. -/
def compareMem (p q : Pointer) (count : Int) : RaiseM Int := do
  let x ← bytes p count
  let y ← bytes q count
  return match Ord.compare x y with
    | .lt => -1
    | .eq => 0
    | .gt => 1

/-- A comparison reads both ranges, the first one first. -/
theorem settles_compareMem (layout : m.arena.Layout) (p q : Pointer) (count : Int) :
    Settles (compareMem p q count) m (m.arena.compareMem p q count) :=
  (settles_bytes layout p count).bind fun _ _ => (settles_bytes layout q count).bind fun _ _ => settles_pure _

/-- The byte at a pointer. -/
def readByte (p : Pointer) : RaiseM UInt8 := do
  let (base, offset) ← span p 1
  let block ← blockAt base
  return block.bytes.getD offset 0

/-- A byte is read, or the fault of its place is raised. -/
theorem settles_readByte (layout : m.arena.Layout) (p : Pointer) :
    Settles (readByte p) m (m.arena.readByte p) := by
  unfold readByte Arena.readByte
  apply Gives.settles
  refine Gives.located layout (fun block offset located found => ?_) fun fault none => ?_
  · rw [located]
    exact Settles.gives_next found (gives_pure _)
  · rw [none]
    rfl

/-! ### Calls -/

/-- What becomes of the answer is of no matter to the arena. -/
theorem Gives.map {program : RaiseM α} {result : Except Fault α × Arena} (h : Gives program m result) (g : α → β) :
    Gives (g <$> program) m (result.1.map g, result.2) := by
  obtain ⟨result, a⟩ := result
  unfold Gives
  rw [← bind_pure_comp, exec_bind, h]
  cases result <;> rfl

/-- A program that gives no pointer. -/
def giving (program : RaiseM Unit) : RaiseM (Option Pointer) := do
  program
  return none

/-- A program that only writes has no pointer to give. -/
theorem Writes.gives {program : RaiseM Unit} {result : Except Fault Arena} (h : Writes program m result) :
    Gives (giving program) m (m.arena.writing result) := by
  unfold Gives giving
  rw [exec_bind, h]
  cases result <;> rfl

/-- The calls that may change an arena, step by step. -/
def call : Arena.Call → RaiseM (Option Pointer)
  | .getMem grants size | .allocMem grants size => some <$> getMem grants size
  | .reallocMem grants p size => some <$> reallocMem grants p size
  | .freeMem p => some <$> freeMem p
  | .store p data => giving (store p data)
  | .writeByte p value => giving (store p [value])
  | .fillChar p count value => giving (fillBytes p count [UInt8.ofNat (value % 256).toNat])
  | .fillZero p count => giving (fillBytes p count [0])
  | .fillByte p count value => giving (fillBytes p count [UInt8.ofNat (value.toInt % 256).toNat])
  | .fillWord p count value =>
    giving (fillBytes p (Arena.byteCount count 2) [UInt8.ofNat value.toNat, UInt8.ofNat (value.toNat / 256)])
  | .fillDWord p count value =>
    giving (fillBytes p (Arena.byteCount count 4)
      [UInt8.ofNat value.toNat, UInt8.ofNat (value.toNat / 256), UInt8.ofNat (value.toNat / 65536),
        UInt8.ofNat (value.toNat / 16777216)])
  | .moveMem source dest count => giving (moveMem source dest count)

/-- **A call that raises its faults step by step gives the answer of the call and leaves its arena.** -/
theorem gives_call (layout : m.arena.Layout) (c : Arena.Call) : Gives (call c) m (m.arena.perform c) := by
  cases c with
  | getMem grants size | allocMem grants size => exact (gives_getMem grants size).map some
  | reallocMem grants p size => exact (gives_reallocMem grants p size).map some
  | freeMem p => exact (gives_freeMem p).map some
  | store p data => exact (writes_store layout p data).gives
  | writeByte p value => exact (writes_store layout p [value]).gives
  | fillChar p count value | fillZero p count | fillByte p count value | fillWord p count value
  | fillDWord p count value => exact (writes_fillBytes layout p _ _).gives
  | moveMem source dest count => exact (writes_moveMem layout source dest count).gives

end RaiseM

end SystemUnit
