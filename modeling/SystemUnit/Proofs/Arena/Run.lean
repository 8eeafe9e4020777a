import SystemUnit.Proofs.Arena.Layout

namespace SystemUnit

namespace Arena

/-!
# Calls and runs

A run is a list of calls, each made in the arena that the calls before it left.  A call that fails leaves the
arena as it was, but for a reallocation.

* `Call`, `perform` — the calls that may change an arena, and what each answers and leaves;
* `after`, `trace` — the arena after a run, and the answers on the way;
* `getMem_eq_ok`, `freeMem_eq_ok`, `reallocation`, `Layout.store_eq_ok`, `Layout.fillBytes_eq_ok`,
  `Layout.moveMem_eq_ok` — what each operation does where it succeeds;
* `Change`, `Layout.change` — the five things that a call can do to an arena, which all keep the layout;
* `layout_after` — hence every arena of a run has the layout.
-/

variable {a a' : Arena} {b : Block} {p q : Pointer}

/-! ### Calls -/

/-- The calls that may change an arena.  What the host has room for may differ from call to call. -/
inductive Call where
  | getMem (grants : Nat → Bool) (size : Int)
  | allocMem (grants : Nat → Bool) (size : Int)
  | reallocMem (grants : Nat → Bool) (p : Pointer) (size : Int)
  | freeMem (p : Pointer)
  | store (p : Pointer) (data : List UInt8)
  | writeByte (p : Pointer) (value : UInt8)
  | fillChar (p : Pointer) (count value : Int)
  | fillZero (p : Pointer) (count : Int)
  | fillByte (p : Pointer) (count : Int) (value : Whole .byte)
  | fillWord (p : Pointer) (count : Int) (value : Whole .word)
  | fillDWord (p : Pointer) (count : Int) (value : Whole .cardinal)
  | moveMem (source dest : Pointer) (count : Int)

/-- The answer of a call: the pointer that it gives, if it is one that gives a pointer, or a fault. -/
abbrev Answer := Except Fault (Option Pointer)

/-- A result with the arena that it leaves; a fault leaves the arena as it was. -/
def settle {α : Type} (a : Arena) : Except Fault (α × Arena) → Except Fault α × Arena
  | .ok (x, a') => (.ok x, a')
  | .error fault => (.error fault, a)

/-- The answer of a call that gives a pointer. -/
def pointing (result : Except Fault Pointer × Arena) : Answer × Arena :=
  (result.1.map some, result.2)

/-- The answer of a call that only writes. -/
def writing (a : Arena) (result : Except Fault Arena) : Answer × Arena :=
  a.settle (result.map fun a' => (none, a'))

/-- The answer of a call, and the arena after it. -/
def perform (a : Arena) : Call → Answer × Arena
  | .getMem grants size => pointing (a.settle (a.getMem grants size))
  | .allocMem grants size => pointing (a.settle (a.allocMem grants size))
  | .reallocMem grants p size => pointing (a.reallocMem grants p size)
  | .freeMem p => pointing (a.settle (a.freeMem p))
  | .store p data => a.writing (a.store p data)
  | .writeByte p value => a.writing (a.writeByte p value)
  | .fillChar p count value => a.writing (a.fillChar p count value)
  | .fillZero p count => a.writing (a.fillZero p count)
  | .fillByte p count value => a.writing (a.fillByte p count value)
  | .fillWord p count value => a.writing (a.fillWord p count value)
  | .fillDWord p count value => a.writing (a.fillDWord p count value)
  | .moveMem source dest count => a.writing (a.moveMem source dest count)

/-- The arena after calls one after another. -/
def after (a : Arena) : List Call → Arena
  | [] => a
  | call :: calls => (a.perform call).2.after calls

/-- Calls one after another, each with its answer. -/
def trace (a : Arena) : List Call → List (Call × Answer)
  | [] => []
  | call :: calls => (call, (a.perform call).1) :: (a.perform call).2.trace calls

/-! ### What the operations do -/

/-- An allocation gives nil for no bytes, and else a block of zeros at the next free address. -/
theorem getMem_eq_ok {grants : Nat → Bool} {size : Int} (h : a.getMem grants size = .ok (p, a')) :
    size ≤ 0 ∧ p = .nil ∧ a' = a ∨
      0 < size ∧ a.next + reach size.toNat < addressLimit ∧ p = ⟨UInt64.ofNat a.next⟩ ∧
        a' = a.place (List.replicate size.toNat 0) := by
  unfold getMem at h
  -- no bytes, then what the host refuses, then what has no address left
  split at h
  · cases h
    exact .inl ⟨by assumption, rfl, rfl⟩
  split at h
  · obtain ⟨room, hp, ha'⟩ := insert_eq_ok_iff.mp h
    rw [List.length_replicate] at room
    exact .inr ⟨by omega, room, hp, ha'⟩
  · cases h

/-- A release removes the block that starts at the pointer and gives nil; nil stays nil. -/
theorem freeMem_eq_ok (h : a.freeMem p = .ok (q, a')) :
    q = .nil ∧ (p = .nil ∧ a' = a ∨
      p.isNil = false ∧ (∃ b, a.block? p.address.toNat = some b) ∧ a' = a.erase p.address.toNat) := by
  unfold freeMem at h
  split at h
  · rename_i nil
    cases h
    have eq_nil := Pointer.isNil_iff.mp nil
    exact ⟨eq_nil, .inl ⟨eq_nil, rfl⟩⟩
  rename_i live
  split at h
  · cases h
  rename_i found
  cases h
  refine ⟨rfl, .inr ⟨by simpa using live, ?_, rfl⟩⟩
  exact Option.ne_none_iff_exists'.mp (by simpa using found)

/-- The bytes of a block of another size. -/
def resized (bytes : List UInt8) (size : Nat) : List UInt8 :=
  bytes.take size ++ List.replicate (size - bytes.length) 0

/-- A block of another size has that size. -/
theorem length_resized (bytes : List UInt8) (size : Nat) : (resized bytes size).length = size := by
  unfold resized
  rw [List.length_append, List.length_take, List.length_replicate]
  omega

/-- A reallocation by its cases. -/
theorem reallocMem_eq (a : Arena) (grants : Nat → Bool) (p : Pointer) (size : Int) :
    a.reallocMem grants p size =
      if p.isNil then a.settle (a.getMem grants size)
      else if size ≤ 0 then a.settle (a.freeMem p)
      else
        match a.block? p.address.toNat with
        | none => (.error .noBlock, a)
        | some old =>
          if grants size.toNat then
            (a.erase old.base).settle ((a.erase old.base).insert (resized old.bytes size.toNat))
          else (.error .noMemory, a) := by
  unfold reallocMem resized
  simp only
  split
  · cases a.getMem grants size <;> rfl
  split
  · cases a.freeMem p <;> rfl
  cases a.block? p.address.toNat with
  | none => rfl
  | some old =>
    simp only
    split
    · cases
          (a.erase old.base).insert (old.bytes.take size.toNat ++ List.replicate (size.toNat - old.bytes.length) 0) <;>
        rfl
    · rfl

/-- What a reallocation does and answers.  It allocates through nil, releases for no bytes, and else moves a
    live block; where it fails it leaves all as it was, or has lost the block. -/
inductive Reallocation (a : Arena) (grants : Nat → Bool) (p : Pointer) (size : Int) :
    Except Fault Pointer × Arena → Prop where
  | get {q : Pointer} {a' : Arena} (nil : p = .nil) (got : a.getMem grants size = .ok (q, a')) :
      Reallocation a grants p size (.ok q, a')
  | free {q : Pointer} {a' : Arena} (live : p ≠ .nil) (none : size ≤ 0) (freed : a.freeMem p = .ok (q, a')) :
      Reallocation a grants p size (.ok q, a')
  | move {old : Block} (pos : 0 < size) (found : a.block? p.address.toNat = some old)
      (room : a.next + reach size.toNat < addressLimit) :
      Reallocation a grants p size
        (.ok ⟨UInt64.ofNat a.next⟩, (a.erase old.base).place (resized old.bytes size.toNat))
  | keep (fault : Fault) : Reallocation a grants p size (.error fault, a)
  | lose {old : Block} (fault : Fault) (pos : 0 < size) (found : a.block? p.address.toNat = some old) :
      Reallocation a grants p size (.error fault, a.erase old.base)

/-- **A reallocation does and answers nothing else.** -/
theorem reallocation (a : Arena) (grants : Nat → Bool) (p : Pointer) (size : Int) :
    a.Reallocation grants p size (a.reallocMem grants p size) := by
  rw [reallocMem_eq]
  split
  · rename_i nil
    cases got : a.getMem grants size with
    | ok place => exact .get (Pointer.isNil_iff.mp nil) got
    | error fault => exact .keep fault
  rename_i live
  split
  · cases freed : a.freeMem p with
    | ok place => exact .free (fun nil => live (Pointer.isNil_iff.mpr nil)) (by assumption) freed
    | error fault => exact .keep fault
  have pos : 0 < size := by omega
  split
  · exact .keep _
  rename_i old found
  split
  · -- the block is released first, so that it is lost if there is no address for the new one
    cases inserted : (a.erase old.base).insert (resized old.bytes size.toNat) with
    | ok place =>
      obtain ⟨room, hq, ha'⟩ := insert_eq_ok_iff.mp inserted
      rw [length_resized] at room
      have moved : a.Reallocation grants p size _ := .move pos found room
      show a.Reallocation grants p size (.ok place.1, place.2)
      rw [hq, ha']
      exact moved
    | error fault => exact .lose fault pos found
  · exact .keep _

/-- In `a'` the bytes `data` stand at an address, in a block of `a` that has room for them there. -/
def Overwrites (a : Arena) (address : Nat) (data : List UInt8) (a' : Arena) : Prop :=
  ∃ b ∈ a.blocks, ∃ offset, address = b.base + offset ∧ offset + data.length ≤ b.bytes.length ∧
    a' = a.update b.base (overwrite b offset data)

/-- A block is as long after bytes have been written into it as before. -/
theorem length_overwrite {offset : Nat} {data : List UInt8}
    (fits : offset + data.length ≤ b.bytes.length) :
    (overwrite b offset data).length = b.bytes.length := by
  unfold overwrite
  simp only [List.length_append, List.length_take, List.length_drop]
  omega

/-- Bytes that are stored go to one live block, or are none. -/
theorem Layout.store_eq_ok (layout : a.Layout) {data : List UInt8} (h : a.store p data = .ok a') :
    data = [] ∧ a' = a ∨ a.Overwrites p.address.toNat data a' := by
  unfold store at h
  split at h
  · rename_i none
    cases h
    exact .inl ⟨by simpa using none, rfl⟩
  obtain ⟨⟨b, offset⟩, found, updated⟩ := bind_eq_ok h
  cases updated
  obtain ⟨hb, at_offset, fits⟩ := layout.locate_eq_ok_iff.mp found
  exact .inr ⟨b, hb, offset, at_offset, fits, rfl⟩

/-- A pattern over and over, as often as it fits into `count` bytes. -/
def repeated (pattern : List UInt8) (count : Nat) : List UInt8 :=
  (List.replicate (count / pattern.length) pattern).flatten

/-- A pattern goes no further than the count. -/
theorem length_repeated_le (pattern : List UInt8) (count : Nat) :
    (repeated pattern count).length ≤ count := by
  unfold repeated
  rw [List.length_flatten, List.map_replicate, List.sum_replicate_nat]
  exact Nat.div_mul_le_self _ _

/-- A pattern of one byte fits exactly. -/
theorem repeated_singleton (value : UInt8) (count : Nat) :
    repeated [value] count = List.replicate count value := by
  unfold repeated
  rw [List.length_singleton, Nat.div_one]
  -- one copy for each byte
  induction count with
  | zero => rfl
  | succ count ih => rw [List.replicate_succ, List.flatten_cons, ih, List.replicate_succ]; rfl

/-- A fill writes its pattern into one live block, or does nothing for a count of none. -/
theorem Layout.fillBytes_eq_ok (layout : a.Layout) {count : Int} {pattern : List UInt8}
    (h : a.fillBytes p count pattern = .ok a') :
    count ≤ 0 ∧ a' = a ∨ 0 < count ∧ a.Overwrites p.address.toNat (repeated pattern count.toNat) a' := by
  unfold fillBytes at h
  split at h
  · cases h
    exact .inl ⟨by assumption, rfl⟩
  obtain ⟨⟨b, offset⟩, found, updated⟩ := bind_eq_ok h
  cases updated
  obtain ⟨hb, at_offset, fits⟩ := layout.locate_eq_ok_iff.mp found
  have bound := length_repeated_le pattern count.toNat
  exact .inr ⟨by omega, b, hb, offset, at_offset, by omega, rfl⟩

/-- A copy reads all of its source before it writes. -/
theorem Layout.moveMem_eq_ok (layout : a.Layout) {count : Int} (h : a.moveMem p q count = .ok a') :
    count ≤ 0 ∧ a' = a ∨
      0 < count ∧ ∃ b ∈ a.blocks, ∃ start, p.address.toNat = b.base + start ∧
        start + count.toNat ≤ b.bytes.length ∧
        a.Overwrites q.address.toNat ((b.bytes.drop start).take count.toNat) a' := by
  unfold moveMem at h
  split at h
  · cases h
    exact .inl ⟨by assumption, rfl⟩
  -- the source is looked up before the destination
  obtain ⟨⟨b, start⟩, found, rest⟩ := bind_eq_ok h
  obtain ⟨⟨c, offset⟩, found', updated⟩ := bind_eq_ok rest
  cases updated
  obtain ⟨hb, at_start, fits⟩ := layout.locate_eq_ok_iff.mp found
  obtain ⟨hc, at_offset, fits'⟩ := layout.locate_eq_ok_iff.mp found'
  refine .inr ⟨by omega, b, hb, start, at_start, fits, c, hc, offset, at_offset, ?_, rfl⟩
  rw [List.length_take, List.length_drop]
  omega

/-! ### What a call can do to an arena -/

/-- The changes that calls make: none; a new block; one block less; the same and a new block; other bytes in
    a block. -/
inductive Change (a : Arena) : Arena → Prop where
  | keep : Change a a
  | place {bytes : List UInt8} (nonempty : 0 < bytes.length)
      (room : a.next + reach bytes.length < addressLimit) : Change a (a.place bytes)
  | erase (address : Nat) : Change a (a.erase address)
  | replace (address : Nat) {bytes : List UInt8} (nonempty : 0 < bytes.length)
      (room : a.next + reach bytes.length < addressLimit) : Change a ((a.erase address).place bytes)
  | update {b : Block} (hb : b ∈ a.blocks) {bytes : List UInt8}
      (length_eq : bytes.length = b.bytes.length) : Change a (a.update b.base bytes)

/-- Bytes that are written keep the length of their block, and change no other one. -/
theorem Overwrites.change {address : Nat} {data : List UInt8} (h : a.Overwrites address data a') :
    Change a a' := by
  obtain ⟨b, hb, offset, -, fits, rfl⟩ := h
  exact .update hb (length_overwrite fits)

/-- What holds of every answer and arena that a result stands for holds of the settled result. -/
theorem pointing_settle {result : Except Fault (Pointer × Arena)} {motive : Answer × Arena → Prop}
    (ok : ∀ p a', result = .ok (p, a') → motive (.ok (some p), a'))
    (error : ∀ fault, result = .error fault → motive (.error fault, a)) :
    motive (pointing (a.settle result)) := by
  cases result with
  | ok place => exact ok _ _ rfl
  | error fault => exact error fault rfl

/-- The same for a call that only writes. -/
theorem writing_cases {result : Except Fault Arena} {motive : Answer × Arena → Prop}
    (ok : ∀ a', result = .ok a' → motive (.ok none, a'))
    (error : ∀ fault, result = .error fault → motive (.error fault, a)) :
    motive (a.writing result) := by
  cases result with
  | ok a' => exact ok a' rfl
  | error fault => exact error fault rfl

/-- An allocation places a block, or nothing. -/
theorem getMem_change {grants : Nat → Bool} {size : Int} (h : a.getMem grants size = .ok (p, a')) :
    Change a a' := by
  rcases getMem_eq_ok h with ⟨-, -, rfl⟩ | ⟨pos, room, -, rfl⟩
  · exact .keep
  · have length_eq : (List.replicate size.toNat (0 : UInt8)).length = size.toNat := List.length_replicate
    exact .place (by omega) (by rw [length_eq]; exact room)

/-- A release takes a block away, or does nothing through nil. -/
theorem freeMem_change (h : a.freeMem p = .ok (q, a')) : Change a a' := by
  obtain ⟨-, ⟨-, rfl⟩ | ⟨-, -, rfl⟩⟩ := freeMem_eq_ok h
  · exact .keep
  · exact .erase _

/-- A reallocation takes the old block away and places the new one, or does one of the two, or neither. -/
theorem Reallocation.change {grants : Nat → Bool} {size : Int} {result : Except Fault Pointer × Arena}
    (h : a.Reallocation grants p size result) : Change a result.2 := by
  cases h with
  | get nil got => exact getMem_change got
  | free live none freed => exact freeMem_change freed
  | move pos found room =>
    have length_eq := length_resized
    exact .replace _ (by rw [length_eq]; omega) (by rw [length_eq]; exact room)
  | keep fault => exact .keep
  | lose fault pos found => exact .erase _

/-- **Every call makes one of the changes.** -/
theorem Layout.perform_change (layout : a.Layout) (call : Call) : Change a (a.perform call).2 := by
  -- the fills differ in their patterns, and not in what they change
  have fill : ∀ {p : Pointer} {count : Int} {pattern : List UInt8} {a' : Arena},
      a.fillBytes p count pattern = .ok a' → Change a a' := by
    intro p count pattern a' h
    rcases layout.fillBytes_eq_ok h with ⟨-, rfl⟩ | ⟨-, written⟩
    · exact .keep
    · exact written.change
  have store : ∀ {p : Pointer} {data : List UInt8} {a' : Arena},
      a.store p data = .ok a' → Change a a' := by
    intro p data a' h
    rcases layout.store_eq_ok h with ⟨-, rfl⟩ | written
    · exact .keep
    · exact written.change
  cases call with
  | getMem grants size | allocMem grants size =>
    exact pointing_settle (motive := fun r => Change a r.2) (fun _ _ h => getMem_change h) fun _ _ => .keep
  | reallocMem grants p size => exact (reallocation a grants p size).change
  | freeMem p =>
    exact pointing_settle (motive := fun r => Change a r.2) (fun _ _ h => freeMem_change h) fun _ _ => .keep
  | store p data | writeByte p value =>
    exact writing_cases (motive := fun r => Change a r.2) (fun _ h => store h) fun _ _ => .keep
  | fillChar p count value | fillZero p count | fillByte p count value | fillWord p count value
  | fillDWord p count value =>
    exact writing_cases (motive := fun r => Change a r.2) (fun _ h => fill h) fun _ _ => .keep
  | moveMem source dest count =>
    refine writing_cases (motive := fun r => Change a r.2) (fun _ h => ?_) fun _ _ => .keep
    rcases layout.moveMem_eq_ok h with ⟨-, rfl⟩ | ⟨-, _, _, _, _, _, written⟩
    · exact .keep
    · exact written.change

/-! ### Runs -/

/-- Each of the changes keeps the layout. -/
theorem Layout.change (layout : a.Layout) (h : Change a a') : a'.Layout := by
  cases h with
  | keep => exact layout
  | place nonempty room => exact layout.place nonempty room
  | erase address => exact layout.erase address
  | replace address nonempty room => exact (layout.erase address).place nonempty room
  | update hb length_eq => exact layout.update hb length_eq

/-- So does each call. -/
theorem Layout.perform (layout : a.Layout) (call : Call) : (a.perform call).2.Layout :=
  layout.change (layout.perform_change call)

/-- So does each run. -/
theorem Layout.after (layout : a.Layout) (calls : List Call) : (a.after calls).Layout := by
  induction calls generalizing a with
  | nil => exact layout
  | cons call calls ih => exact ih (layout.perform call)

/-- Calls after calls are all of them in one run. -/
theorem after_append (a : Arena) (calls later : List Call) :
    a.after (calls ++ later) = (a.after calls).after later := by
  induction calls generalizing a with
  | nil => rfl
  | cons call calls ih => exact ih (a.perform call).2

/-- Every arena that calls can make of the empty one has the layout. -/
theorem layout_after (calls : List Call) : (Arena.empty.after calls).Layout :=
  Layout.empty.after calls

end Arena

end SystemUnit
