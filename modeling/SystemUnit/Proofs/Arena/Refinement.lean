import SystemUnit.Proofs.Arena.View

namespace SystemUnit

namespace Arena

/-!
# Runs of an arena and of its store

* `Layout.step` — a call that succeeds has its effect on the store, and no other;
* `Layout.answer_of_effect` — a call in place succeeds where the store allows its effect;
* `Layout.readByte_eq_ok_iff` — reading gives the byte that the store has;
* `HasRoom`, `getMem_isOk`, `reallocMem_nil_isOk`, `Layout.reallocMem_isOk` — allocations and reallocations succeed
  where there is room;
* `run_refines_store` — every run of an arena is a run of its store.
-/

variable {a a' : Arena} {b : Block} {p q : Pointer}

/-! ### The effect of a call -/

/-- Nothing stands at the addresses from the next free one on. -/
theorem Layout.vacant_next (layout : a.Layout) {count : Nat}
    (room : a.next + reach count < addressLimit) : a.view.Vacant ⟨UInt64.ofNat a.next⟩ count := by
  have at_next : ((⟨UInt64.ofNat a.next⟩ : Pointer).address).toNat = a.next := layout.toNat_next
  have reach_count := lt_reach count
  refine ⟨isNil_of_le ?_, ?_, ?_⟩
  · rw [at_next]
    exact layout.base_le_next
  · rw [at_next]
    omega
  · intro q le _
    rw [at_next] at le
    refine byte_of_outside fun b hb => .inr ?_
    have := layout.reach_le b hb
    have := lt_reach b.bytes.length
    omega

/-- A byte of a block of another size is the old one, as far as both blocks go, and zero beyond. -/
theorem getElem?_resized {bytes : List UInt8} {size i : Nat} (lt : i < size) :
    (resized bytes size)[i]? = if i < min bytes.length size then bytes[i]? else some 0 := by
  unfold resized
  by_cases kept : i < min bytes.length size
  · rw [if_pos kept, List.getElem?_append_left (by rw [List.length_take]; omega),
      List.getElem?_take_of_lt lt]
  · have length_take : (bytes.take size).length = bytes.length := by rw [List.length_take]; omega
    rw [if_neg kept, List.getElem?_append_right (by omega), length_take, List.getElem?_replicate,
      if_pos (by omega)]

/-- An allocation adds a block of zeros, or nothing if it is for no bytes. -/
theorem Layout.getMem_effect (layout : a.Layout) {grants : Nat → Bool} {size : Int}
    (h : a.getMem grants size = .ok (p, a')) :
    a.view.Effect (.getMem grants size) (some p) a'.view := by
  rcases getMem_eq_ok h with ⟨none, rfl, rfl⟩ | ⟨pos, room, rfl, rfl⟩
  · exact .getNone none
  · have length_eq : (List.replicate size.toNat (0 : UInt8)).length = size.toNat := List.length_replicate
    have placed : (a.place (List.replicate size.toNat 0)).view = _ :=
      layout.view_place (by omega) (by rw [length_eq]; exact room)
    -- the list of zeros, seen address by address
    have zeros : a.view.add a.next size.toNat ((List.replicate size.toNat (0 : UInt8))[·]?) =
        a.view.add a.next size.toNat fun _ => some 0 :=
      Store.add_congr fun i hi => by rw [List.getElem?_replicate, if_pos hi]
    rw [placed, length_eq, zeros]
    have get : a.view.Effect (.getMem grants size) _ _ := .get pos (layout.vacant_next room)
    rw [show (⟨UInt64.ofNat a.next⟩ : Pointer).address.toNat = a.next from layout.toNat_next] at get
    exact get

/-- A release removes the block that starts at the pointer, and does nothing through nil. -/
theorem Layout.freeMem_effect (layout : a.Layout) (h : a.freeMem p = .ok (q, a')) :
    a.view.Effect (.freeMem p) (some q) a'.view := by
  obtain ⟨rfl, ⟨rfl, rfl⟩ | ⟨-, ⟨b, found⟩, rfl⟩⟩ := freeMem_eq_ok h
  · exact .freeNil
  · obtain ⟨hb, base_eq⟩ := layout.block?_eq_some_iff.mp found
    rw [← base_eq, layout.view_erase hb, base_eq]
    exact .free (layout.size_eq_some_iff.mpr ⟨b, hb, base_eq, rfl⟩)

/-- A block that moves keeps its bytes, as far as both the old and the new one go. -/
theorem Layout.move_effect (layout : a.Layout) {grants : Nat → Bool} {size : Int} (pos : 0 < size)
    (found : a.block? p.address.toNat = some b) (room : a.next + reach size.toNat < addressLimit) :
    a.view.Effect (.reallocMem grants p size) (some ⟨UInt64.ofNat a.next⟩)
      ((a.erase b.base).place (resized b.bytes size.toNat)).view := by
  obtain ⟨hb, base_eq⟩ := layout.block?_eq_some_iff.mp found
  have live : a.view.size p.address.toNat = some b.bytes.length :=
    layout.size_eq_some_iff.mpr ⟨b, hb, base_eq, rfl⟩
  have removed : (a.erase b.base).view = a.view.remove p.address.toNat b.bytes.length := by
    rw [layout.view_erase hb, base_eq]
  -- each byte of the new block is the one at its old address, or zero
  have content : ∀ i < size.toNat, (resized b.bytes size.toNat)[i]? =
      if i < min b.bytes.length size.toNat then a.view.byte (p.address.toNat + i) else some 0 := by
    intro i hi
    rw [getElem?_resized hi]
    split
    · rw [layout.byte_of_mem hb (by omega) (by omega)]
      congr 1
      omega
    · rfl
  -- the old block is gone when the new one is placed
  have rest := layout.erase b.base
  have length_eq := length_resized b.bytes size.toNat
  have placed := rest.view_place (by rw [length_eq]; omega) (by rw [length_eq]; exact room)
  have vacant := rest.vacant_next room
  rw [removed] at placed vacant
  rw [length_eq, Store.add_congr content] at placed
  have moved : a.view.Effect (.reallocMem grants p size) _ _ := .realloc pos live vacant
  rw [show (⟨UInt64.ofNat (a.erase b.base).next⟩ : Pointer).address.toNat = (a.erase b.base).next from
    rest.toNat_next, ← placed] at moved
  exact moved

/-- A reallocation has the effect of an allocation, of a release or of a move; where it fails its block may be lost. -/
theorem Layout.reallocMem_step (layout : a.Layout) (grants : Nat → Bool) (p : Pointer) (size : Int) :
    a.view.Step (.reallocMem grants p size) ((a.reallocMem grants p size).1.map some)
      (a.reallocMem grants p size).2.view := by
  have outcome := reallocation a grants p size
  generalize a.reallocMem grants p size = result at outcome ⊢
  cases outcome with
  | get nil got =>
    rw [nil]
    exact .ok (.reallocNil (layout.getMem_effect got))
  | free live none freed => exact .ok (.reallocNone live none (layout.freeMem_effect freed))
  | move pos found room => exact .ok (layout.move_effect pos found room)
  | keep fault => exact .error .keep
  | @lose b fault pos found =>
    obtain ⟨hb, base_eq⟩ := layout.block?_eq_some_iff.mp found
    have live : a.view.size b.base = some b.bytes.length := layout.size_eq_some_iff.mpr ⟨b, hb, rfl, rfl⟩
    rw [layout.view_erase hb]
    rw [base_eq] at live ⊢
    exact .error (.lose pos live)

/-- A copy puts the bytes of the source at the place of the destination. -/
theorem Layout.moveMem_effect (layout : a.Layout) {count : Int} (h : a.moveMem p q count = .ok a') :
    a.view.Effect (.moveMem p q count) none a'.view := by
  rcases layout.moveMem_eq_ok h with ⟨none, rfl⟩ | ⟨pos, b, hb, start, at_start, fits, written⟩
  · have zero : count.toNat = 0 := by omega
    have move : a'.view.Effect (.moveMem p q count) _ _ := .moveMem (.inl zero) (.inl zero)
    rw [zero] at move
    rw [Store.patch_zero] at move
    exact move
  · obtain ⟨to_dest, view_eq⟩ := layout.view_overwrites written
    have length_eq : ((b.bytes.drop start).take count.toNat).length = count.toNat := by
      rw [List.length_take, List.length_drop]
      omega
    -- the bytes are read before any is written, and so they are those of the store before
    have content : ∀ i < count.toNat, ((b.bytes.drop start).take count.toNat)[i]? =
        a.view.byte (p.address.toNat + i) := by
      intro i hi
      rw [List.getElem?_take_of_lt hi, List.getElem?_drop, layout.byte_of_mem hb (by omega) (by omega)]
      congr 1
      omega
    rw [view_eq, Store.write, length_eq, Store.patch_congr content]
    rw [length_eq] at to_dest
    exact .moveMem (by rw [at_start]; exact layout.within_view hb fits) to_dest

/-- Bytes that are stored are written from the pointer on. -/
theorem Layout.store_writes (layout : a.Layout) {data : List UInt8} (h : a.store p data = .ok a') :
    a.view.Writes p data a'.view := by
  rcases layout.store_eq_ok h with ⟨rfl, rfl⟩ | written
  · exact Store.writes_nil p
  · exact layout.view_overwrites written

/-- A fill with a byte writes it as often as the count says. -/
theorem Layout.fillChar_writes (layout : a.Layout) {count value : Int}
    (h : a.fillChar p count value = .ok a') :
    a.view.Writes p (List.replicate count.toNat (UInt8.ofInt value)) a'.view := by
  rcases layout.fillBytes_eq_ok h with ⟨none, rfl⟩ | ⟨-, written⟩
  · rw [show count.toNat = 0 by omega]
    exact Store.writes_nil p
  · rw [repeated_singleton] at written
    exact layout.view_overwrites written

/-- The byte of a number, from the number with its sign. -/
theorem ofInt_toInt_byte (value : Whole .byte) : UInt8.ofInt value.toInt = UInt8.ofNat value.toNat := by
  have toInt_eq : value.toInt = (value.toNat : Int) := rfl
  rw [toInt_eq]
  exact UInt8.ofNat_mod_size

/-- A fill with words has the bytes of the word for its pattern. -/
theorem fillWord_eq (a : Arena) (p : Pointer) (count : Int) (value : Whole .word) :
    a.fillWord p count value = a.fillBytes p (byteCount count 2) (Bytes.ofNat 2 value.toNat) := by
  rw [Bytes.ofNat_succ, Bytes.ofNat_succ]
  rfl

/-- A fill with double words has their bytes for its pattern. -/
theorem fillDWord_eq (a : Arena) (p : Pointer) (count : Int) (value : Whole .cardinal) :
    a.fillDWord p count value = a.fillBytes p (byteCount count 4) (Bytes.ofNat 4 value.toNat) := by
  rw [Bytes.ofNat_succ, Bytes.ofNat_succ, Bytes.ofNat_succ, Bytes.ofNat_succ, Nat.div_div_eq_div_mul,
    Nat.div_div_eq_div_mul]
  rfl

/-- A fill writes its pattern over and over into some number of bytes. -/
theorem Layout.fillBytes_writes (layout : a.Layout) {count : Int} {pattern : List UInt8}
    (h : a.fillBytes p count pattern = .ok a') :
    ∃ size, a.view.Writes p (repeated pattern size) a'.view := by
  rcases layout.fillBytes_eq_ok h with ⟨-, rfl⟩ | ⟨-, written⟩
  · refine ⟨0, ?_⟩
    rw [show repeated pattern 0 = [] by simp [repeated]]
    exact Store.writes_nil p
  · exact ⟨_, layout.view_overwrites written⟩

/-- **Every call is a step of the store.** -/
theorem Layout.step (layout : a.Layout) (call : Call) :
    a.view.Step call (a.perform call).1 (a.perform call).2.view := by
  cases call with
  | getMem grants size =>
    exact pointing_settle (motive := fun r => a.view.Step _ r.1 r.2.view)
      (fun _ _ h => .ok (layout.getMem_effect h)) fun _ _ => .error .keep
  | allocMem grants size =>
    exact pointing_settle (motive := fun r => a.view.Step _ r.1 r.2.view)
      (fun _ _ h => .ok (.alloc (layout.getMem_effect h))) fun _ _ => .error .keep
  | reallocMem grants p size => exact layout.reallocMem_step grants p size
  | freeMem p =>
    exact pointing_settle (motive := fun r => a.view.Step _ r.1 r.2.view)
      (fun _ _ h => .ok (layout.freeMem_effect h)) fun _ _ => .error .keep
  | store p data =>
    exact writing_cases (motive := fun r => a.view.Step _ r.1 r.2.view)
      (fun _ h => .ok (.store (layout.store_writes h))) fun _ _ => .error .keep
  | writeByte p value =>
    exact writing_cases (motive := fun r => a.view.Step _ r.1 r.2.view)
      (fun _ h => .ok (.writeByte (layout.store_writes h))) fun _ _ => .error .keep
  | fillChar p count value =>
    exact writing_cases (motive := fun r => a.view.Step _ r.1 r.2.view)
      (fun _ h => .ok (.fillChar (layout.fillChar_writes h))) fun _ _ => .error .keep
  | fillZero p count =>
    exact writing_cases (motive := fun r => a.view.Step _ r.1 r.2.view)
      (fun _ h => .ok (.fillZero (layout.fillChar_writes h))) fun _ _ => .error .keep
  | fillByte p count value =>
    refine writing_cases (motive := fun r => a.view.Step _ r.1 r.2.view)
      (fun _ h => .ok (.fillByte ?_)) fun _ _ => .error .keep
    rw [← ofInt_toInt_byte]
    exact layout.fillChar_writes h
  | fillWord p count value =>
    refine writing_cases (motive := fun r => a.view.Step _ r.1 r.2.view)
      (fun _ h => ?_) fun _ _ => .error .keep
    rw [fillWord_eq] at h
    obtain ⟨size, written⟩ := layout.fillBytes_writes h
    exact .ok (.fillWord written)
  | fillDWord p count value =>
    refine writing_cases (motive := fun r => a.view.Step _ r.1 r.2.view)
      (fun _ h => ?_) fun _ _ => .error .keep
    rw [fillDWord_eq] at h
    obtain ⟨size, written⟩ := layout.fillBytes_writes h
    exact .ok (.fillDWord written)
  | moveMem source dest count =>
    exact writing_cases (motive := fun r => a.view.Step _ r.1 r.2.view)
      (fun _ h => .ok (layout.moveMem_effect h)) fun _ _ => .error .keep

/-! ### Runs -/

/-- A byte is read exactly where the store has it. -/
theorem Layout.readByte_eq_ok_iff (layout : a.Layout) {v : UInt8} :
    a.readByte p = .ok v ↔ a.view.byte p.address.toNat = some v := by
  rw [layout.byte_eq_some_iff]
  constructor
  · intro h
    obtain ⟨⟨b, offset⟩, found, read⟩ := bind_eq_ok h
    obtain ⟨hb, at_offset, fits⟩ := layout.locate_eq_ok_iff.mp found
    cases read
    refine ⟨b, hb, by omega, ?_⟩
    rw [at_offset, Nat.add_sub_cancel_left, List.getD_eq_getElem?_getD,
      List.getElem?_eq_getElem (by omega)]
    rfl
  · rintro ⟨b, hb, le, at_offset⟩
    -- a byte that is there lies in the block, and so the access does
    have lt := (List.getElem?_eq_some_iff.mp at_offset).1
    have found : a.locate p 1 = .ok (b, p.address.toNat - b.base) :=
      layout.locate_eq_ok_iff.mpr ⟨hb, by omega, by omega⟩
    rw [readByte, found]
    show Except.ok (b.bytes.getD (p.address.toNat - b.base) 0) = .ok v
    rw [List.getD_eq_getElem?_getD, at_offset]
    rfl

/-- **Every run of an arena is a run of its store**, from its own store on. -/
theorem Layout.run (layout : a.Layout) (calls : List Call) :
    Store.Run a.view (a.trace calls) (a.after calls).view := by
  induction calls generalizing a with
  | nil => exact .nil
  | cons call calls ih => exact .cons (layout.step call) (ih (layout.perform call))

/-! ### Progress -/

/-- The calls that work on blocks that are there, and so need neither room nor an address. -/
def Call.isInPlace : Call → Bool
  | .freeMem _ | .store _ _ | .writeByte _ _ | .fillChar _ _ _ | .fillZero _ _ | .fillByte _ _ _
  | .moveMem _ _ _ => true
  | .getMem _ _ | .allocMem _ _ | .reallocMem _ _ _ | .fillWord _ _ _ | .fillDWord _ _ _ => false

/-- A range that is not empty is found where the store has it in one block. -/
theorem Layout.locate_of_within (layout : a.Layout) {count : Nat} (pos : 0 < count)
    (within : a.view.Within p.address.toNat count) : ∃ place, a.locate p count = .ok place := by
  rcases within with zero | ⟨base, size, live, le, fits⟩
  · omega
  · obtain ⟨b, hb, rfl, rfl⟩ := layout.size_eq_some_iff.mp live
    refine ⟨(b, p.address.toNat - b.base), ?_⟩
    exact layout.locate_eq_ok_iff.mpr ⟨hb, by omega, by omega⟩

/-- Bytes are stored where one block has room for them. -/
theorem Layout.store_isOk (layout : a.Layout) {data : List UInt8}
    (within : a.view.Within p.address.toNat data.length) : ∃ a', a.store p data = .ok a' := by
  unfold store
  split
  · exact ⟨a, rfl⟩
  · rename_i some
    have pos : 0 < data.length := List.length_pos_iff.mpr (by simpa using some)
    obtain ⟨place, found⟩ := layout.locate_of_within pos within
    rw [found]
    exact ⟨_, rfl⟩

/-- A fill is accepted where one block has room for it. -/
theorem Layout.fillChar_isOk (layout : a.Layout) {count : Int} (value : Int)
    (within : a.view.Within p.address.toNat count.toNat) : ∃ a', a.fillChar p count value = .ok a' := by
  unfold fillChar fillBytes
  split
  · exact ⟨a, rfl⟩
  · obtain ⟨place, found⟩ := layout.locate_of_within (by omega) within
    rw [found]
    exact ⟨_, rfl⟩

/-- A copy is accepted where one block holds the source, and one the destination. -/
theorem Layout.moveMem_isOk (layout : a.Layout) {count : Int}
    (from_source : a.view.Within p.address.toNat count.toNat)
    (to_dest : a.view.Within q.address.toNat count.toNat) : ∃ a', a.moveMem p q count = .ok a' := by
  unfold moveMem
  split
  · exact ⟨a, rfl⟩
  · obtain ⟨source, found⟩ := layout.locate_of_within (by omega) from_source
    obtain ⟨dest, found'⟩ := layout.locate_of_within (by omega) to_dest
    rw [found]
    show ∃ a', (a.locate q count.toNat >>= _) = .ok a'
    rw [found']
    exact ⟨_, rfl⟩

/-- A live block is released. -/
theorem Layout.freeMem_isOk (layout : a.Layout) {count : Nat}
    (live : a.view.size p.address.toNat = some count) : ∃ a', a.freeMem p = .ok (.nil, a') := by
  obtain ⟨b, hb, base_eq, -⟩ := layout.size_eq_some_iff.mp live
  have found := layout.block?_eq_some_iff.mpr ⟨hb, base_eq⟩
  have not_nil := layout.not_isNil hb (Nat.le_of_eq base_eq)
  refine ⟨a.erase p.address.toNat, ?_⟩
  rw [freeMem, not_nil, found]
  rfl

/-- **A call in place succeeds** wherever the store allows its effect. -/
theorem Layout.answer_of_effect (layout : a.Layout) {call : Call} {answer : Option Pointer} {m : Store}
    (inPlace : call.isInPlace = true) (effect : a.view.Effect call answer m) :
    (a.perform call).1 = .ok answer := by
  have answered : ∀ {result : Except Fault Arena}, (∃ a', result = .ok a') →
      (a.writing result).1 = .ok none := by
    rintro result ⟨a', rfl⟩
    rfl
  -- one case for each effect; the calls that need room are not in place
  cases effect with
  | freeNil => rfl
  | free live =>
    obtain ⟨a', done⟩ := layout.freeMem_isOk live
    rw [Arena.perform, done]
    rfl
  | store h => exact answered (layout.store_isOk h.1)
  | writeByte h => exact answered (layout.store_isOk h.1)
  | fillChar h | fillZero h | fillByte h =>
    have within := h.1
    rw [List.length_replicate] at within
    exact answered (layout.fillChar_isOk _ within)
  | moveMem from_source to_dest => exact answered (layout.moveMem_isOk from_source to_dest)
  | getNone | get | alloc | reallocNil | reallocNone | realloc | fillWord | fillDWord => cases inPlace

/-- Whether there is room for a block of a size: it has no bytes, or the host has room for them and there are addresses
    left. -/
def HasRoom (a : Arena) (grants : Nat → Bool) (size : Int) : Prop :=
  size ≤ 0 ∨ grants size.toNat = true ∧ a.next + reach size.toNat < addressLimit

/-- An allocation succeeds where there is room for its block. -/
theorem getMem_isOk {grants : Nat → Bool} {size : Int} (room : a.HasRoom grants size) :
    ∃ place, a.getMem grants size = .ok place := by
  unfold getMem
  rcases room with none | ⟨granted, room⟩
  · exact ⟨_, if_pos none⟩
  split
  · exact ⟨_, rfl⟩
  · exact ⟨_, insert_eq_ok_iff.mpr ⟨by rw [List.length_replicate]; exact room, rfl, rfl⟩⟩

/-- A reallocation through nil succeeds where an allocation does. -/
theorem reallocMem_nil_isOk {grants : Nat → Bool} {size : Int} (room : a.HasRoom grants size) :
    ∃ q, (a.reallocMem grants .nil size).1 = .ok q := by
  obtain ⟨⟨q, a'⟩, got⟩ := getMem_isOk room
  rw [reallocMem_eq, if_pos (Pointer.isNil_iff.mpr rfl), got]
  exact ⟨q, rfl⟩

/-- A live block is released, or moves where there is room for it. -/
theorem Layout.reallocMem_isOk (layout : a.Layout) {grants : Nat → Bool} {size : Int} {old : Nat}
    (live : a.view.size p.address.toNat = some old) (room : a.HasRoom grants size) :
    ∃ q, (a.reallocMem grants p size).1 = .ok q := by
  obtain ⟨b, hb, base_eq, -⟩ := layout.size_eq_some_iff.mp live
  have found := layout.block?_eq_some_iff.mpr ⟨hb, base_eq⟩
  have not_nil := layout.not_isNil hb (Nat.le_of_eq base_eq)
  rw [reallocMem_eq, if_neg (by rw [not_nil]; exact Bool.false_ne_true)]
  split
  · obtain ⟨a', freed⟩ := layout.freeMem_isOk live
    rw [freed]
    exact ⟨.nil, rfl⟩
  · rename_i pos
    obtain ⟨granted, room⟩ := room.resolve_left pos
    -- the next free address is the same without the block, and so there is room for the new one
    have inserted : (a.erase b.base).insert (resized b.bytes size.toNat) =
        .ok (⟨UInt64.ofNat a.next⟩, (a.erase b.base).place (resized b.bytes size.toNat)) :=
      insert_eq_ok_iff.mpr ⟨by rw [length_resized]; exact room, rfl, rfl⟩
    rw [found]
    dsimp only
    rw [if_pos granted, inserted]
    exact ⟨⟨UInt64.ofNat a.next⟩, rfl⟩

/-! ### Refinement -/

/-- **An arena refines its store.**  The store has disjoint blocks; a call that succeeds has exactly its effect
    on the store; calls in place succeed where the store allows their effect, allocations and reallocations, through nil
    or of a live block, where there is room; and a byte is read at an address exactly if the store has it there. -/
structure Refines (a : Arena) : Prop where
  disjoint : a.view.Disjoint
  step : ∀ call, a.view.Step call (a.perform call).1 (a.perform call).2.view
  inPlace : ∀ call answer m, call.isInPlace = true → a.view.Effect call answer m →
    (a.perform call).1 = .ok answer
  gets : ∀ grants size, a.HasRoom grants size → ∃ place, a.getMem grants size = .ok place
  allocates : ∀ grants size, a.HasRoom grants size → ∃ place, a.allocMem grants size = .ok place
  reallocatesNil : ∀ grants size, a.HasRoom grants size → ∃ q, (a.reallocMem grants .nil size).1 = .ok q
  reallocates : ∀ grants p size old, a.view.size p.address.toNat = some old → a.HasRoom grants size →
    ∃ q, (a.reallocMem grants p size).1 = .ok q
  reads : ∀ p v, a.readByte p = .ok v ↔ a.view.byte p.address.toNat = some v

/-- **Every run of an arena is a run of its store.**  Whatever calls are made one after another, from the empty
    arena on, the store comes from the empty store by the effects of those that succeed, and the arena at the end
    refines it. -/
theorem run_refines_store (calls : List Call) :
    Store.Run .empty (Arena.empty.trace calls) (Arena.empty.after calls).view ∧
      (Arena.empty.after calls).Refines := by
  have layout := layout_after calls
  constructor
  · have run := Layout.empty.run calls
    rw [view_empty] at run
    exact run
  · exact ⟨layout.disjoint_view, layout.step, fun _ _ _ => layout.answer_of_effect, fun _ _ => getMem_isOk,
      fun _ _ => getMem_isOk, fun _ _ => reallocMem_nil_isOk, fun _ _ _ _ => layout.reallocMem_isOk,
      fun _ _ => layout.readByte_eq_ok_iff⟩

/-- Bytes moved one place on within their block. -/
example :
    (Arena.empty.after [.getMem (fun _ => true) 5, .store ⟨0x10000⟩ [1, 2, 3, 4, 5],
      .moveMem ⟨0x10000⟩ ⟨0x10001⟩ 4]).blocks = [⟨0x10000, [1, 1, 2, 3, 4]⟩] := by
  decide

end Arena

end SystemUnit
