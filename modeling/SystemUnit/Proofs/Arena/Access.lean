import SystemUnit.Proofs.Arena.Run

namespace SystemUnit

namespace Arena

/-!
# Which accesses are refused, and how

What an access comes to is told by all live blocks, with no word of the one below an address.  It is fine if no bytes
are asked for, or if one block holds them; through nil, and where the pointer is in a block or at its end, it is a
violation; anywhere else there is no block.

* `Holds`, `Touches` — a block that holds a range, and one that a pointer is in or at the end of;
* `Access` — what an access comes to;
* `exists_access`, `Layout.bytes_eq_of_access` — each access comes to something, and the bytes are that;
* `store_eq_error_iff`, `fillBytes_eq_error_iff`, `readByte_eq_error_iff`, `compareMem_eq_error_iff`,
  `moveMem_eq_error_iff` — the other operations are refused as the bytes are;
* `access_classified` — all operations of every arena.
-/

variable {a : Arena} {b : Block} {p q : Pointer} {count : Int} {fault : Fault}

/-! ### The rule -/

/-- The range of bytes lies in a block. -/
def Holds (b : Block) (p : Pointer) (count : Int) : Prop :=
  b.base ≤ p.address.toNat ∧ p.address.toNat + count ≤ (b.base + b.bytes.length : Nat)

/-- A pointer is at a byte of a block, or at its end. -/
def Touches (b : Block) (p : Pointer) : Prop :=
  b.base ≤ p.address.toNat ∧ p.address.toNat ≤ b.base + b.bytes.length

/-- **What an access to `count` bytes comes to.** -/
inductive Access (a : Arena) (p : Pointer) (count : Int) : Except Fault (List UInt8) → Prop where
  | empty (none : count ≤ 0) : Access a p count (.ok [])
  | inside {b : Block} (pos : 0 < count) (hb : b ∈ a.blocks) (holds : Holds b p count) :
      Access a p count (.ok ((b.bytes.drop (p.address.toNat - b.base)).take count.toNat))
  | violation (pos : 0 < count) (outside : ∀ b ∈ a.blocks, ¬ Holds b p count)
      (touches : p = .nil ∨ ∃ b ∈ a.blocks, Touches b p) : Access a p count (.error (.noAccess p))
  | nowhere (pos : 0 < count) (live : p ≠ .nil) (apart : ∀ b ∈ a.blocks, ¬ Touches b p) :
      Access a p count (.error .noBlock)

/-- What a block holds starts in it. -/
theorem Holds.touches (holds : Holds b p count) (pos : 0 < count) : Touches b p := by
  obtain ⟨le, fits⟩ := holds
  exact ⟨le, by omega⟩

/-- Every access comes to something. -/
theorem exists_access (a : Arena) (p : Pointer) (count : Int) : ∃ result, a.Access p count result := by
  by_cases none : count ≤ 0
  · exact ⟨_, .empty none⟩
  have pos : 0 < count := by omega
  -- the four cases in the order in which the rule asks for them
  by_cases inside : ∃ b ∈ a.blocks, Holds b p count
  · obtain ⟨b, hb, holds⟩ := inside
    exact ⟨_, .inside pos hb holds⟩
  by_cases touches : p = .nil ∨ ∃ b ∈ a.blocks, Touches b p
  · exact ⟨_, .violation pos (fun b hb holds => inside ⟨b, hb, holds⟩) touches⟩
  · exact ⟨_, .nowhere pos (fun nil => touches (.inl nil)) fun b hb touch => touches (.inr ⟨b, hb, touch⟩)⟩

/-! ### The bytes -/

/-- There are no other faults than these two. -/
theorem locate_eq_error {size : Nat} (h : a.locate p size = .error fault) :
    fault = .noBlock ∨ fault = .noAccess p := by
  unfold locate at h
  -- the tests of the lookup, each with its fault
  split at h
  · cases h
    exact .inr rfl
  split at h
  · cases h
    exact .inl rfl
  dsimp only at h
  split at h
  · cases h
    exact .inl rfl
  split at h
  · cases h
  · cases h
    exact .inr rfl

/-- **An access comes to what the rule says.** -/
theorem Layout.bytes_eq_of_access (layout : a.Layout) {result : Except Fault (List UInt8)}
    (access : a.Access p count result) : a.bytes p count = result := by
  unfold Arena.bytes
  cases access with
  | empty none => exact if_pos none
  | @inside b pos hb holds =>
    obtain ⟨le, fits⟩ := holds
    have found : a.locate p count.toNat = .ok (b, p.address.toNat - b.base) :=
      layout.locate_eq_ok_iff.mpr ⟨hb, by omega, by omega⟩
    rw [if_neg (by omega), found]
    rfl
  | violation pos outside touches =>
    rw [if_neg (by omega)]
    cases found : a.locate p count.toNat with
    | ok place =>
      obtain ⟨hb, at_offset, fits⟩ := layout.locate_eq_ok_iff.mp found
      -- what is found is held by its block
      exact absurd ⟨by omega, by omega⟩ (outside place.1 hb)
    | error fault =>
      rcases locate_eq_error found with rfl | rfl
      · -- a pointer at no block is neither nil nor at one
        obtain ⟨live, beyond⟩ := layout.locate_eq_noBlock_iff.mp found
        rcases touches with rfl | ⟨b, hb, le, le_end⟩
        · cases live
        · have := beyond b hb
          omega
      · rfl
  | nowhere pos live apart =>
    have lost : a.locate p count.toNat = .error .noBlock := by
      refine layout.locate_eq_noBlock_iff.mpr ⟨?_, fun b hb => ?_⟩
      · rw [← Bool.not_eq_true, Pointer.isNil_iff]
        exact live
      · by_contra between
        exact apart b hb ⟨by omega, by omega⟩
    rw [if_neg (by omega), lost]
    rfl

/-- **An access through a pointer gives what the rule says.** -/
theorem Layout.bytes_eq_iff (layout : a.Layout) {result : Except Fault (List UInt8)} :
    a.bytes p count = result ↔ a.Access p count result := by
  constructor
  · obtain ⟨result', access⟩ := exists_access a p count
    rw [layout.bytes_eq_of_access access]
    rintro rfl
    exact access
  · exact layout.bytes_eq_of_access

/-! ### The other operations -/

/-- What does nothing for a count that is not positive fails for others only. -/
theorem guarded_eq_error_iff {α : Type} {x : α} {rest : Except Fault α} :
    (if count ≤ 0 then .ok x else rest) = .error fault ↔ 0 < count ∧ rest = .error fault := by
  by_cases none : count ≤ 0
  · rw [if_pos none]
    exact iff_of_false (fun h => nomatch h) fun h => absurd h.1 (by omega)
  · rw [if_neg none]
    exact (and_iff_right (by omega)).symm

theorem bytes_eq_error_iff :
    a.bytes p count = .error fault ↔ 0 < count ∧ a.locate p count.toNat = .error fault := by
  rw [Arena.bytes, guarded_eq_error_iff, bind_pure_eq_error_iff]

/-- Bytes are read where their range is found. -/
theorem bytes_isOk_iff (pos : 0 < count) :
    (∃ data, a.bytes p count = .ok data) ↔ ∃ place, a.locate p count.toNat = .ok place := by
  rw [Arena.bytes, if_neg (by omega)]
  cases a.locate p count.toNat with
  | ok place => exact iff_of_true ⟨_, rfl⟩ ⟨_, rfl⟩
  | error fault => exact iff_of_false (fun h => nomatch h) fun h => nomatch h

/-- Bytes are stored where as many could be read, and else the fault is that of reading them. -/
theorem store_eq_error_iff {data : List UInt8} :
    a.store p data = .error fault ↔ a.bytes p data.length = .error fault := by
  have guard : data.isEmpty = true ↔ (data.length : Int) ≤ 0 := by
    rw [List.isEmpty_iff, ← List.length_eq_zero_iff]
    omega
  rw [bytes_eq_error_iff, Int.toNat_natCast, Arena.store]
  simp only [guard]
  rw [guarded_eq_error_iff, bind_pure_eq_error_iff]

/-- So is a pattern. -/
theorem fillBytes_eq_error_iff {pattern : List UInt8} :
    a.fillBytes p count pattern = .error fault ↔ a.bytes p count = .error fault := by
  rw [bytes_eq_error_iff, fillBytes, guarded_eq_error_iff, bind_pure_eq_error_iff]

/-- A byte is read as one of one. -/
theorem readByte_eq_error_iff : a.readByte p = .error fault ↔ a.bytes p 1 = .error fault := by
  rw [bytes_eq_error_iff, readByte, bind_pure_eq_error_iff]
  exact (and_iff_right Int.one_pos).symm

/-- The first range is asked for first. -/
theorem compareMem_eq_error_iff : a.compareMem p q count = .error fault ↔
    a.bytes p count = .error fault ∨ (∃ data, a.bytes p count = .ok data) ∧ a.bytes q count = .error fault := by
  unfold compareMem
  rw [bind_eq_error_iff]
  simp only [bind_pure_eq_error_iff, exists_and_right]

/-- The source is asked for first. -/
theorem moveMem_eq_error_iff : a.moveMem p q count = .error fault ↔
    a.bytes p count = .error fault ∨ (∃ data, a.bytes p count = .ok data) ∧ a.bytes q count = .error fault := by
  rw [moveMem, guarded_eq_error_iff, bind_eq_error_iff, bytes_eq_error_iff, bytes_eq_error_iff]
  -- nothing fails for a count that is not positive
  by_cases pos : 0 < count
  · rw [bytes_isOk_iff pos]
    simp only [bind_pure_eq_error_iff, exists_and_right, pos, true_and]
  · simp only [pos, false_and, and_false, or_false]

/-! ### All operations -/

/-- Two ranges are asked for, one after the other: the fault is that of the first, or of the second if the first one
    is fine. -/
def AccessBoth (a : Arena) (p q : Pointer) (count : Int) (fault : Fault) : Prop :=
  a.Access p count (.error fault) ∨ (∃ data, a.Access p count (.ok data)) ∧ a.Access q count (.error fault)

/-- **The operations follow the rule**: bytes are what it says they are, and every operation on bytes fails as it says,
    for the range or the ranges that the operation is about.  Bytes are changed by `store`, by `fillBytes` and by a copy,
    and by nothing else. -/
structure FollowsRule (a : Arena) : Prop where
  bytes : ∀ p count result, a.bytes p count = result ↔ a.Access p count result
  store : ∀ p data fault, a.store p data = .error fault ↔ a.Access p (data.length : Nat) (.error fault)
  fillBytes : ∀ p count pattern fault, a.fillBytes p count pattern = .error fault ↔ a.Access p count (.error fault)
  fillChar : ∀ p count value fault, a.fillChar p count value = .error fault ↔ a.Access p count (.error fault)
  readByte : ∀ p fault, a.readByte p = .error fault ↔ a.Access p 1 (.error fault)
  writeByte : ∀ p value fault, a.writeByte p value = .error fault ↔ a.Access p 1 (.error fault)
  compareMem : ∀ p q count fault, a.compareMem p q count = .error fault ↔ a.AccessBoth p q count fault
  moveMem : ∀ source dest count fault,
    a.moveMem source dest count = .error fault ↔ a.AccessBoth source dest count fault

/-- Every access follows the rule, those at two pointers through the first one first. -/
theorem Layout.followsRule (layout : a.Layout) : a.FollowsRule where
  bytes _ _ _ := layout.bytes_eq_iff
  store _ _ _ := store_eq_error_iff.trans layout.bytes_eq_iff
  fillBytes _ _ _ _ := fillBytes_eq_error_iff.trans layout.bytes_eq_iff
  fillChar _ _ _ _ := fillBytes_eq_error_iff.trans layout.bytes_eq_iff
  readByte _ _ := readByte_eq_error_iff.trans layout.bytes_eq_iff
  writeByte _ _ _ := store_eq_error_iff.trans layout.bytes_eq_iff
  compareMem _ _ _ _ := by
    rw [compareMem_eq_error_iff]
    simp only [layout.bytes_eq_iff, AccessBoth]
  moveMem _ _ _ _ := by
    rw [moveMem_eq_error_iff]
    simp only [layout.bytes_eq_iff, AccessBoth]

/-- **Every access is classified.**  After any calls all operations follow the rule; a violation is an
    `accessViolation`, and a pointer at no block an `invalidPointer`. -/
theorem access_classified (calls : List Call) :
    (Arena.empty.after calls).FollowsRule ∧
      (∀ p, (Fault.noAccess p).kind = .accessViolation) ∧ Fault.noBlock.kind = .invalidPointer :=
  ⟨(layout_after calls).followsRule, fun _ => rfl, rfl⟩

/-- The end of a block belongs to it, and the next address to none. -/
example :
    let a := Arena.empty.after [.getMem hostGrants 4]
    a.readByte ⟨0x10004⟩ = .error (.noAccess ⟨0x10004⟩) ∧ a.readByte ⟨0x10005⟩ = .error .noBlock :=
  ⟨rfl, rfl⟩

end Arena

end SystemUnit
