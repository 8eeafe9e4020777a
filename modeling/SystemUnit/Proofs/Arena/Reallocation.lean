import SystemUnit.Proofs.Arena.Stale
import SystemUnit.Proofs.Arena.View

namespace SystemUnit

namespace Arena

/-!
# Reallocations that fail

A reallocation can fail at four points, and up to the last one nothing has happened yet.  At the last one the old block
has been released and there is no address left for the new one, so that the block is lost.

* `insert_eq_error_iff`, `getMem_eq_error_iff`, `freeMem_eq_error_iff` — where the steps of a reallocation fail;
* `IsLost` — the block of a reallocation for which the host has room, but no address is left;
* `Failing`, `Layout.reallocMem_eq_error_iff` — the points where a reallocation fails, and what it leaves there;
* `failed_reallocMem_keeps_unless_lost` — a failed reallocation changes nothing unless it loses its block;
* `churn`, `after_churn` — blocks placed and released one after the other use up the addresses;
* `reallocMem_after_churn`, `reallocMem_loses_block` — after which a reallocation loses the only block.
-/

variable {a a' : Arena} {b : Block} {p : Pointer} {grants : Nat → Bool} {size : Int} {fault : Fault}

/-! ### Where the steps fail -/

/-- A fault is settled by leaving the arena as it was. -/
theorem settle_eq_error_iff {α : Type} {result : Except Fault (α × Arena)} :
    a.settle result = (.error fault, a') ↔ result = .error fault ∧ a' = a := by
  cases result with
  | ok place => exact iff_of_false (fun h => nomatch h) fun h => nomatch h.1
  | error fault' =>
    show (Except.error fault', a) = (Except.error fault, a') ↔ _
    rw [Prod.mk.injEq, Except.error.injEq, Except.error.injEq, eq_comm (a := a)]

/-- A block is not placed if there is no address left behind it. -/
theorem insert_eq_error_iff {bytes : List UInt8} :
    a.insert bytes = .error fault ↔ addressLimit ≤ a.next + reach bytes.length ∧ fault = .noMemory := by
  unfold Arena.insert
  dsimp only
  split
  · exact iff_of_false (fun h => nomatch h) fun h => absurd h.1 (by omega)
  · rw [Except.error.injEq, eq_comm]
    exact (and_iff_right (by omega)).symm

/-- An allocation fails if the host has no room for it, or if no address is left. -/
theorem getMem_eq_error_iff : a.getMem grants size = .error fault ↔
    0 < size ∧ (grants size.toNat = false ∨ addressLimit ≤ a.next + reach size.toNat) ∧ fault = .noMemory := by
  unfold getMem
  split
  · exact iff_of_false (fun h => nomatch h) fun h => absurd h.1 (by omega)
  have pos : 0 < size := by omega
  rw [and_iff_right pos]
  cases granted : grants size.toNat with
  | false =>
    rw [if_neg Bool.false_ne_true, Except.error.injEq, eq_comm]
    exact (and_iff_right (.inl rfl)).symm
  | true =>
    rw [if_pos rfl, insert_eq_error_iff, List.length_replicate, Bool.true_eq_false, false_or]

/-- A release fails if no block starts at the pointer. -/
theorem freeMem_eq_error_iff : a.freeMem p = .error fault ↔
    p ≠ .nil ∧ a.block? p.address.toNat = none ∧ fault = .noBlock := by
  unfold freeMem
  split
  · rename_i nil
    exact iff_of_false (fun h => nomatch h) fun h => h.1 (Pointer.isNil_iff.mp nil)
  rename_i live
  have live : p ≠ .nil := fun nil => live (Pointer.isNil_iff.mpr nil)
  rw [and_iff_right live]
  cases a.block? p.address.toNat with
  | none =>
    rw [if_pos Option.isNone_none, Except.error.injEq, eq_comm]
    exact (and_iff_right rfl).symm
  | some b => exact iff_of_false (fun h => nomatch h) fun h => nomatch h.1

/-! ### Where a reallocation fails -/

/-- The block of a reallocation is lost: it is there, and the host has room for the new one, but no address is left. -/
structure IsLost (a : Arena) (grants : Nat → Bool) (p : Pointer) (size : Int) (b : Block) : Prop where
  pos : 0 < size
  mem : b ∈ a.blocks
  at_base : b.base = p.address.toNat
  granted : grants size.toNat = true
  exhausted : addressLimit ≤ a.next + reach size.toNat

/-- **The four points where a reallocation fails**, with the fault and the arena that it leaves. -/
inductive Failing (a : Arena) (grants : Nat → Bool) (p : Pointer) (size : Int) : Fault → Arena → Prop where
  | allocation (nil : p = .nil) (pos : 0 < size)
      (none : grants size.toNat = false ∨ addressLimit ≤ a.next + reach size.toNat) :
      Failing a grants p size .noMemory a
  | unknown (live : p ≠ .nil) (absent : ∀ b ∈ a.blocks, b.base ≠ p.address.toNat) :
      Failing a grants p size .noBlock a
  | refused {b : Block} (pos : 0 < size) (hb : b ∈ a.blocks) (at_base : b.base = p.address.toNat)
      (refused : grants size.toNat = false) : Failing a grants p size .noMemory a
  | lost {b : Block} (lost : a.IsLost grants p size b) : Failing a grants p size .noMemory (a.erase b.base)

/-- **A reallocation fails at these points and at no others.** -/
theorem Layout.reallocMem_eq_error_iff (layout : a.Layout) :
    a.reallocMem grants p size = (.error fault, a') ↔ a.Failing grants p size fault a' := by
  rw [reallocMem_eq]
  constructor
  · intro failed
    split at failed
    · rename_i nil
      obtain ⟨got, rfl⟩ := settle_eq_error_iff.mp failed
      obtain ⟨pos, none, rfl⟩ := getMem_eq_error_iff.mp got
      exact .allocation (Pointer.isNil_iff.mp nil) pos none
    rename_i live
    split at failed
    · obtain ⟨freed, rfl⟩ := settle_eq_error_iff.mp failed
      obtain ⟨live, absent, rfl⟩ := freeMem_eq_error_iff.mp freed
      exact .unknown live (block?_eq_none_iff.mp absent)
    have pos : 0 < size := by omega
    split at failed
    · rename_i absent
      cases failed
      exact .unknown (fun nil => live (Pointer.isNil_iff.mpr nil)) (block?_eq_none_iff.mp absent)
    rename_i old found
    obtain ⟨hb, at_base⟩ := layout.block?_eq_some_iff.mp found
    split at failed
    · -- the old block has been released by now, and no address is left for the new one
      rename_i granted
      obtain ⟨inserted, rfl⟩ := settle_eq_error_iff.mp failed
      obtain ⟨exhausted, rfl⟩ := insert_eq_error_iff.mp inserted
      rw [length_resized] at exhausted
      exact .lost ⟨pos, hb, at_base, granted, exhausted⟩
    · rename_i refused
      cases failed
      exact .refused pos hb at_base (by simpa using refused)
  · intro failing
    -- conversely, each point is reached by the conditions before it
    cases failing with
    | allocation nil pos none =>
      rw [if_pos (Pointer.isNil_iff.mpr nil), settle_eq_error_iff, getMem_eq_error_iff]
      exact ⟨⟨pos, none, rfl⟩, rfl⟩
    | unknown live absent =>
      have none := block?_eq_none_iff.mpr absent
      rw [if_neg (fun nil => live (Pointer.isNil_iff.mp nil)), none]
      split
      · rw [settle_eq_error_iff, freeMem_eq_error_iff]
        exact ⟨⟨live, none, rfl⟩, rfl⟩
      · rfl
    | @refused b pos hb at_base refused =>
      have live := layout.not_isNil hb (Nat.le_of_eq at_base)
      have found := layout.block?_eq_some_iff.mpr ⟨hb, at_base⟩
      rw [if_neg (by rw [live]; exact Bool.false_ne_true), if_neg (by omega), found]
      exact if_neg (by rw [refused]; exact Bool.false_ne_true)
    | @lost b lost =>
      have live := layout.not_isNil lost.mem (Nat.le_of_eq lost.at_base)
      have found := layout.block?_eq_some_iff.mpr ⟨lost.mem, lost.at_base⟩
      have exhausted : addressLimit ≤ (a.erase b.base).next + reach (resized b.bytes size.toNat).length := by
        rw [length_resized]
        exact lost.exhausted
      rw [if_neg (by rw [live]; exact Bool.false_ne_true), if_neg (Int.not_le.mpr lost.pos), found]
      dsimp only
      rw [if_pos lost.granted, settle_eq_error_iff, insert_eq_error_iff]
      exact ⟨⟨exhausted, rfl⟩, rfl⟩

/-- A reallocation that fails where the block is not lost leaves the arena as it was. -/
theorem Failing.keeps (failing : a.Failing grants p size fault a') (kept : ∀ b, ¬ a.IsLost grants p size b) :
    a' = a := by
  cases failing with
  | allocation | unknown | refused => rfl
  | @lost b lost => exact absurd lost (kept b)

/-- An arena without one of its blocks is another one. -/
theorem erase_ne (hb : b ∈ a.blocks) : a.erase b.base ≠ a := by
  intro same
  rw [← same] at hb
  exact (mem_blocks_erase.mp hb).2 rfl

/-- **A failed reallocation changes nothing unless it loses its block.**  After any calls, and whatever the host has
    room for, a reallocation fails at the four points and nowhere else.  At three of them it leaves all as it was.  At
    the last one the block is gone from the store, with its bytes, and every pointer into it is refused for ever. -/
theorem failed_reallocMem_keeps_unless_lost (calls : List Call) (grants : Nat → Bool) (p : Pointer) (size : Int) :
    let a := Arena.empty.after calls
    let result := a.reallocMem grants p size
    (∀ fault a', result = (.error fault, a') ↔ a.Failing grants p size fault a') ∧
      (∀ fault, result.1 = .error fault → (result.2 = a ↔ ∀ b, ¬ a.IsLost grants p size b)) ∧
      ∀ b, a.IsLost grants p size b →
        result.1 = .error .noMemory ∧ result.2.view = a.view.remove b.base b.bytes.length ∧
          ∀ (later : List Call) (q : Pointer), b.base ≤ q.address.toNat →
            q.address.toNat ≤ b.base + b.bytes.length → (result.2.after later).Refuses q := by
  intro a result
  have layout : a.Layout := layout_after calls
  have points : ∀ fault a', result = (.error fault, a') ↔ a.Failing grants p size fault a' :=
    fun _ _ => layout.reallocMem_eq_error_iff
  have outcome : ∀ b, a.IsLost grants p size b → result = (.error .noMemory, a.erase b.base) :=
    fun b lost => (points _ _).mpr (.lost lost)
  refine ⟨points, fun fault failed => ⟨fun same b lost => ?_, fun kept => ?_⟩, fun b lost => ?_⟩
  · rw [outcome b lost] at same
    exact erase_ne lost.mem same
  · exact ((points fault result.2).mp (Prod.ext failed rfl)).keeps kept
  · rw [outcome b lost]
    refine ⟨rfl, layout.view_erase lost.mem, fun later q base_le le_end => ?_⟩
    have gone : (a.erase b.base).block? b.base = none :=
      block?_eq_none_iff.mpr fun c hc => (mem_blocks_erase.mp hc).2
    -- a pointer into a block that is gone is refused after any calls
    have stale := layout.stale_of_gone lost.mem (.erase b.base) gone
    exact (stale.after (layout.erase b.base) later).refuses ((layout.erase b.base).after later) base_le le_end

/-! ### A run that uses up the addresses -/

/-- Blocks of one size are placed and released one after the other, the first one at an address. -/
def churn (size : Nat) : Nat → Nat → List Call
  | 0, _ => []
  | n + 1, address => .getMem hostGrants size :: .freeMem ⟨UInt64.ofNat address⟩ :: churn size n (address + reach size)

/-- Where there is room a block of zeros is placed at the next free address. -/
theorem getMem_of_room {size : Nat} (pos : 0 < size) (granted : grants size = true)
    (room : a.next + reach size < addressLimit) :
    a.getMem grants size = .ok (⟨UInt64.ofNat a.next⟩, a.place (List.replicate size 0)) := by
  rw [getMem, if_neg (by omega), Int.toNat_natCast, if_pos granted]
  refine insert_eq_ok_iff.mpr ⟨?_, rfl, rfl⟩
  rw [List.length_replicate]
  exact room

/-- A block that is placed in an arena without blocks, and released, leaves its reach behind. -/
theorem after_place_free {size : Nat} (pos : 0 < size) (granted : hostGrants size = true) (address : Nat)
    (base_le : baseAddress ≤ address) (room : address + reach size < addressLimit) :
    (Arena.mk [] address).after [.getMem hostGrants size, .freeMem ⟨UInt64.ofNat address⟩] =
      ⟨[], address + reach size⟩ := by
  have got := getMem_of_room (a := ⟨[], address⟩) pos granted room
  have at_address : (UInt64.ofNat address).toNat = address :=
    UInt64.toNat_ofNat_of_lt' (Nat.lt_of_le_of_lt (Nat.le_add_right _ _) room)
  have live : (⟨UInt64.ofNat address⟩ : Pointer).isNil = false := isNil_of_le (by rw [at_address]; exact base_le)
  have freed : ((Arena.mk [] address).place (List.replicate size 0)).freeMem ⟨UInt64.ofNat address⟩ =
      .ok (.nil, ⟨[], address + reach size⟩) := by
    rw [freeMem, live, at_address]
    simp [Arena.place, block?, Arena.erase]
  rw [Arena.after, perform, got]
  show ((Arena.mk [] address).place (List.replicate size 0)).after _ = _
  rw [Arena.after, perform, freed]
  rfl

/-- **Addresses are used up.**  No block is left, and the next free address has moved on by the reach of each. -/
theorem after_churn {size : Nat} (pos : 0 < size) (granted : hostGrants size = true) (n address : Nat)
    (base_le : baseAddress ≤ address) (room : address + n * reach size < addressLimit) :
    (Arena.mk [] address).after (churn size n address) = ⟨[], address + n * reach size⟩ := by
  induction n generalizing address with
  | zero => rw [Nat.zero_mul]; rfl
  | succ n ih =>
    rw [Nat.succ_mul] at room ⊢
    -- one block, and then the others from the next free address on
    have first := after_place_free pos granted address base_le (by omega)
    have others := ih (address + reach size) (by omega) (by omega)
    show (Arena.mk [] address).after ([_, _] ++ churn size n (address + reach size)) = _
    rw [after_append, first, others, Nat.add_assoc, Nat.add_comm (reach size)]

/-- Where there are addresses for one more block, but not for two, a reallocation loses the one that is placed. -/
theorem isLost_after_churn {size n : Nat} (pos : 0 < size) (granted : hostGrants size = true)
    (room : baseAddress + n * reach size + reach size < addressLimit)
    (exhausted : addressLimit ≤ baseAddress + n * reach size + reach size + reach size) :
    let a := Arena.empty.after (churn size n baseAddress ++ [.getMem hostGrants size])
    let b : Block := ⟨baseAddress + n * reach size, List.replicate size 0⟩
    a.blocks = [b] ∧ ∀ p : Pointer, p.address.toNat = b.base → a.IsLost hostGrants p size b := by
  intro a b
  -- no block is left, and the next free address has come near the limit
  have used : Arena.empty.after (churn size n baseAddress) = ⟨[], b.base⟩ :=
    after_churn pos granted n baseAddress (Nat.le_refl _) (by omega)
  have got := getMem_of_room (a := ⟨[], b.base⟩) pos granted room
  have placed : a = (Arena.mk [] b.base).place b.bytes := by
    show Arena.empty.after (_ ++ _) = _
    rw [after_append, used, Arena.after, perform, got]
    rfl
  have blocks : a.blocks = [b] := by rw [placed]; rfl
  have mem : b ∈ a.blocks := by
    rw [blocks]
    exact List.mem_singleton.mpr rfl
  refine ⟨blocks, fun p at_base => ⟨by omega, mem, at_base.symm, granted, ?_⟩⟩
  rw [placed, next_place, List.length_replicate]
  exact exhausted

/-- **Near the end of the addresses a reallocation loses the only block.** -/
theorem reallocMem_after_churn (size n : Nat) (pos : 0 < size) (granted : hostGrants size = true)
    (room : baseAddress + n * reach size + reach size < addressLimit)
    (exhausted : addressLimit ≤ baseAddress + n * reach size + reach size + reach size) (p : Pointer)
    (at_base : p.address.toNat = baseAddress + n * reach size) :
    let a := Arena.empty.after (churn size n baseAddress ++ [.getMem hostGrants size])
    let result := a.reallocMem hostGrants p size
    a.liveBlocks = 1 ∧ a.blockSize? p = some size ∧ result.1 = .error .noMemory ∧
      result.2.liveBlocks = 0 ∧ result.2.blockSize? p = none := by
  intro a result
  have layout : a.Layout := layout_after _
  obtain ⟨blocks, lost⟩ := isLost_after_churn pos granted room exhausted
  have outcome : result = (.error .noMemory, a.erase p.address.toNat) := by
    rw [at_base]
    exact layout.reallocMem_eq_error_iff.mpr (.lost (lost p at_base))
  have found : a.block? p.address.toNat = some ⟨baseAddress + n * reach size, List.replicate size 0⟩ :=
    layout.block?_eq_some_iff.mpr ⟨(lost p at_base).mem, at_base.symm⟩
  have gone : (a.erase p.address.toNat).block? p.address.toNat = none :=
    block?_eq_none_iff.mpr fun c hc => (mem_blocks_erase.mp hc).2
  rw [outcome]
  refine ⟨?_, ?_, rfl, ?_, ?_⟩
  · rw [liveBlocks, blocks, List.length_singleton]
  · rw [blockSize?, found, Option.map_some, List.length_replicate]
  · rw [liveBlocks, Arena.erase, blocks, at_base]
    simp
  · rw [blockSize?, gone, Option.map_none]

/-- Blocks of 2^30 bytes are placed and released until there are addresses for one more.  That is placed, and a
    reallocation to the same size fails and loses it. -/
theorem reallocMem_loses_block :
    let size : Nat := 0x40000000
    let a := Arena.empty.after (churn size 0x3fffffefe baseAddress ++ [.getMem hostGrants size])
    let p : Pointer := ⟨0xffffffff8000efe0⟩
    let result := a.reallocMem hostGrants p size
    a.liveBlocks = 1 ∧ a.blockSize? p = some size ∧ result.1 = .error .noMemory ∧
      result.2.liveBlocks = 0 ∧ result.2.blockSize? p = none :=
  reallocMem_after_churn 0x40000000 0x3fffffefe (by decide) (by decide) (by decide) (by decide)
    ⟨0xffffffff8000efe0⟩ (by decide)

end Arena

end SystemUnit
