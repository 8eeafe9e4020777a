import SystemUnit.Arena
import Mathlib.Tactic.ByContra

namespace SystemUnit

namespace Arena

/-!
# Where blocks lie

An address is checked against one block only, the last one that does not start after it.  That this is the
right block rests on the places of the blocks:

* `Layout` — blocks are aligned, ascending, and each one's reach ends below the next;
* `Layout.eq_or_apart` — two blocks are the same, or one lies past the reach of the other;
* `Layout.block?_eq_some_iff`, `Layout.blockBelow?_eq_some_iff` — what the two lookups find;
* `Layout.locate_eq_ok_iff`, `Layout.locate_eq_noBlock_iff` — which ranges are found, and which are beyond
  every block;
* `Layout.place`, `Layout.erase`, `Layout.update` — the three changes that keep the layout.
-/

variable {a : Arena} {b c : Block}

/-! ### Reach -/

/-- The reach of a block covers its bytes and a gap behind them. -/
theorem add_alignment_le_reach (size : Nat) : size + alignment ≤ reach size := by
  unfold reach alignment
  omega

/-- A block ends before its reach does, and so no two of them touch. -/
theorem lt_reach (size : Nat) : size < reach size := by
  have h := add_alignment_le_reach size
  unfold alignment at h
  omega

/-- The reach of a block is aligned. -/
theorem alignment_dvd_reach (size : Nat) : alignment ∣ reach size :=
  Nat.dvd_add (Nat.dvd_mul_left _ _) (Nat.dvd_refl _)

/-! ### The layout -/

/-- Blocks are not empty and lie at aligned addresses from `baseAddress` on, in ascending order, each with
    its reach below the next block and below the next free address. -/
structure Layout (a : Arena) : Prop where
  base_le_next : baseAddress ≤ a.next
  next_lt : a.next < addressLimit
  next_aligned : alignment ∣ a.next
  spaced : a.blocks.Pairwise fun b c => b.base + reach b.bytes.length ≤ c.base
  base_le : ∀ b ∈ a.blocks, baseAddress ≤ b.base
  aligned : ∀ b ∈ a.blocks, alignment ∣ b.base
  reach_le : ∀ b ∈ a.blocks, b.base + reach b.bytes.length ≤ a.next
  nonempty : ∀ b ∈ a.blocks, 0 < b.bytes.length

/-- The next free address is not that of nil. -/
theorem Layout.next_pos (layout : a.Layout) : 0 < a.next := by
  have base := layout.base_le_next
  unfold baseAddress at base
  omega

/-- An arena without blocks has the layout. -/
theorem Layout.empty : Arena.empty.Layout where
  base_le_next := Nat.le_refl _
  next_lt := by decide
  next_aligned := by decide
  spaced := List.Pairwise.nil
  base_le := by simp [Arena.empty]
  aligned := by simp [Arena.empty]
  reach_le := by simp [Arena.empty]
  nonempty := by simp [Arena.empty]

/-- **Blocks are apart.** Two blocks are the same, or one lies past the reach of the other. -/
theorem Layout.eq_or_apart (layout : a.Layout) (hb : b ∈ a.blocks) (hc : c ∈ a.blocks) :
    b = c ∨ b.base + reach b.bytes.length ≤ c.base ∨ c.base + reach c.bytes.length ≤ b.base := by
  obtain ⟨i, hi, rfl⟩ := List.getElem_of_mem hb
  obtain ⟨j, hj, rfl⟩ := List.getElem_of_mem hc
  have spaced := List.pairwise_iff_getElem.mp layout.spaced
  rcases Nat.lt_trichotomy i j with h | rfl | h
  · exact .inr (.inl (spaced i j hi hj h))
  · exact .inl rfl
  · exact .inr (.inr (spaced j i hj hi h))

/-- A block is known by any address that it covers or ends at. -/
theorem Layout.eq_of_mem_closed (layout : a.Layout) (hb : b ∈ a.blocks) (hc : c ∈ a.blocks) {q : Nat}
    (b_le : b.base ≤ q) (le_b : q ≤ b.base + b.bytes.length) (c_le : c.base ≤ q)
    (le_c : q ≤ c.base + c.bytes.length) : b = c := by
  have reach_b := lt_reach b.bytes.length
  have reach_c := lt_reach c.bytes.length
  rcases layout.eq_or_apart hb hc with h | h | h
  · exact h
  · omega
  · omega

/-- Two blocks that start at the same address are the same one. -/
theorem Layout.eq_of_base_eq (layout : a.Layout) (hb : b ∈ a.blocks) (hc : c ∈ a.blocks)
    (h : b.base = c.base) : b = c :=
  layout.eq_of_mem_closed hb hc (Nat.le_refl _) (Nat.le_add_right _ _) (by omega) (by omega)

/-! ### Lookups -/

/-- The block that starts at an address. -/
theorem Layout.block?_eq_some_iff (layout : a.Layout) {address : Nat} :
    a.block? address = some b ↔ b ∈ a.blocks ∧ b.base = address := by
  unfold block?
  constructor
  · intro found
    exact ⟨List.mem_of_find?_eq_some found, by simpa using List.find?_some found⟩
  · rintro ⟨hb, rfl⟩
    cases found : a.blocks.find? (·.base == b.base) with
    | none => exact absurd (List.find?_eq_none.mp found b hb) (by simp)
    | some c =>
      have same : c.base = b.base := by simpa using List.find?_some found
      rw [layout.eq_of_base_eq (List.mem_of_find?_eq_some found) hb same]

/-- No block is found at an address where none starts. -/
theorem block?_eq_none_iff {address : Nat} :
    a.block? address = none ↔ ∀ b ∈ a.blocks, b.base ≠ address := by
  simp [block?]

/-- The last block that does not start after an address is the one that starts closest to it. -/
theorem Layout.blockBelow?_eq_some_iff (layout : a.Layout) {q : Nat} :
    a.blockBelow? q = some b ↔
      b ∈ a.blocks ∧ b.base ≤ q ∧ ∀ c ∈ a.blocks, c.base ≤ q → c.base ≤ b.base := by
  have mem_filter : ∀ c, c ∈ a.blocks.filter (·.base ≤ q) ↔ c ∈ a.blocks ∧ c.base ≤ q := by
    simp
  -- what is last among the blocks below starts last, since the blocks ascend
  have last : ∀ b, a.blockBelow? q = some b →
      b ∈ a.blocks ∧ b.base ≤ q ∧ ∀ c ∈ a.blocks, c.base ≤ q → c.base ≤ b.base := by
    intro b found
    obtain ⟨before, split⟩ := List.getLast?_eq_some_iff.mp found
    have ascending := layout.spaced.filter (fun b => decide (b.base ≤ q))
    rw [split, List.pairwise_append] at ascending
    have hb := (mem_filter b).mp (by rw [split]; simp)
    refine ⟨hb.1, hb.2, fun c hc hcq => ?_⟩
    have hc' := (mem_filter c).mpr ⟨hc, hcq⟩
    rw [split, List.mem_append, List.mem_singleton] at hc'
    rcases hc' with hc' | rfl
    · have := ascending.2.2 c hc' b (by simp)
      omega
    · exact Nat.le_refl _
  constructor
  · exact last b
  · rintro ⟨hb, hbq, greatest⟩
    cases found : a.blockBelow? q with
    | none =>
      have none_below := List.getLast?_eq_none_iff.mp found
      exact absurd ((mem_filter b).mpr ⟨hb, hbq⟩) (by simp [none_below])
    | some c =>
      obtain ⟨hc, hcq, hgreatest⟩ := last c found
      have same : c.base = b.base := Nat.le_antisymm (greatest c hc hcq) (hgreatest b hb hbq)
      rw [layout.eq_of_base_eq hc hb same]

/-- A block covers the addresses up to its end, and no other block starts between. -/
theorem Layout.blockBelow?_eq_some (layout : a.Layout) (hb : b ∈ a.blocks) {q : Nat} (b_le : b.base ≤ q)
    (le_b : q ≤ b.base + b.bytes.length) : a.blockBelow? q = some b := by
  rw [layout.blockBelow?_eq_some_iff]
  refine ⟨hb, b_le, fun c hc hcq => ?_⟩
  have reach_b := lt_reach b.bytes.length
  rcases layout.eq_or_apart hb hc with rfl | h | h
  · exact Nat.le_refl _
  · omega
  · omega

/-- No address that was handed out is nil. -/
theorem isNil_of_le {p : Pointer} (h : baseAddress ≤ p.address.toNat) : p.isNil = false := by
  rw [Pointer.isNil, beq_eq_false_iff_ne]
  intro zero
  rw [zero, UInt64.toNat_zero] at h
  unfold baseAddress at h
  omega

/-- No block starts at nil. -/
theorem Layout.not_isNil (layout : a.Layout) (hb : b ∈ a.blocks) {p : Pointer}
    (h : b.base ≤ p.address.toNat) : p.isNil = false :=
  isNil_of_le (Nat.le_trans (layout.base_le b hb) h)

/-- **A range is found exactly in the block that holds all of it**, an empty one also at the block's end. -/
theorem Layout.locate_eq_ok_iff (layout : a.Layout) {p : Pointer} {count offset : Nat} :
    a.locate p count = .ok (b, offset) ↔
      b ∈ a.blocks ∧ p.address.toNat = b.base + offset ∧ offset + count ≤ b.bytes.length := by
  constructor
  · intro h
    unfold locate at h
    split at h
    · cases h
    split at h
    · cases h
    -- the block below the pointer is the only one that is looked at
    rename_i block found
    obtain ⟨hb, hbp, -⟩ := layout.blockBelow?_eq_some_iff.mp found
    simp only at h
    split at h
    · cases h
    split at h
    · cases h
      exact ⟨hb, by omega, by assumption⟩
    · cases h
  · rintro ⟨hb, at_offset, fits⟩
    have live := layout.not_isNil (p := p) hb (by omega)
    have found := layout.blockBelow?_eq_some hb (q := p.address.toNat) (by omega) (by omega)
    have offset_eq : p.address.toNat - b.base = offset := by omega
    simp only [locate, live, found, offset_eq, Bool.false_eq_true, if_false]
    rw [if_neg (by omega), if_pos fits]

/-- **A pointer is at no block exactly if it is outside all of them**, their ends included. -/
theorem Layout.locate_eq_noBlock_iff (layout : a.Layout) {p : Pointer} {count : Nat} :
    a.locate p count = .error .noBlock ↔
      p.isNil = false ∧
        ∀ b ∈ a.blocks, p.address.toNat < b.base ∨ b.base + b.bytes.length < p.address.toNat := by
  constructor
  · intro h
    unfold locate at h
    split at h
    · cases h
    rename_i live
    refine ⟨by simpa using live, fun c hc => ?_⟩
    -- a block that reached the pointer would be the one that is found
    by_contra inside
    rw [layout.blockBelow?_eq_some hc (by omega) (by omega)] at h
    simp only at h
    rw [if_neg (by omega)] at h
    split at h <;> cases h
  · rintro ⟨live, outside⟩
    unfold locate
    rw [live, if_neg (by simp)]
    split
    · rfl
    · rename_i block found
      obtain ⟨hb, hbp, -⟩ := layout.blockBelow?_eq_some_iff.mp found
      have beyond := outside block hb
      simp only
      rw [if_pos (by omega)]

/-! ### Changes -/

/-- The arena with a block at the next free address. -/
def place (a : Arena) (bytes : List UInt8) : Arena :=
  { blocks := a.blocks ++ [⟨a.next, bytes⟩], next := a.next + reach bytes.length }

/-- A block is inserted at the next free address, if the address after its reach is one. -/
theorem insert_eq_ok_iff {bytes : List UInt8} {p : Pointer} {a' : Arena} :
    a.insert bytes = .ok (p, a') ↔
      a.next + reach bytes.length < addressLimit ∧ p = ⟨UInt64.ofNat a.next⟩ ∧ a' = a.place bytes := by
  unfold insert place
  by_cases room : a.next + reach bytes.length < addressLimit
  · simp [room, eq_comm]
  · simp [room]

@[simp] theorem next_place (a : Arena) (bytes : List UInt8) :
    (a.place bytes).next = a.next + reach bytes.length := rfl

@[simp] theorem next_erase (a : Arena) (address : Nat) : (a.erase address).next = a.next := rfl

/-- A block that is placed joins the others. -/
@[simp] theorem mem_blocks_place {bytes : List UInt8} :
    b ∈ (a.place bytes).blocks ↔ b ∈ a.blocks ∨ b = ⟨a.next, bytes⟩ := by
  simp [place]

/-- A block that is erased leaves the others. -/
@[simp] theorem mem_blocks_erase {address : Nat} :
    b ∈ (a.erase address).blocks ↔ b ∈ a.blocks ∧ b.base ≠ address := by
  simp [Arena.erase]

/-- The address of a new block is the next free one, also as a pointer. -/
theorem Layout.toNat_next (layout : a.Layout) : (UInt64.ofNat a.next).toNat = a.next :=
  UInt64.toNat_ofNat_of_lt' layout.next_lt

/-- **A block at the next free address keeps the layout**, if its reach ends below the limit. -/
theorem Layout.place (layout : a.Layout) {bytes : List UInt8} (nonempty : 0 < bytes.length)
    (room : a.next + reach bytes.length < addressLimit) : (a.place bytes).Layout where
  base_le_next := Nat.le_trans layout.base_le_next (Nat.le_add_right _ _)
  next_lt := room
  next_aligned := Nat.dvd_add layout.next_aligned (alignment_dvd_reach _)
  spaced := by
    -- every other block has its reach below the next free address
    refine List.pairwise_append.mpr ⟨layout.spaced, List.pairwise_singleton _ _, ?_⟩
    intro b hb c hc
    rw [List.mem_singleton.mp hc]
    exact layout.reach_le b hb
  base_le := by
    intro b hb
    rcases mem_blocks_place.mp hb with hb | rfl
    · exact layout.base_le b hb
    · exact layout.base_le_next
  aligned := by
    intro b hb
    rcases mem_blocks_place.mp hb with hb | rfl
    · exact layout.aligned b hb
    · exact layout.next_aligned
  reach_le := by
    intro b hb
    rcases mem_blocks_place.mp hb with hb | rfl
    · exact Nat.le_trans (layout.reach_le b hb) (Nat.le_add_right _ _)
    · exact Nat.le_refl _
  nonempty := by
    intro b hb
    rcases mem_blocks_place.mp hb with hb | rfl
    · exact layout.nonempty b hb
    · exact nonempty

/-- **So do the blocks that are left without one of them.** -/
theorem Layout.erase (layout : a.Layout) (address : Nat) : (a.erase address).Layout where
  base_le_next := layout.base_le_next
  next_lt := layout.next_lt
  next_aligned := layout.next_aligned
  spaced := layout.spaced.filter _
  base_le b hb := layout.base_le b (mem_blocks_erase.mp hb).1
  aligned b hb := layout.aligned b (mem_blocks_erase.mp hb).1
  reach_le b hb := layout.reach_le b (mem_blocks_erase.mp hb).1
  nonempty b hb := layout.nonempty b (mem_blocks_erase.mp hb).1

/-- Other bytes in a block leave the other blocks as they are. -/
theorem Layout.mem_blocks_update (layout : a.Layout) (hb : b ∈ a.blocks) {bytes : List UInt8} :
    c ∈ (a.update b.base bytes).blocks ↔ (c ∈ a.blocks ∧ c ≠ b) ∨ c = ⟨b.base, bytes⟩ := by
  simp only [Arena.update, List.mem_map]
  constructor
  · rintro ⟨d, hd, rfl⟩
    by_cases same : d.base = b.base
    · simp [same]
    · have ne : d ≠ b := fun h => same (by rw [h])
      simp [same, hd, ne]
  · rintro (⟨hc, ne⟩ | rfl)
    · -- blocks that differ start at different addresses
      have other : c.base ≠ b.base := fun h => ne (layout.eq_of_base_eq hc hb h)
      exact ⟨c, hc, by simp [other]⟩
    · exact ⟨b, hb, by simp⟩

/-- As many bytes as before may take the place of a block's bytes. -/
theorem Layout.update (layout : a.Layout) (hb : b ∈ a.blocks) {bytes : List UInt8}
    (length_eq : bytes.length = b.bytes.length) : (a.update b.base bytes).Layout := by
  -- every block keeps its place and its size
  have keeps : ∀ c ∈ a.blocks,
      (if c.base == b.base then { c with bytes } else c).base = c.base ∧
      (if c.base == b.base then { c with bytes } else c).bytes.length = c.bytes.length := by
    intro c hc
    by_cases same : c.base = b.base
    · simp [length_eq, layout.eq_of_base_eq hc hb same]
    · simp [same]
  refine ⟨layout.base_le_next, layout.next_lt, layout.next_aligned, ?_, ?_, ?_, ?_, ?_⟩
  · refine List.pairwise_map.mpr (layout.spaced.imp_of_mem fun hc hd apart => ?_)
    rw [(keeps _ hc).1, (keeps _ hc).2, (keeps _ hd).1]
    exact apart
  · intro d hd
    obtain ⟨c, hc, rfl⟩ := List.mem_map.mp hd
    rw [(keeps c hc).1]
    exact layout.base_le c hc
  · intro d hd
    obtain ⟨c, hc, rfl⟩ := List.mem_map.mp hd
    rw [(keeps c hc).1]
    exact layout.aligned c hc
  · intro d hd
    obtain ⟨c, hc, rfl⟩ := List.mem_map.mp hd
    rw [(keeps c hc).1, (keeps c hc).2]
    exact layout.reach_le c hc
  · intro d hd
    obtain ⟨c, hc, rfl⟩ := List.mem_map.mp hd
    rw [(keeps c hc).2]
    exact layout.nonempty c hc

end Arena

end SystemUnit
