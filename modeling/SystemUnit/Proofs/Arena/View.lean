import SystemUnit.Proofs.Arena.Store

namespace SystemUnit

namespace Arena

/-!
# The store of an arena

Each change of an arena is one of its store.

* `view` — the blocks of an arena with their sizes, and the byte that each address holds;
* `Layout.size_eq_some_iff`, `Layout.byte_eq_some_iff` — both in terms of the list of blocks;
* `Layout.disjoint_view` — the store has disjoint blocks;
* `Layout.size_congr`, `Layout.byte_congr` — where the store stays as it was;
* `Layout.view_place`, `Layout.view_erase`, `Layout.view_overwrites` — a new block, a block less, other bytes.
-/

variable {a a' : Arena} {b : Block} {p q : Pointer}

/-- The blocks with their sizes, and at each address the byte of the block that covers it. -/
def view (a : Arena) : Store where
  size address := (a.block? address).map (·.bytes.length)
  byte address :=
    (a.blocks.find? fun b => b.base ≤ address && address < b.base + b.bytes.length).bind fun b =>
      b.bytes[address - b.base]?

/-- The empty arena has the empty store. -/
@[simp] theorem view_empty : Arena.empty.view = .empty := rfl

/-- The blocks of the store are those of the list, with their lengths. -/
theorem Layout.size_eq_some_iff (layout : a.Layout) {address n : Nat} :
    a.view.size address = some n ↔ ∃ b ∈ a.blocks, b.base = address ∧ b.bytes.length = n := by
  simp only [view, Option.map_eq_some_iff, layout.block?_eq_some_iff, and_assoc]

/-- The byte at an address of a block. -/
theorem Layout.byte_of_mem (layout : a.Layout) (hb : b ∈ a.blocks) {address : Nat} (le : b.base ≤ address)
    (lt : address < b.base + b.bytes.length) : a.view.byte address = b.bytes[address - b.base]? := by
  simp only [view]
  cases found : a.blocks.find? fun b => b.base ≤ address && address < b.base + b.bytes.length with
  | none =>
    have absent := List.find?_eq_none.mp found b hb
    simp only [Bool.and_eq_true, decide_eq_true_eq] at absent
    exact absurd ⟨le, lt⟩ absent
  | some c =>
    have hc := List.mem_of_find?_eq_some found
    have covers := List.find?_some found
    simp only [Bool.and_eq_true, decide_eq_true_eq] at covers
    -- an address is covered by one block only, and so the one that is found is the right one
    rw [layout.eq_of_mem_closed hb hc le (by omega) covers.1 (by omega)]
    rfl

/-- No byte stands at an address that no block covers. -/
theorem byte_of_outside {address : Nat}
    (outside : ∀ b ∈ a.blocks, address < b.base ∨ b.base + b.bytes.length ≤ address) :
    a.view.byte address = none := by
  have absent : (a.blocks.find? fun b => b.base ≤ address && address < b.base + b.bytes.length) = none := by
    rw [List.find?_eq_none]
    intro b hb
    have := outside b hb
    simp only [Bool.and_eq_true, decide_eq_true_eq]
    omega
  simp only [view, absent, Option.bind_none]

/-- The bytes of the store are those of the blocks of the list. -/
theorem Layout.byte_eq_some_iff (layout : a.Layout) {address : Nat} {v : UInt8} :
    a.view.byte address = some v ↔
      ∃ b ∈ a.blocks, b.base ≤ address ∧ b.bytes[address - b.base]? = some v := by
  constructor
  · intro h
    by_contra none
    -- a block that covered the address would have the byte
    have outside : ∀ b ∈ a.blocks, address < b.base ∨ b.base + b.bytes.length ≤ address := by
      intro b hb
      by_contra inside
      rw [layout.byte_of_mem hb (by omega) (by omega)] at h
      exact none ⟨b, hb, by omega, h⟩
    rw [byte_of_outside outside] at h
    cases h
  · rintro ⟨b, hb, le, at_offset⟩
    have lt := (List.getElem?_eq_some_iff.mp at_offset).1
    rw [layout.byte_of_mem hb le (by omega), at_offset]

/-- **The store of an arena is one of disjoint blocks.** -/
theorem Layout.disjoint_view (layout : a.Layout) : a.view.Disjoint where
  apart := by
    intro x y n k hx hy ne
    obtain ⟨b, hb, rfl, rfl⟩ := layout.size_eq_some_iff.mp hx
    obtain ⟨c, hc, rfl, rfl⟩ := layout.size_eq_some_iff.mp hy
    have reach_b := lt_reach b.bytes.length
    have reach_c := lt_reach c.bytes.length
    -- blocks lie apart by their reach, which is more than by their bytes
    rcases layout.eq_or_apart hb hc with rfl | h | h
    · exact absurd rfl ne
    · exact .inl (by omega)
    · exact .inr (by omega)
  mapped := by
    intro address
    constructor
    · rintro ⟨v, hv⟩
      obtain ⟨b, hb, le, at_offset⟩ := layout.byte_eq_some_iff.mp hv
      have lt := (List.getElem?_eq_some_iff.mp at_offset).1
      exact ⟨b.base, b.bytes.length, layout.size_eq_some_iff.mpr ⟨b, hb, rfl, rfl⟩, le, by omega⟩
    · rintro ⟨x, n, hx, le, lt⟩
      obtain ⟨b, hb, rfl, rfl⟩ := layout.size_eq_some_iff.mp hx
      rw [layout.byte_of_mem hb le lt, List.getElem?_eq_getElem (by omega)]
      exact ⟨_, rfl⟩

/-- A range that one block holds. -/
theorem Layout.within_view (layout : a.Layout) (hb : b ∈ a.blocks) {offset count : Nat}
    (fits : offset + count ≤ b.bytes.length) : a.view.Within (b.base + offset) count :=
  .inr ⟨b.base, b.bytes.length, layout.size_eq_some_iff.mpr ⟨b, hb, rfl, rfl⟩, by omega, by omega⟩

/-! ### Changes of an arena and of its store -/

/-- Where the same blocks start, the store has the same blocks. -/
theorem Layout.size_congr (layout : a.Layout) (layout' : a'.Layout) {address : Nat}
    (same : ∀ c : Block, c.base = address → (c ∈ a'.blocks ↔ c ∈ a.blocks)) :
    a'.view.size address = a.view.size address := by
  apply Option.ext
  intro n
  rw [layout'.size_eq_some_iff, layout.size_eq_some_iff]
  -- both directions, as the block is the same in either arena
  constructor
  · rintro ⟨c, hc, at_address, length_eq⟩
    exact ⟨c, (same c at_address).mp hc, at_address, length_eq⟩
  · rintro ⟨c, hc, at_address, length_eq⟩
    exact ⟨c, (same c at_address).mpr hc, at_address, length_eq⟩

/-- An address that the same blocks cover holds the same byte. -/
theorem Layout.byte_congr (layout : a.Layout) (layout' : a'.Layout) {address : Nat}
    (same : ∀ c : Block, c.base ≤ address → address < c.base + c.bytes.length →
      (c ∈ a'.blocks ↔ c ∈ a.blocks)) : a'.view.byte address = a.view.byte address := by
  apply Option.ext
  intro v
  rw [layout'.byte_eq_some_iff, layout.byte_eq_some_iff]
  constructor
  · rintro ⟨c, hc, le, at_offset⟩
    have lt := (List.getElem?_eq_some_iff.mp at_offset).1
    exact ⟨c, (same c le (by omega)).mp hc, le, at_offset⟩
  · rintro ⟨c, hc, le, at_offset⟩
    have lt := (List.getElem?_eq_some_iff.mp at_offset).1
    exact ⟨c, (same c le (by omega)).mpr hc, le, at_offset⟩

/-- What happens to a block does not change the bytes around it, as long as it gets no longer. -/
theorem Layout.byte_congr_outside (layout : a.Layout) (layout' : a'.Layout) (hb : b ∈ a.blocks)
    (other : ∀ c : Block, c.base ≠ b.base → (c ∈ a'.blocks ↔ c ∈ a.blocks))
    (length_eq : ∀ c ∈ a'.blocks, c.base = b.base → c.bytes.length = b.bytes.length) {address : Nat}
    (outside : ¬ (b.base ≤ address ∧ address < b.base + b.bytes.length)) :
    a'.view.byte address = a.view.byte address := by
  refine layout.byte_congr layout' fun c le lt => ?_
  by_cases same : c.base = b.base
  · -- the block covers the address neither before nor after
    have absent' : c ∉ a'.blocks := by
      intro hc
      rw [same] at le lt
      rw [length_eq c hc same] at lt
      exact outside ⟨le, lt⟩
    have absent : c ∉ a.blocks := by
      intro hc
      rw [layout.eq_of_base_eq hc hb same] at le lt
      exact outside ⟨le, lt⟩
    exact iff_of_false absent' absent
  · exact other c same

/-- A new block is one of the store, and the bytes around it stay. -/
theorem Layout.view_place (layout : a.Layout) {bytes : List UInt8} (nonempty : 0 < bytes.length)
    (room : a.next + reach bytes.length < addressLimit) :
    (a.place bytes).view = a.view.add a.next bytes.length (bytes[·]?) := by
  have layout' := layout.place nonempty room
  have fresh : ⟨a.next, bytes⟩ ∈ (a.place bytes).blocks := mem_blocks_place.mpr (.inr rfl)
  have other : ∀ c : Block, c ≠ ⟨a.next, bytes⟩ → (c ∈ (a.place bytes).blocks ↔ c ∈ a.blocks) := by
    intro c ne
    rw [mem_blocks_place]
    exact or_iff_left ne
  ext1
  · funext address
    simp only [Store.add, Store.patch]
    -- the new block starts where nothing has started before
    by_cases at_next : address = a.next
    · rw [if_pos at_next, layout'.size_eq_some_iff]
      exact ⟨_, fresh, at_next.symm, rfl⟩
    · rw [if_neg at_next]
      exact layout.size_congr layout' fun c at_address => other c fun eq => at_next (by rw [← at_address, eq])
  · funext address
    simp only [Store.add, Store.patch]
    -- the bytes of the new block are its own, and those around it are as before
    by_cases inside : a.next ≤ address ∧ address < a.next + bytes.length
    · rw [if_pos inside]
      exact layout'.byte_of_mem fresh inside.1 inside.2
    · rw [if_neg inside]
      refine layout.byte_congr layout' fun c le lt => other c ?_
      rintro rfl
      exact inside ⟨le, lt⟩

/-- A released block is gone from the store, and no other. -/
theorem Layout.view_erase (layout : a.Layout) (hb : b ∈ a.blocks) :
    (a.erase b.base).view = a.view.remove b.base b.bytes.length := by
  have layout' := layout.erase b.base
  have other : ∀ c : Block, c.base ≠ b.base → (c ∈ (a.erase b.base).blocks ↔ c ∈ a.blocks) := by
    intro c ne
    rw [mem_blocks_erase]
    exact and_iff_left ne
  ext1
  · funext address
    simp only [Store.remove, Store.patch]
    by_cases at_base : address = b.base
    · rw [if_pos at_base, at_base]
      show ((a.erase b.base).block? b.base).map _ = none
      rw [block?_eq_none_iff.mpr fun c hc => (mem_blocks_erase.mp hc).2]
      rfl
    · rw [if_neg at_base]
      exact layout.size_congr layout' fun c at_address => other c (by rw [at_address]; exact at_base)
  · funext address
    simp only [Store.remove, Store.patch]
    by_cases inside : b.base ≤ address ∧ address < b.base + b.bytes.length
    · rw [if_pos inside]
      refine byte_of_outside fun c hc => ?_
      obtain ⟨hc, ne⟩ := mem_blocks_erase.mp hc
      -- another block that covered the address would be the one that is gone
      by_contra covers
      exact ne (by rw [layout.eq_of_mem_closed hb hc inside.1 (by omega) (by omega) (by omega)])
    · rw [if_neg inside]
      exact layout.byte_congr_outside layout' hb other
        (fun c hc same => absurd same (mem_blocks_erase.mp hc).2) inside

theorem getElem?_overwrite {offset i : Nat} {data : List UInt8}
    (fits : offset + data.length ≤ b.bytes.length) :
    (overwrite b offset data)[i]? =
      if offset ≤ i ∧ i < offset + data.length then data[i - offset]? else b.bytes[i]? := by
  have length_take : (b.bytes.take offset).length = offset := by rw [List.length_take]; omega
  unfold overwrite
  -- before the bytes, in them, and behind them
  by_cases before : i < offset
  · rw [if_neg (by omega), List.append_assoc, List.getElem?_append_left (by omega),
      List.getElem?_take_of_lt before]
  · rw [List.append_assoc, List.getElem?_append_right (by omega), length_take]
    by_cases inside : i < offset + data.length
    · rw [if_pos (by omega), List.getElem?_append_left (by omega)]
    · rw [if_neg (by omega), List.getElem?_append_right (by omega), List.getElem?_drop]
      congr 1
      omega

/-- Overwritten bytes are written in the store, and the bytes around them stay. -/
theorem Layout.view_overwrites (layout : a.Layout) {data : List UInt8}
    (h : a.Overwrites p.address.toNat data a') : a.view.Writes p data a'.view := by
  obtain ⟨b, hb, offset, at_offset, fits, rfl⟩ := h
  have length_eq := length_overwrite fits
  have layout' := layout.update hb length_eq
  have written : ⟨b.base, overwrite b offset data⟩ ∈ (a.update b.base (overwrite b offset data)).blocks :=
    (layout.mem_blocks_update hb).mpr (.inr rfl)
  have other : ∀ c : Block, c.base ≠ b.base →
      (c ∈ (a.update b.base (overwrite b offset data)).blocks ↔ c ∈ a.blocks) := by
    intro c ne
    rw [layout.mem_blocks_update hb]
    constructor
    · rintro (⟨hc, -⟩ | rfl)
      · exact hc
      · exact absurd rfl ne
    · intro hc
      exact .inl ⟨hc, fun same => ne (by rw [same])⟩
  refine ⟨by rw [at_offset]; exact layout.within_view hb fits, ?_⟩
  rw [at_offset]
  ext1
  · funext address
    simp only [Store.write, Store.patch]
    by_cases at_base : address = b.base
    · have size_before : a.view.size b.base = some b.bytes.length :=
        layout.size_eq_some_iff.mpr ⟨b, hb, rfl, rfl⟩
      rw [at_base, size_before, layout'.size_eq_some_iff]
      exact ⟨_, written, rfl, length_eq⟩
    · exact layout.size_congr layout' fun c at_address => other c (by rw [at_address]; exact at_base)
  · funext address
    simp only [Store.write, Store.patch]
    by_cases inside : b.base ≤ address ∧ address < b.base + b.bytes.length
    · -- in the block itself the bytes are those of `overwrite`
      have new : (a.update b.base (overwrite b offset data)).view.byte address =
          (overwrite b offset data)[address - b.base]? :=
        layout'.byte_of_mem written inside.1
          (show address < b.base + (overwrite b offset data).length by omega)
      rw [new, getElem?_overwrite fits]
      split
      · rw [if_pos (by omega)]
        congr 1
        omega
      · rw [if_neg (by omega), layout.byte_of_mem hb inside.1 inside.2]
    · -- elsewhere they are those of the other blocks, which are the same
      rw [if_neg (by omega)]
      refine layout.byte_congr_outside layout' hb other (fun c hc same => ?_) inside
      rw [layout'.eq_of_base_eq hc written same]
      exact length_eq

end Arena

end SystemUnit
