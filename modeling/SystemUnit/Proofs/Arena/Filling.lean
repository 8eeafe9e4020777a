import SystemUnit.Proofs.Arena.Refinement

namespace SystemUnit

namespace Arena

/-!
# Fills with words

A fill with words of several bytes has the number of these bytes for its count, as an integer of 64 bits with a
sign.  As long as that is the number itself, a fill is as good as any other; a greater number reads as a negative
one, and to fill a negative number of bytes is to do nothing.

* `byteCount_of_lt`, `byteCount_neg` — the number of bytes, and what becomes of one that is too great;
* `Layout.fillBytes_isOk_iff` — a fill is accepted exactly where one block has room for it;
* `FillsExactly` — a fill that is refused, or writes its words and changes nothing else;
* `Layout.fillsExactly`, `fill_skipped` — a fill within the limit, and one beyond it;
* `wide_fill_exact_within_limit` — both for words and double words, in every arena;
* `wide_fill_skipped` — a fill beyond the limit is accepted where there is no room for it.
-/

variable {a a' : Arena} {p : Pointer} {pattern : List UInt8} {count : Int} {width : Nat}

/-! ### The number of bytes -/

/-- The first number of bytes that is no integer of 64 bits with a sign. -/
def fillLimit : Nat := 0x8000000000000000

/-- An integer of 64 bits is the residue around zero. -/
theorem wrap_int64 (n : Int) : WholeKind.int64.wrap n = n.bmod addressLimit := rfl

/-- A number of bytes that is an integer of 64 bits is the count itself. -/
theorem byteCount_of_lt (lt : count.toNat * width < fillLimit) :
    byteCount count width = (count.toNat * width : Nat) := by
  unfold fillLimit at lt
  unfold byteCount
  rw [wrap_int64]
  unfold addressLimit
  rw [Nat.min_eq_left (by omega)]
  exact Int.bmod_eq_of_le (by omega) (by omega)

/-- A number of bytes that is too great reads as a negative one. -/
theorem byteCount_neg (le : fillLimit ≤ count.toNat * width) : byteCount count width < 0 := by
  unfold fillLimit at le
  unfold byteCount
  rw [wrap_int64]
  unfold addressLimit
  generalize count.toNat * width = size at le ⊢
  rw [Int.bmod_def]
  omega

/-! ### Where a fill is accepted -/

/-- **A fill is accepted exactly where one block has room for it.** -/
theorem Layout.fillBytes_isOk_iff (layout : a.Layout) :
    (∃ a', a.fillBytes p count pattern = .ok a') ↔ a.view.Within p.address.toNat count.toNat := by
  unfold fillBytes
  split
  · rename_i none
    exact ⟨fun _ => .inl (by omega), fun _ => ⟨a, rfl⟩⟩
  · constructor
    · rintro ⟨a', done⟩
      obtain ⟨⟨b, offset⟩, found, -⟩ := bind_eq_ok done
      obtain ⟨hb, at_offset, fits⟩ := layout.locate_eq_ok_iff.mp found
      rw [at_offset]
      exact layout.within_view hb fits
    · intro within
      obtain ⟨place, found⟩ := layout.locate_of_within (by omega) within
      rw [found]
      exact ⟨_, rfl⟩

/-- A pattern fills a multiple of its length as often as the multiple says. -/
theorem repeated_mul (nonempty : pattern ≠ []) (n : Nat) :
    repeated pattern (n * pattern.length) = (List.replicate n pattern).flatten := by
  rw [repeated, Nat.mul_div_cancel n (List.length_pos_iff.mpr nonempty)]

/-- Bytes that are written leave the next free address where it is. -/
theorem next_overwrites {address : Nat} {data : List UInt8} (h : a.Overwrites address data a') :
    a'.next = a.next := by
  obtain ⟨b, -, offset, -, -, rfl⟩ := h
  rfl

/-! ### Fills with words -/

/-- **What a fill with `count` words should do.**  If one live block holds the place of all of them it is accepted,
    writes them one after another, each with its byte of least weight first, and changes nothing else.  If not it is
    refused, and leaves the arena as it was. -/
structure FillsExactly (a : Arena) (call : Call) (p : Pointer) (width value count : Nat) : Prop where
  accepted : a.view.Within p.address.toNat (count * width) →
    ∃ a', a.perform call = (.ok none, a') ∧ a'.next = a.next ∧
      a.view.Writes p (List.replicate count (Bytes.ofNat width value)).flatten a'.view
  refused : ¬ a.view.Within p.address.toNat (count * width) → ∃ fault, a.perform call = (.error fault, a)

variable {call : Call} {value : Nat}

/-- A fill whose number of bytes is an integer of 64 bits with a sign does what it should. -/
theorem Layout.fillsExactly (layout : a.Layout) (pos : 0 < width)
    (performed : a.perform call = a.writing (a.fillBytes p (byteCount count width) (Bytes.ofNat width value)))
    (lt : count.toNat * width < fillLimit) : a.FillsExactly call p width value count.toNat := by
  have length_eq : (Bytes.ofNat width value).length = width := Bytes.length_ofNat _ _
  have nonempty : Bytes.ofNat width value ≠ [] := List.length_pos_iff.mp (by omega)
  rw [byteCount_of_lt lt] at performed
  have isOk : (∃ a', a.fillBytes p (count.toNat * width : Nat) (Bytes.ofNat width value) = .ok a') ↔
      a.view.Within p.address.toNat (count.toNat * width) := layout.fillBytes_isOk_iff
  constructor
  · -- accepted: the bytes that are written are the words one after another
    intro within
    obtain ⟨a', done⟩ := isOk.mpr within
    rw [done] at performed
    refine ⟨a', performed, ?_⟩
    rcases layout.fillBytes_eq_ok done with ⟨none, rfl⟩ | ⟨-, written⟩
    · -- no words, no bytes
      have product : count.toNat * width = 0 := by omega
      have zero : count.toNat = 0 := (Nat.mul_eq_zero.mp product).resolve_right (by omega)
      rw [zero]
      exact ⟨rfl, Store.writes_nil p⟩
    · have words := repeated_mul nonempty count.toNat
      rw [length_eq] at words
      rw [Int.toNat_natCast, words] at written
      exact ⟨next_overwrites written, layout.view_overwrites written⟩
  · intro outside
    cases done : a.fillBytes p (count.toNat * width : Nat) (Bytes.ofNat width value) with
    | ok a' => exact absurd (isOk.mp ⟨a', done⟩) outside
    | error fault =>
      rw [done] at performed
      exact ⟨fault, performed⟩

/-- A fill whose number of bytes is greater does nothing. -/
theorem fill_skipped {pattern : List UInt8}
    (performed : a.perform call = a.writing (a.fillBytes p (byteCount count width) pattern))
    (le : fillLimit ≤ count.toNat * width) : a.perform call = (.ok none, a) := by
  have negative := byteCount_neg le
  rw [performed, fillBytes, if_pos (by omega)]
  rfl

/-- **A fill with words does what it should up to a limit**, in every arena and through every pointer: a fill with
    less than 2^62 words, and one with less than 2^61 double words.  With as many or more it is accepted and does
    nothing. -/
theorem wide_fill_exact_within_limit (calls : List Call) (p : Pointer) (count : Int) :
    let a := Arena.empty.after calls
    (∀ value : Whole .word,
      if count < 0x4000000000000000 then
        a.FillsExactly (.fillWord p count value) p 2 value.toNat count.toNat
      else a.perform (.fillWord p count value) = (.ok none, a)) ∧
    ∀ value : Whole .cardinal,
      if count < 0x2000000000000000 then
        a.FillsExactly (.fillDWord p count value) p 4 value.toNat count.toNat
      else a.perform (.fillDWord p count value) = (.ok none, a) := by
  intro a
  have layout : a.Layout := layout_after calls
  refine ⟨fun value => ?_, fun value => ?_⟩
  · have performed : a.perform (.fillWord p count value) =
        a.writing (a.fillBytes p (byteCount count 2) (Bytes.ofNat 2 value.toNat)) :=
      congrArg a.writing (fillWord_eq a p count value)
    -- the limit, in words
    split
    · exact layout.fillsExactly (by decide) performed (by unfold fillLimit; omega)
    · exact fill_skipped performed (by unfold fillLimit; omega)
  · have performed : a.perform (.fillDWord p count value) =
        a.writing (a.fillBytes p (byteCount count 4) (Bytes.ofNat 4 value.toNat)) :=
      congrArg a.writing (fillDWord_eq a p count value)
    split
    · exact layout.fillsExactly (by decide) performed (by unfold fillLimit; omega)
    · exact fill_skipped performed (by unfold fillLimit; omega)

/-- A fill that does what it should is accepted only where one block has room for it. -/
theorem FillsExactly.within {n : Nat} (exact : a.FillsExactly call p width value n)
    (accepted : (a.perform call).1 = .ok none) : a.view.Within p.address.toNat (n * width) := by
  by_contra outside
  obtain ⟨fault, refused⟩ := exact.refused outside
  rw [refused] at accepted
  cases accepted

/-- **A fill beyond the limit is accepted where there is no room for it**, and does nothing: 2^62 words, or 2^61
    double words, in a block of nine bytes. -/
theorem wide_fill_skipped :
    let a := Arena.empty.after [.getMem hostGrants 9]
    (a.perform (.fillWord ⟨0x10000⟩ 0x4000000000000000 ⟨1⟩) = (.ok none, a) ∧
      ¬ a.FillsExactly (.fillWord ⟨0x10000⟩ 0x4000000000000000 ⟨1⟩) ⟨0x10000⟩ 2 1 0x4000000000000000) ∧
    a.perform (.fillDWord ⟨0x10000⟩ 0x2000000000000000 ⟨1⟩) = (.ok none, a) ∧
      ¬ a.FillsExactly (.fillDWord ⟨0x10000⟩ 0x2000000000000000 ⟨1⟩) ⟨0x10000⟩ 4 1 0x2000000000000000 := by
  intro a
  have layout : a.Layout := layout_after _
  have blocks : a.blocks = [⟨0x10000, List.replicate 9 0⟩] := by decide
  have outside : ¬ a.view.Within 0x10000 0x8000000000000000 := by
    rintro (none | ⟨base, size, live, -, fits⟩)
    · omega
    · obtain ⟨b, hb, rfl, rfl⟩ := layout.size_eq_some_iff.mp live
      rw [blocks, List.mem_singleton] at hb
      rw [hb] at fits
      exact absurd fits (by decide)
  exact ⟨⟨rfl, fun exact => outside (exact.within rfl)⟩, rfl, fun exact => outside (exact.within rfl)⟩

end Arena

end SystemUnit
