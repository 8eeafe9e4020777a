import SystemUnit.Text.Edit

namespace SystemUnit

namespace Text

/-!
# Parts of a text

A text that is split into three parts shows what the operations on an index and a count do: the middle part is
copied, taken out, or put back between the other two.  Every index from 1 on and every count split a text so.

* `copy_of_pos`, `delete_of_pos` — the operations as one rule each, also for what lies outside the text;
* `copy_part`, `delete_part`, `insert_part` — the operations on a text that is split;
* `exists_part`, `exists_place` — the part that an index and a count stand for, and the place of an index;
* `copy_delete_insert` — what is taken out can be put back, and what is put in can be taken out.
-/

variable {before part after : List CodeUnit} {index : Int}

/-! ### One rule for every index from 1 on -/

theorem copy_of_pos (s : Text) (pos : 1 ≤ index) (count : Int) :
    s.copy index count = ⟨(s.units.drop (index - 1).toNat).take count.toNat⟩ := by
  rw [copy, Int.max_eq_left pos]

/-- Behind the last unit there is nothing to delete, so that no index is an exception. -/
theorem delete_of_pos (s : Text) (pos : 1 ≤ index) (count : Int) :
    s.delete index count =
      ⟨s.units.take (index - 1).toNat ++ s.units.drop ((index - 1).toNat + count.toNat)⟩ := by
  unfold delete
  cases found : s.offset? index with
  | some i =>
    obtain ⟨same, -⟩ := offset?_eq_some_iff.mp found
    obtain rfl : (index - 1).toNat = i := by omega
    rfl
  | none =>
    -- an index from 1 on that has no offset is greater than the size
    have outside : s.units.length ≤ (index - 1).toNat := by
      apply Nat.le_of_not_lt
      intro inside
      have := offset?_eq_some_iff (s := s).mpr ⟨show index = (index - 1).toNat + 1 by omega, inside⟩
      rw [found] at this
      cases this
    rw [List.take_of_length_le outside, List.drop_of_length_le (Nat.le_add_right_of_le outside), List.append_nil]

/-! ### A text that is split -/

theorem copy_part (before part after : List CodeUnit) :
    copy ⟨before ++ part ++ after⟩ (before.length + 1) part.length = ⟨part⟩ := by
  rw [copy_of_pos _ (by omega)]
  simp

theorem delete_part (before part after : List CodeUnit) :
    delete ⟨before ++ part ++ after⟩ (before.length + 1) part.length = ⟨before ++ after⟩ := by
  rw [delete_of_pos _ (by omega)]
  simp [List.drop_append]

/-- A text is put where its index is brought to. -/
theorem insert_part (place : max 1 (min index ((before ++ after).length + 1)) = before.length + 1) :
    insert ⟨before ++ after⟩ ⟨part⟩ index = ⟨before ++ part ++ after⟩ := by
  unfold insert size
  rw [place]
  simp

/-! ### The part of an index and a count -/

/-- **Every index from 1 on and every count stand for a part**, which is empty if there are no such units.  In what is
    left when it is taken out, the index is brought to the place where the part was. -/
theorem exists_part (s : Text) (pos : 1 ≤ index) (count : Int) :
    ∃ before part after, s = ⟨before ++ part ++ after⟩ ∧ s.copy index count = ⟨part⟩ ∧
      s.delete index count = ⟨before ++ after⟩ ∧ (before.length : Int) = min (index - 1) s.size ∧
      max 1 (min index ((before ++ after).length + 1)) = before.length + 1 := by
  refine ⟨s.units.take (index - 1).toNat, (s.units.drop (index - 1).toNat).take count.toNat,
    (s.units.drop (index - 1).toNat).drop count.toNat, ?_, copy_of_pos s pos count, ?_, ?_, ?_⟩
  · rw [List.append_assoc, List.take_append_drop, List.take_append_drop]
  · rw [delete_of_pos s pos, List.drop_drop]
  · rw [List.length_take]
    unfold size
    omega
  · simp only [List.length_append, List.length_take, List.length_drop]
    omega

/-- Every index is brought to a place that splits the text in two. -/
theorem exists_place (s : Text) (index : Int) :
    ∃ before after, s = ⟨before ++ after⟩ ∧ max 1 (min index (s.size + 1)) = before.length + 1 := by
  refine ⟨s.units.take (max 1 (min index (s.size + 1)) - 1).toNat,
    s.units.drop (max 1 (min index (s.size + 1)) - 1).toNat, ?_, ?_⟩
  · rw [List.take_append_drop]
  · rw [List.length_take]
    unfold size
    omega

/-- **What is taken out can be put back, and what is put in can be taken out.**  From an index from 1 on, the units
    that are copied are those that are deleted, whatever the count, and inserting them there restores the text.  What
    is inserted, at whatever index, is found where that index is brought to, and deleting it there restores the
    text. -/
theorem copy_delete_insert (s t : Text) :
    (∀ i n : Int, 1 ≤ i →
      (s.delete i n).insert (s.copy i n) i = s ∧
      (s.delete i n).size + (s.copy i n).size = s.size ∧
      ∃ before after, s.units = before ++ (s.copy i n).units ++ after ∧
        (s.delete i n).units = before ++ after ∧ (before.length : Int) = min (i - 1) s.size) ∧
    ∀ j : Int, let place := max 1 (min j (s.size + 1))
      (s.insert t j).delete place t.size = s ∧ (s.insert t j).copy place t.size = t := by
  refine ⟨fun i n pos => ?_, fun j => ?_⟩
  · obtain ⟨before, part, after, whole, copied, left, length, place⟩ := exists_part s pos n
    rw [copied, left]
    refine ⟨?_, ?_, before, after, ?_, rfl, length⟩
    · rw [insert_part place, ← whole]
    · rw [whole]
      simp only [size, List.length_append]
      omega
    · rw [whole]
  · obtain ⟨before, after, rfl, place⟩ := exists_place s j
    obtain ⟨part⟩ := t
    dsimp only
    -- what was put in is the middle part of the new text
    rw [insert_part place, place]
    exact ⟨delete_part before part after, copy_part before part after⟩

/-- The end of a text is taken out by the greatest count, nothing by the least one, and a text is put behind the
    last unit by an index that is too great. -/
theorem copy_delete_insert_extreme :
    let s : Text := ⟨[0x61, 0x62, 0x63]⟩
    let t : Text := ⟨[0x78, 0x79]⟩
    s.copy 2 0x7FFFFFFFFFFFFFFF = ⟨[0x62, 0x63]⟩ ∧
      (s.delete 2 0x7FFFFFFFFFFFFFFF).insert (s.copy 2 0x7FFFFFFFFFFFFFFF) 2 = s ∧
      s.copy 3 (-0x8000000000000000) = .empty ∧
      (s.delete 3 (-0x8000000000000000)).insert (s.copy 3 (-0x8000000000000000)) 3 = s ∧
      s.insert t 0x7FFFFFFFFFFFFFFF = s ++ t ∧ (s.insert t 0x7FFFFFFFFFFFFFFF).delete 4 2 = s := by
  intro s t
  refine ⟨by decide, ?_, by decide, ?_, by decide, ?_⟩
  · exact ((copy_delete_insert s t).1 2 _ (by decide)).1
  · exact ((copy_delete_insert s t).1 3 _ (by decide)).1
  · exact ((copy_delete_insert s t).2 0x7FFFFFFFFFFFFFFF).1

end Text

end SystemUnit
