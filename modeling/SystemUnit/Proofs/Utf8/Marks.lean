import SystemUnit.Proofs.Text.Ascii

namespace SystemUnit

namespace Utf8

/-!
# Marks for what is no character

Bytes are decoded with or without a mark for each ill-formed piece.

* `pieces_append_of_illFormed` — an ill-formed piece is found at the front, whatever follows it;
* `Chunk.marked`, `Chunks.decodeMarked_eq` — the characters of the chunks, with a mark behind each but a last run;
* `decodeMarked_eq_decode_iff` — marks make no difference exactly if the bytes are valid.
-/

variable {bytes bad rest : List UInt8}

/-- An ill-formed piece is found at the front, whatever follows it. -/
theorem pieces_append_of_illFormed (illFormed : IllFormed bad rest) :
    pieces (bad ++ rest) = .malformed :: pieces rest :=
  pieces_of_cut (.malformed rfl illFormed)

/-- The characters of a run, and a mark for the ill-formed piece after it. -/
def Chunk.marked (chunk : Chunk) : List Char :=
  chunk.valid ++ if chunk.malformed = [] then [] else [Char.ofNat 0xFFFD]

/-- **What is decoded with marks** are the characters of all runs, with a mark for each ill-formed piece. -/
theorem Chunks.decodeMarked_eq {chunks : List Chunk} (h : Chunks bytes chunks) :
    decodeMarked bytes = chunks.flatMap Chunk.marked := by
  induction h with
  | nil => exact decodeMarked_encode []
  | @last cs nonempty =>
    rw [decodeMarked_encode, List.flatMap_singleton, Chunk.marked, if_pos rfl, List.append_nil]
  | @cons cs bad rest chunks illFormed _ ih =>
    have run : (cs.map Piece.char).map (fun p => p.char?.getD (Char.ofNat 0xFFFD)) = cs := by
      rw [List.map_map]
      exact List.map_id cs
    rw [decodeMarked] at ih ⊢
    rw [pieces_encode_append, pieces_append_of_illFormed illFormed, List.map_append, run, List.map_cons, ih,
      List.flatMap_cons, Chunk.marked, if_neg illFormed.nonempty, List.append_assoc]
    rfl

/-- No bytes are lost altogether. -/
theorem decodeMarked_ne_nil (some : bytes ≠ []) : decodeMarked bytes ≠ [] := by
  cases bytes with
  | nil => exact absurd rfl some
  | cons b rest =>
    rw [decodeMarked, pieces, List.map_cons]
    exact List.cons_ne_nil _ _

/-- **Marks make no difference exactly if the bytes are valid.** -/
theorem decodeMarked_eq_decode_iff : decodeMarked bytes = decode bytes ↔ bytes.toByteArray.IsValidUTF8 := by
  rw [isValidUTF8_iff]
  constructor
  · intro same
    refine ⟨decode bytes, ?_⟩
    revert same
    unfold decodeMarked decode
    refine pieces_induction (motive := fun bytes pieces =>
      pieces.map (fun p => p.char?.getD (Char.ofNat 0xFFFD)) = pieces.filterMap Piece.char? →
        bytes = encode (pieces.filterMap Piece.char?)) ?_ ?_ ?_ bytes
    · exact fun _ => rfl
    · intro c rest ih same
      exact congrArg (String.utf8EncodeChar c ++ ·) (ih (List.cons.inj same).2)
    · -- a mark is one character more than there are pieces for
      intro bad rest _ _ same
      have fewer := List.length_filterMap_le Piece.char? (pieces rest)
      have length_eq := congrArg List.length same
      rw [List.length_map, List.length_cons, List.filterMap_cons_none rfl] at length_eq
      omega
  · rintro ⟨cs, rfl⟩
    rw [decodeMarked_encode, decode_encode]

end Utf8

end SystemUnit
