import SystemUnit.Proofs.Utf8.Encoding

namespace SystemUnit

namespace Utf8

/-!
# Bytes as runs of characters

Any bytes are runs of encodings of characters with ill-formed pieces between them.  An ill-formed piece stands
where no encoding does, and is the longest start of one, or else a single byte.

* `IllFormed` — the first piece of bytes that begin with no encoding;
* `piece_cut` — the table cuts off an encoding, or an ill-formed piece;
* `pieces_induction`, `pieces_of_cut` — bytes, piece by piece, and the first piece;
* `Chunks` — runs of characters, and what stands after each;
* `Chunks.unique`, `exists_chunks` — all bytes have chunks, in one way, and decode to the characters in them;
* `decode_encode`, `encode_decode_eq_iff` — what is decoded is what was encoded, and it encodes to the same bytes
  exactly if they are valid.
-/

variable {b : UInt8} {bytes bad rest : List UInt8} {c : Char}

/-! ### Pieces -/

/-- Whether bytes begin with the encoding of no character. -/
def NoChar (bytes : List UInt8) : Prop := ∀ c, ¬ String.utf8EncodeChar c <+: bytes

/-- `bad` is the ill-formed piece at the front of `bad ++ rest`, which begins with no encoding: the longest start
    of one, or else a single byte. -/
structure IllFormed (bad rest : List UInt8) : Prop where
  nonempty : bad ≠ []
  noChar : NoChar (bad ++ rest)
  start : bad.length = 1 ∨ Starts bad
  longest : ∀ more, more <+: rest → Starts (bad ++ more) → more = []

/-- What is cut off the front of bytes: a character with all of its encoding, or an ill-formed piece. -/
inductive Cut (bytes : List UInt8) : Piece → List UInt8 → Prop where
  | char {c : Char} {rest : List UInt8} (eq : bytes = String.utf8EncodeChar c ++ rest) : Cut bytes (.char c) rest
  | malformed {bad rest : List UInt8} (eq : bytes = bad ++ rest) (illFormed : IllFormed bad rest) :
      Cut bytes .malformed rest

/-- Bytes that start no more than one ill-formed piece: no encoding ends in it, and no start of one goes on past
    it. -/
theorem illFormed_cons {tail : List UInt8} (start : tail = [] ∨ Starts (b :: tail))
    (whole : ∀ t c, t <+: tail → String.utf8EncodeChar c ≠ b :: t)
    (within : ∀ t, t <+: tail ++ rest → Starts (b :: t) → t <+: tail) : IllFormed (b :: tail) rest where
  nonempty := List.cons_ne_nil _ _
  noChar := by
    -- an encoding would begin with the same byte, and so stop within the piece, which it does not
    intro c le
    cases encoding : String.utf8EncodeChar c with
    | nil => exact String.utf8EncodeChar_ne_nil encoding
    | cons b' t =>
      rw [encoding] at le
      obtain ⟨rfl, le_rest⟩ := List.cons_prefix_cons.mp le
      have starts : Starts (b' :: t) := ⟨c, [], by rw [List.append_nil, encoding]⟩
      exact whole t c (within t le_rest starts) encoding
  start := by
    rcases start with rfl | starts
    · exact .inl rfl
    · exact .inr starts
  longest := by
    -- a longer start stays within the piece, so that nothing is left to add
    intro more le starts
    have inside := within (tail ++ more) ((List.prefix_append_right_inj tail).mpr le) starts
    have length_le := inside.length_le
    rw [List.length_append] at length_le
    exact List.length_eq_zero_iff.mp (by omega)

/-- A first byte that is none is an ill-formed piece. -/
theorem illFormed_of_lead?_eq_none (high : 0x80 ≤ b.toNat) (none : lead? b = none) : IllFormed [b] rest := by
  -- from 80 on both an encoding and a start of one ask for a first byte
  refine illFormed_cons (.inl rfl) ?_ ?_
  · intro t c _ encoding
    rcases utf8EncodeChar_eq_cons encoding with ⟨one, -⟩ | ⟨n, least, greatest, found, -⟩
    · omega
    · rw [none] at found
      cases found
  · intro t _ starts
    rcases starts_cons_iff.mp starts with ⟨one, -⟩ | ⟨n, least, greatest, found, -⟩
    · omega
    · rw [none] at found
      cases found

/-- A continuation that is too short leaves an ill-formed piece. -/
theorem illFormed_of_short {n : Nat} {least greatest : UInt8} (high : 0x80 ≤ b.toNat)
    (found : lead? b = some (n, least, greatest)) {tail : List UInt8} (short : tail.length < n)
    (tail_eq : continuation n least greatest (tail ++ rest) = tail) : IllFormed (b :: tail) rest := by
  refine illFormed_cons ?_ ?_ ?_
  · refine .inr (starts_cons_iff.mpr (.inr ⟨n, least, greatest, found, Nat.le_of_lt short, ?_⟩))
    rw [← tail_eq]
    exact continues_continuation _ _ _ _
  · intro t c le encoding
    -- the encoding has all of its continuation, and the piece has less
    have length_le := le.length_le
    rcases utf8EncodeChar_eq_cons encoding with ⟨one, -⟩ | ⟨n', least', greatest', found', length_eq, -⟩
    · omega
    · rw [found] at found'
      cases found'
      omega
  · intro t le starts
    rcases starts_cons_iff.mp starts with ⟨one, -⟩ | ⟨n', least', greatest', found', length_le, continues⟩
    · omega
    · rw [found] at found'
      cases found'
      -- the continuation that is found is the longest there is
      have longest := prefix_continuation continues length_le le
      rw [tail_eq] at longest
      exact longest

/-- **The table cuts off an encoding**, or an ill-formed piece where there is none. -/
theorem piece_cut (b : UInt8) (rest : List UInt8) :
    Cut (b :: rest) (piece b rest).1 (rest.drop (piece b rest).2) := by
  unfold piece
  split
  · rename_i one
    have small : b.toNat < 0x80 := UInt8.lt_iff_toNat_lt.mp one
    refine .char ?_
    rw [utf8EncodeChar_ofByte small]
    rfl
  rename_i many
  have high : 0x80 ≤ b.toNat := by
    rw [UInt8.lt_iff_toNat_lt] at many
    exact Nat.le_of_not_lt many
  split
  · rename_i none
    have cut : Cut ([b] ++ rest) .malformed rest := .malformed rfl (illFormed_of_lead?_eq_none high none)
    exact cut
  rename_i n least greatest found
  have length_le := length_continuation_le n least greatest rest
  have continues := continues_continuation n least greatest rest
  obtain ⟨after, split_eq⟩ := continuation_prefix n least greatest rest
  generalize tail_eq : continuation n least greatest rest = tail at *
  subst split_eq
  simp only [List.drop_left]
  -- all of the continuation, or not all of it
  by_cases length_eq : tail.length = n
  · rw [if_pos length_eq]
    refine .char ?_
    rw [utf8EncodeChar_join found length_eq continues, List.cons_append]
  · rw [if_neg length_eq]
    have cut : Cut ((b :: tail) ++ after) .malformed after :=
      .malformed rfl (illFormed_of_short high found (by omega) tail_eq)
    exact cut

/-- **Bytes, piece by piece.** -/
theorem pieces_induction {motive : List UInt8 → List Piece → Prop} (nil : motive [] [])
    (char : ∀ c rest, motive rest (pieces rest) →
      motive (String.utf8EncodeChar c ++ rest) (.char c :: pieces rest))
    (malformed : ∀ bad rest, IllFormed bad rest → motive rest (pieces rest) →
      motive (bad ++ rest) (.malformed :: pieces rest))
    (bytes : List UInt8) : motive bytes (pieces bytes) := by
  -- the recursion of `pieces`, each step of it read as a cut
  induction bytes using pieces.induct with
  | case1 =>
    unfold pieces
    exact nil
  | case2 b rest ih =>
    unfold pieces
    have cut := piece_cut b rest
    generalize rest.drop (piece b rest).2 = after at cut ih ⊢
    generalize (piece b rest).1 = first at cut ⊢
    cases cut with
    | char eq =>
      rw [eq]
      exact char _ _ ih
    | malformed eq illFormed =>
      rw [eq]
      exact malformed _ _ illFormed ih

/-! ### Chunks -/

/-- A run of characters, and the ill-formed piece after it, if there is one. -/
structure Chunk where
  valid : List Char
  malformed : List UInt8
  deriving DecidableEq

/-- Bytes as runs of characters with ill-formed pieces between them.  A run may be empty, but not where nothing
    comes after it. -/
inductive Chunks : List UInt8 → List Chunk → Prop where
  | nil : Chunks [] []
  | last {cs : List Char} (nonempty : cs ≠ []) : Chunks (encode cs) [⟨cs, []⟩]
  | cons {cs : List Char} {bad rest : List UInt8} {chunks : List Chunk} (illFormed : IllFormed bad rest)
      (tail : Chunks rest chunks) : Chunks (encode cs ++ (bad ++ rest)) (⟨cs, bad⟩ :: chunks)

/-- The characters of all runs. -/
def Chunk.chars (chunks : List Chunk) : List Char := chunks.flatMap Chunk.valid

/-- A character more at the front makes the first run longer. -/
theorem Chunks.prepend {chunks : List Chunk} (h : Chunks rest chunks) (c : Char) :
    ∃ longer, Chunks (String.utf8EncodeChar c ++ rest) longer ∧ Chunk.chars longer = c :: Chunk.chars chunks := by
  cases h with
  | nil =>
    -- behind the last chunk the character is a run of its own
    refine ⟨[⟨[c], []⟩], ?_, rfl⟩
    have one : Chunks (encode [c]) _ := .last (List.cons_ne_nil c [])
    exact one
  | @last cs nonempty => exact ⟨[⟨c :: cs, []⟩], .last (List.cons_ne_nil c cs), rfl⟩
  | @cons cs bad rest chunks illFormed tail =>
    have longer : Chunks (encode (c :: cs) ++ (bad ++ rest)) (⟨c :: cs, bad⟩ :: chunks) :=
      .cons illFormed tail
    refine ⟨⟨c :: cs, bad⟩ :: chunks, ?_, rfl⟩
    rw [← List.append_assoc]
    exact longer

/-- Where there are no bytes there is no encoding. -/
theorem noChar_nil : NoChar [] :=
  fun _ le => String.utf8EncodeChar_ne_nil (List.prefix_nil.mp le)

/-- A run of characters that no further one follows is determined. -/
theorem encode_append_inj {cs ds : List Char} {x y : List UInt8} (hx : NoChar x) (hy : NoChar y)
    (h : encode cs ++ x = encode ds ++ y) : cs = ds ∧ x = y := by
  induction cs generalizing ds with
  | nil =>
    cases ds with
    | nil => exact ⟨rfl, h⟩
    | cons d ds =>
      have first : String.utf8EncodeChar d ++ (encode ds ++ y) = x := by
        rw [← List.append_assoc]
        exact h.symm
      exact absurd (List.prefix_append _ _) (first ▸ hx d)
  | cons c cs ih =>
    have cons_eq : ∀ (c : Char) (cs : List Char) (x : List UInt8),
        encode (c :: cs) ++ x = String.utf8EncodeChar c ++ (encode cs ++ x) :=
      fun _ _ _ => List.append_assoc _ _ _
    rw [cons_eq] at h
    cases ds with
    | nil => exact absurd ⟨_, h⟩ (hy c)
    | cons d ds =>
      rw [cons_eq] at h
      -- no encoding starts another, so that the first characters agree
      obtain ⟨rfl, rest_eq⟩ := utf8EncodeChar_append_inj h
      obtain ⟨rfl, rfl⟩ := ih rest_eq
      exact ⟨rfl, rfl⟩

/-- An ill-formed piece is as long as it can be. -/
theorem IllFormed.eq_nil {more : List UInt8} (h : IllFormed bad (more ++ rest))
    (h' : IllFormed (bad ++ more) rest) : more = [] := by
  rcases h'.start with single | starts
  · have some := List.length_pos_iff.mpr h.nonempty
    rw [List.length_append] at single
    exact List.length_eq_zero_iff.mp (by omega)
  · exact h.longest more (List.prefix_append _ _) starts

/-- Hence it is determined. -/
theorem IllFormed.unique {bad' rest' : List UInt8} (h : IllFormed bad rest) (h' : IllFormed bad' rest')
    (eq : bad ++ rest = bad' ++ rest') : bad = bad' ∧ rest = rest' := by
  -- one of the two is the start of the other, which goes on for nothing
  rcases List.append_eq_append_iff.mp eq with ⟨more, rfl, rfl⟩ | ⟨more, rfl, rfl⟩
  · rw [h.eq_nil h', List.append_nil, List.nil_append]
    exact ⟨rfl, rfl⟩
  · rw [h'.eq_nil h, List.append_nil, List.nil_append]
    exact ⟨rfl, rfl⟩

/-- What is cut off the front of bytes is determined. -/
theorem Cut.unique {p q : Piece} {rest' : List UInt8} (h : Cut bytes p rest) (h' : Cut bytes q rest') :
    p = q ∧ rest = rest' := by
  -- where an encoding stands there is no ill-formed piece
  have apart : ∀ {c : Char} {x bad y : List UInt8}, IllFormed bad y → bad ++ y ≠ String.utf8EncodeChar c ++ x := by
    intro c x bad y illFormed eq
    have front := illFormed.noChar c
    rw [eq] at front
    exact front (List.prefix_append _ _)
  cases h with
  | char eq =>
    cases h' with
    | char eq' =>
      obtain ⟨rfl, rfl⟩ := utf8EncodeChar_append_inj (eq.symm.trans eq')
      exact ⟨rfl, rfl⟩
    | malformed eq' illFormed => exact absurd (eq'.symm.trans eq) (apart illFormed)
  | malformed eq illFormed =>
    cases h' with
    | char eq' => exact absurd (eq.symm.trans eq') (apart illFormed)
    | malformed eq' illFormed' => exact ⟨rfl, (illFormed.unique illFormed' (eq.symm.trans eq')).2⟩

/-- **What is cut off is the first piece**, whatever follows it. -/
theorem pieces_of_cut {p : Piece} (h : Cut bytes p rest) : pieces bytes = p :: pieces rest := by
  have nonempty : bytes ≠ [] := by
    cases h with
    | char eq =>
      rw [eq]
      exact List.append_ne_nil_of_left_ne_nil String.utf8EncodeChar_ne_nil _
    | malformed eq illFormed =>
      rw [eq]
      exact List.append_ne_nil_of_left_ne_nil illFormed.nonempty _
  obtain ⟨b, tail, rfl⟩ := List.exists_cons_of_ne_nil nonempty
  obtain ⟨first, after⟩ := (piece_cut b tail).unique h
  rw [pieces, first, after]

/-- The first run, what follows it, and the chunks after it. -/
theorem Chunks.first {chunks : List Chunk} (h : Chunks bytes chunks) :
    ∃ cs after, bytes = encode cs ++ after ∧ NoChar after ∧
      (after = [] ∧ chunks = (if cs = [] then [] else [⟨cs, []⟩]) ∨
        ∃ bad rest tail, after = bad ++ rest ∧ IllFormed bad rest ∧ Chunks rest tail ∧
          chunks = ⟨cs, bad⟩ :: tail) := by
  cases h with
  | nil => exact ⟨[], [], rfl, noChar_nil, .inl ⟨rfl, rfl⟩⟩
  | @last cs nonempty =>
    refine ⟨cs, [], (List.append_nil _).symm, noChar_nil, .inl ⟨rfl, ?_⟩⟩
    rw [if_neg nonempty]
  | @cons cs bad rest tail illFormed h =>
    exact ⟨cs, bad ++ rest, rfl, illFormed.noChar, .inr ⟨bad, rest, tail, rfl, illFormed, h, rfl⟩⟩

/-- **Bytes have chunks in one way only.** -/
theorem Chunks.unique {x y : List Chunk} (h : Chunks bytes x) (h' : Chunks bytes y) : x = y := by
  -- chunk by chunk: the first runs agree, then the ill-formed pieces, then what is left
  induction h generalizing y with
  | nil =>
    obtain ⟨ds, after, eq, noChar, form⟩ := h'.first
    have eq_nil : encode [] ++ [] = encode ds ++ after := eq
    obtain ⟨rfl, rfl⟩ := encode_append_inj noChar_nil noChar eq_nil
    rcases form with ⟨-, rfl⟩ | ⟨bad, rest, tail, after_eq, illFormed, -⟩
    · rfl
    · exact absurd (List.append_eq_nil_iff.mp after_eq.symm).1 illFormed.nonempty
  | @last cs nonempty =>
    obtain ⟨ds, after, eq, noChar, form⟩ := h'.first
    obtain ⟨rfl, rfl⟩ := encode_append_inj noChar_nil noChar ((List.append_nil _).trans eq)
    rcases form with ⟨-, rfl⟩ | ⟨bad, rest, tail, after_eq, illFormed, -⟩
    · rw [if_neg nonempty]
    · exact absurd (List.append_eq_nil_iff.mp after_eq.symm).1 illFormed.nonempty
  | @cons cs bad rest chunks illFormed _ ih =>
    obtain ⟨ds, after, eq, noChar, form⟩ := h'.first
    obtain ⟨rfl, rfl⟩ := encode_append_inj illFormed.noChar noChar eq
    rcases form with ⟨after_eq, -⟩ | ⟨bad', rest', tail, after_eq, illFormed', h_tail, rfl⟩
    · exact absurd (List.append_eq_nil_iff.mp after_eq).1 illFormed.nonempty
    · obtain ⟨rfl, rfl⟩ := illFormed.unique illFormed' after_eq
      rw [ih h_tail]

/-- **All bytes have chunks**, and decode to the characters in them. -/
theorem exists_chunks (bytes : List UInt8) :
    ∃ chunks, Chunks bytes chunks ∧ decode bytes = Chunk.chars chunks := by
  unfold decode
  refine pieces_induction (motive := fun bytes pieces => ∃ chunks, Chunks bytes chunks ∧
    pieces.filterMap Piece.char? = Chunk.chars chunks) ⟨[], .nil, rfl⟩ ?_ ?_ bytes
  · rintro c rest ⟨chunks, h, decoded⟩
    -- a character goes to the run behind it
    obtain ⟨longer, h', chars_eq⟩ := h.prepend c
    refine ⟨longer, h', ?_⟩
    rw [chars_eq, ← decoded]
    rfl
  · rintro bad rest illFormed ⟨chunks, h, decoded⟩
    -- an ill-formed piece comes after an empty run
    have empty_run : Chunks (encode [] ++ (bad ++ rest)) (⟨[], bad⟩ :: chunks) := .cons illFormed h
    exact ⟨⟨[], bad⟩ :: chunks, empty_run, decoded⟩

/-- Chunks tell what bytes decode to, as there are no others. -/
theorem Chunks.decode_eq {chunks : List Chunk} (h : Chunks bytes chunks) : decode bytes = Chunk.chars chunks := by
  obtain ⟨found, h', decoded⟩ := exists_chunks bytes
  rw [decoded, h'.unique h]

/-! ### Round trips -/

/-- **What was encoded is decoded.** -/
theorem decode_encode (cs : List Char) : decode (encode cs) = cs := by
  by_cases none : cs = []
  · rw [none]
    exact Chunks.nil.decode_eq
  · rw [(Chunks.last none).decode_eq]
    exact List.append_nil cs

/-- Bytes are the encoding of what they decode to exactly if they are the encoding of something. -/
theorem encode_decode_eq_iff : encode (decode bytes) = bytes ↔ ∃ cs, bytes = encode cs := by
  constructor
  · intro h
    exact ⟨decode bytes, h.symm⟩
  · rintro ⟨cs, rfl⟩
    rw [decode_encode]

/-- Bytes are valid if they encode some characters. -/
theorem isValidUTF8_iff : bytes.toByteArray.IsValidUTF8 ↔ ∃ cs, bytes = encode cs := by
  constructor
  · rintro ⟨cs, h⟩
    exact ⟨cs, List.toByteArray_inj.mp h⟩
  · rintro ⟨cs, rfl⟩
    exact ⟨cs, rfl⟩

end Utf8

end SystemUnit
