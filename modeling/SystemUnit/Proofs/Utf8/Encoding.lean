import SystemUnit.Utf8
import Mathlib.Data.List.Basic

namespace SystemUnit

namespace Utf8

/-!
# Encodings of characters

Bytes are read by a table, which says for the first byte of a character how many bytes follow and in which
ranges; characters are written by dividing their numbers.  Both are about the same encodings.

* `utf8EncodeChar_one` to `utf8EncodeChar_four` — the bytes of a character, by the size of its number;
* `lead?_eq_some`, `lead?_isSome` — what the table says of a first byte, and for which bytes;
* `Continues` — bytes in the ranges that the table gives;
* `utf8EncodeChar_join` — what the table allows is the encoding of the character that is read;
* `Allowed`, `utf8EncodeChar_eq_cons` — and every encoding is allowed;
* `starts_cons_iff` — the starts of encodings.
-/

variable {b : UInt8} {n : Nat} {least greatest : UInt8} {tail : List UInt8} {c d : Char}

/-! ### The number of a character -/

/-- The number of a character is that of no surrogate, and below the last plane's end. -/
theorem char_range (c : Char) : c.toNat < 0xD800 ∨ 0xDFFF < c.toNat ∧ c.toNat < 0x110000 := c.valid

/-- A number that is no surrogate and not too great is that of its character. -/
theorem toNat_charOfNat (h : n < 0xD800 ∨ 0xDFFF < n ∧ n < 0x110000) : (Char.ofNat n).toNat = n := by
  unfold Char.ofNat
  rw [dif_pos h]
  rfl

/-! ### The bytes of a character -/

/-- A number of seven bits is its own byte. -/
theorem utf8EncodeChar_one (h : c.toNat < 0x80) :
    String.utf8EncodeChar c = [UInt8.ofNat c.toNat] := by
  have small : c.val.toNat < 0x80 := h
  unfold String.utf8EncodeChar
  simp only
  rw [if_pos (by omega)]
  rfl

/-- A byte that is a character by itself. -/
theorem utf8EncodeChar_ofByte (one : b.toNat < 0x80) : String.utf8EncodeChar (Char.ofNat b.toNat) = [b] := by
  have number : (Char.ofNat b.toNat).toNat = b.toNat := toNat_charOfNat (by omega)
  rw [utf8EncodeChar_one (by rw [number]; exact one), number, UInt8.ofNat_toNat]

/-- A number of up to eleven bits is written in two bytes. -/
theorem utf8EncodeChar_two (h : 0x80 ≤ c.toNat) (h' : c.toNat < 0x800) :
    String.utf8EncodeChar c =
      [UInt8.ofNat (c.toNat / 64 + 0xC0), UInt8.ofNat (c.toNat % 64 + 0x80)] := by
  have low : 0x80 ≤ c.val.toNat := h
  have high : c.val.toNat < 0x800 := h'
  unfold String.utf8EncodeChar
  simp only
  rw [if_neg (by omega), if_pos (by omega), Nat.mod_eq_of_lt (a := c.val.toNat / 64) (by omega)]
  rfl

/-- A number of up to sixteen bits is written in three bytes. -/
theorem utf8EncodeChar_three (h : 0x800 ≤ c.toNat) (h' : c.toNat < 0x10000) :
    String.utf8EncodeChar c =
      [UInt8.ofNat (c.toNat / 4096 + 0xE0), UInt8.ofNat (c.toNat / 64 % 64 + 0x80),
        UInt8.ofNat (c.toNat % 64 + 0x80)] := by
  have low : 0x800 ≤ c.val.toNat := h
  have high : c.val.toNat < 0x10000 := h'
  unfold String.utf8EncodeChar
  simp only
  rw [if_neg (by omega), if_neg (by omega), if_pos (by omega),
    Nat.mod_eq_of_lt (a := c.val.toNat / 4096) (by omega)]
  rfl

/-- A number of more bits is written in four bytes. -/
theorem utf8EncodeChar_four (h : 0x10000 ≤ c.toNat) :
    String.utf8EncodeChar c =
      [UInt8.ofNat (c.toNat / 262144 + 0xF0), UInt8.ofNat (c.toNat / 4096 % 64 + 0x80),
        UInt8.ofNat (c.toNat / 64 % 64 + 0x80), UInt8.ofNat (c.toNat % 64 + 0x80)] := by
  have low : 0x10000 ≤ c.val.toNat := h
  have range : c.val.toNat < 0xD800 ∨ 0xDFFF < c.val.toNat ∧ c.val.toNat < 0x110000 := char_range c
  unfold String.utf8EncodeChar
  simp only
  rw [if_neg (by omega), if_neg (by omega), if_neg (by omega),
    Nat.mod_eq_of_lt (a := c.val.toNat / 262144) (by omega)]
  rfl

/-! ### The table of first bytes -/

/-- The first bytes of two, three and four, and the ranges of the byte after each: those that leave out what
    fewer bytes encode, the surrogates, and what lies past the last character. -/
structure IsLead (first n least greatest : Nat) : Prop where
  size : n = 1 ∧ 0xC2 ≤ first ∧ first ≤ 0xDF ∨ n = 2 ∧ 0xE0 ≤ first ∧ first ≤ 0xEF ∨
    n = 3 ∧ 0xF0 ≤ first ∧ first ≤ 0xF4
  least : first = 0xE0 ∧ least = 0xA0 ∨ first = 0xF0 ∧ least = 0x90 ∨
    first ≠ 0xE0 ∧ first ≠ 0xF0 ∧ least = 0x80
  greatest : first = 0xED ∧ greatest = 0x9F ∨ first = 0xF4 ∧ greatest = 0x8F ∨
    first ≠ 0xED ∧ first ≠ 0xF4 ∧ greatest = 0xBF

instance (first n least greatest : Nat) : Decidable (IsLead first n least greatest) :=
  decidable_of_iff (_ ∧ _ ∧ _) ⟨fun h => ⟨h.1, h.2.1, h.2.2⟩, fun h => ⟨h.size, h.least, h.greatest⟩⟩

/-- The table, entry by entry. -/
theorem lead?_ofNat : ∀ k < 256,
    ((lead? (UInt8.ofNat k)).all fun r => decide (IsLead k r.1 r.2.1.toNat r.2.2.toNat)) ∧
      (0xC2 ≤ k ∧ k ≤ 0xF4 → (lead? (UInt8.ofNat k)).isSome) := by
  decide +kernel

/-- What the table says of a first byte: how many bytes follow it, and the range of the next one. -/
theorem lead?_eq_some (h : lead? b = some (n, least, greatest)) :
    IsLead b.toNat n least.toNat greatest.toNat := by
  have entry := (lead?_ofNat b.toNat b.toNat_lt).1
  rw [UInt8.ofNat_toNat, h, Option.all_some, decide_eq_true_eq] at entry
  exact entry

/-- The table knows the first bytes of all encodings of more than one byte. -/
theorem lead?_isSome (h : 0xC2 ≤ b.toNat) (h' : b.toNat ≤ 0xF4) :
    ∃ n least greatest, lead? b = some (n, least, greatest) := by
  have entry := (lead?_ofNat b.toNat b.toNat_lt).2 ⟨h, h'⟩
  rw [UInt8.ofNat_toNat] at entry
  obtain ⟨⟨n, least, greatest⟩, found⟩ := Option.isSome_iff_exists.mp entry
  exact ⟨n, least, greatest, found⟩

/-! ### Continuations -/

/-- Bytes of which the first is in a range, and the others are any continuation bytes. -/
def Continues (least greatest : Nat) : List UInt8 → Prop
  | [] => True
  | b :: rest => least ≤ b.toNat ∧ b.toNat ≤ greatest ∧ Continues 0x80 0xBF rest

/-- Bytes in their ranges are so from the first one on, however many are looked at. -/
theorem Continues.of_prefix {low high : Nat} {part : List UInt8} (h : Continues low high tail)
    (le : part <+: tail) : Continues low high part := by
  induction tail generalizing low high part with
  | nil =>
    rw [List.prefix_nil.mp le]
    trivial
  | cons b tail ih =>
    cases part with
    | nil => trivial
    | cons b' part =>
      obtain ⟨rfl, le_tail⟩ := List.cons_prefix_cons.mp le
      exact ⟨h.1, h.2.1, ih h.2.2 le_tail⟩

/-- A continuation goes on for as long as wanted. -/
theorem Continues.extend {low high : Nat} (h : Continues low high tail) (range : low ≤ high) (lt : high < 256)
    (k : Nat) : ∃ more : List UInt8, more.length = k ∧ Continues low high (tail ++ more) := by
  induction tail generalizing low high with
  | nil =>
    -- only the first byte has a range of its own, and the others may all be the least one
    have rest : ∀ k, Continues 0x80 0xBF (List.replicate k 0x80) := by
      intro k
      induction k with
      | zero => trivial
      | succ k ih => exact ⟨by decide, by decide, ih⟩
    have at_low : (UInt8.ofNat low).toNat = low := UInt8.toNat_ofNat_of_lt' (Nat.lt_of_le_of_lt range lt)
    cases k with
    | zero => exact ⟨[], rfl, trivial⟩
    | succ k =>
      refine ⟨UInt8.ofNat low :: List.replicate k 0x80, by simp, ?_⟩
      exact ⟨Nat.le_of_eq at_low.symm, by rw [at_low]; exact range, rest k⟩
  | cons b tail ih =>
    obtain ⟨more, length_eq, continues⟩ := ih h.2.2 (by decide) (by decide)
    exact ⟨more, length_eq, h.1, h.2.1, continues⟩

/-- The continuation is taken from the start of what follows. -/
theorem continuation_prefix (n : Nat) (least greatest : UInt8) (rest : List UInt8) :
    continuation n least greatest rest <+: rest := by
  induction rest generalizing n least greatest with
  | nil => exact List.prefix_rfl
  | cons b rest ih =>
    unfold continuation
    split
    · exact List.cons_prefix_cons.mpr ⟨rfl, ih _ _ _⟩
    · exact List.nil_prefix

/-- It is no longer than the first byte says. -/
theorem length_continuation_le (n : Nat) (least greatest : UInt8) (rest : List UInt8) :
    (continuation n least greatest rest).length ≤ n := by
  induction rest generalizing n least greatest with
  | nil => exact Nat.zero_le _
  | cons b rest ih =>
    unfold continuation
    split
    · rename_i taken
      simp only [Bool.and_eq_true, decide_eq_true_eq] at taken
      have := ih (n - 1) 0x80 0xBF
      rw [List.length_cons]
      omega
    · exact Nat.zero_le _

/-- Its bytes are in their ranges. -/
theorem continues_continuation (n : Nat) (least greatest : UInt8) (rest : List UInt8) :
    Continues least.toNat greatest.toNat (continuation n least greatest rest) := by
  induction rest generalizing n least greatest with
  | nil => trivial
  | cons b rest ih =>
    unfold continuation
    split
    · rename_i taken
      simp only [Bool.and_eq_true, decide_eq_true_eq] at taken
      exact ⟨UInt8.le_iff_toNat_le.mp taken.1.2, UInt8.le_iff_toNat_le.mp taken.2, ih _ 0x80 0xBF⟩
    · trivial

/-- No longer continuation is to be had. -/
theorem prefix_continuation {rest : List UInt8} (h : Continues least.toNat greatest.toNat tail)
    (length_le : tail.length ≤ n) (le : tail <+: rest) : tail <+: continuation n least greatest rest := by
  induction rest generalizing n least greatest tail with
  | nil => exact le
  | cons b rest ih =>
    cases tail with
    | nil => exact List.nil_prefix
    | cons b' tail =>
      obtain ⟨rfl, le_rest⟩ := List.cons_prefix_cons.mp le
      rw [List.length_cons] at length_le
      -- the next byte is wanted, and in its range
      have taken : (decide (0 < n) && decide (least ≤ b') && decide (b' ≤ greatest)) = true := by
        simp only [Bool.and_eq_true, decide_eq_true_eq]
        exact ⟨⟨by omega, UInt8.le_iff_toNat_le.mpr h.1⟩, UInt8.le_iff_toNat_le.mpr h.2.1⟩
      unfold continuation
      rw [if_pos taken]
      exact List.cons_prefix_cons.mpr ⟨rfl, ih h.2.2 (by omega) le_rest⟩

/-! ### Encodings are what the table allows -/

/-- **What the table allows is an encoding**, that of the character that is read. -/
theorem utf8EncodeChar_join (h : lead? b = some (n, least, greatest)) (length_eq : tail.length = n)
    (continues : Continues least.toNat greatest.toNat tail) :
    String.utf8EncodeChar (join b tail) = b :: tail := by
  obtain ⟨size, least_eq, greatest_eq⟩ := lead?_eq_some h
  have byte : ∀ (x : UInt8) {k : Nat}, k = x.toNat → UInt8.ofNat k = x := by
    rintro x k rfl
    exact UInt8.ofNat_toNat
  -- in each case the number is of the size that takes as many bytes, and gives each of them back
  rcases size with ⟨rfl, low, high⟩ | ⟨rfl, low, high⟩ | ⟨rfl, low, high⟩
  · obtain ⟨x, rfl⟩ := List.length_eq_one_iff.mp length_eq
    obtain ⟨x_ge, x_le, -⟩ := continues
    have number : (join b [x]).toNat = b.toNat % 32 * 64 + x.toNat % 64 := by
      apply toNat_charOfNat
      show b.toNat % 32 * 64 + x.toNat % 64 < 0xD800 ∨ _
      omega
    rw [utf8EncodeChar_two (by omega) (by omega), byte b (by omega), byte x (by omega)]
  · obtain ⟨x, y, rfl⟩ := List.length_eq_two.mp length_eq
    obtain ⟨x_ge, x_le, y_ge, y_le, -⟩ := continues
    -- the range of `x` after 0xED leaves out the surrogates
    have number : (join b [x, y]).toNat = (b.toNat % 16 * 64 + x.toNat % 64) * 64 + y.toNat % 64 := by
      apply toNat_charOfNat
      show (b.toNat % 16 * 64 + x.toNat % 64) * 64 + y.toNat % 64 < 0xD800 ∨
        0xDFFF < (b.toNat % 16 * 64 + x.toNat % 64) * 64 + y.toNat % 64 ∧
          (b.toNat % 16 * 64 + x.toNat % 64) * 64 + y.toNat % 64 < 0x110000
      omega
    rw [utf8EncodeChar_three (by omega) (by omega), byte b (by omega), byte x (by omega), byte y (by omega)]
  · obtain ⟨x, y, z, rfl⟩ := List.length_eq_three.mp length_eq
    obtain ⟨x_ge, x_le, y_ge, y_le, z_ge, z_le, -⟩ := continues
    have number : (join b [x, y, z]).toNat =
        ((b.toNat % 8 * 64 + x.toNat % 64) * 64 + y.toNat % 64) * 64 + z.toNat % 64 := by
      apply toNat_charOfNat
      show _ ∨ 0xDFFF < ((b.toNat % 8 * 64 + x.toNat % 64) * 64 + y.toNat % 64) * 64 + z.toNat % 64 ∧
        ((b.toNat % 8 * 64 + x.toNat % 64) * 64 + y.toNat % 64) * 64 + z.toNat % 64 < 0x110000
      omega
    rw [utf8EncodeChar_four (by omega), byte b (by omega), byte x (by omega), byte y (by omega),
      byte z (by omega)]

/-- Whether the table allows bytes to follow a first byte, as many as it says. -/
def Allowed (b : UInt8) (tail : List UInt8) : Prop :=
  ∃ n least greatest, lead? b = some (n, least, greatest) ∧ tail.length = n ∧
    Continues least.toNat greatest.toNat tail

/-- A number below 256 is that of its byte. -/
theorem toNat_ofNat_byte {k : Nat} (h : k < 256) : (UInt8.ofNat k).toNat = k :=
  UInt8.toNat_ofNat_of_lt' h

/-- A first byte from its number, with what the table says of it. -/
theorem lead?_ofNat_isSome {k : Nat} (h : 0xC2 ≤ k) (h' : k ≤ 0xF4) :
    ∃ n least greatest, lead? (UInt8.ofNat k) = some (n, least, greatest) ∧
      IsLead k n least.toNat greatest.toNat := by
  have number : (UInt8.ofNat k).toNat = k := toNat_ofNat_byte (by omega)
  have first_ge : 0xC2 ≤ (UInt8.ofNat k).toNat := by omega
  have first_le : (UInt8.ofNat k).toNat ≤ 0xF4 := by omega
  obtain ⟨n, least, greatest, found⟩ := lead?_isSome first_ge first_le
  have lead := lead?_eq_some found
  rw [number] at lead
  exact ⟨n, least, greatest, found, lead⟩

/-- The table allows encodings of two bytes. -/
theorem allowed_two (low : 0x80 ≤ c.toNat) (high : c.toNat < 0x800)
    (h : String.utf8EncodeChar c = b :: tail) : Allowed b tail := by
  rw [utf8EncodeChar_two low high] at h
  obtain ⟨rfl, rfl⟩ := List.cons.inj h
  obtain ⟨n, least, greatest, found, size, least_eq, greatest_eq⟩ :=
    lead?_ofNat_isSome (k := c.toNat / 64 + 0xC0) (by omega) (by omega)
  -- the first byte settles how many follow, and the last six bits are in their range
  have second : (UInt8.ofNat (c.toNat % 64 + 0x80)).toNat = c.toNat % 64 + 0x80 :=
    toNat_ofNat_byte (by omega)
  refine ⟨n, least, greatest, found, ?_, ?_, ?_, trivial⟩
  · show 1 = n
    omega
  · omega
  · omega

/-- The second byte is in the range of the first, since the number is too great for two bytes and of no
    surrogate. -/
theorem allowed_three (low : 0x800 ≤ c.toNat) (high : c.toNat < 0x10000)
    (h : String.utf8EncodeChar c = b :: tail) : Allowed b tail := by
  have range := char_range c
  rw [utf8EncodeChar_three low high] at h
  obtain ⟨rfl, rfl⟩ := List.cons.inj h
  -- behind some first bytes the range is smaller, which keeps out surrogates and what is too long
  obtain ⟨n, least, greatest, found, size, least_eq, greatest_eq⟩ :=
    lead?_ofNat_isSome (k := c.toNat / 4096 + 0xE0) (by omega) (by omega)
  have second : (UInt8.ofNat (c.toNat / 64 % 64 + 0x80)).toNat = c.toNat / 64 % 64 + 0x80 :=
    toNat_ofNat_byte (by omega)
  have third : (UInt8.ofNat (c.toNat % 64 + 0x80)).toNat = c.toNat % 64 + 0x80 :=
    toNat_ofNat_byte (by omega)
  refine ⟨n, least, greatest, found, ?_, ?_, ?_, ?_, ?_, trivial⟩
  · show 2 = n
    omega
  · omega
  · omega
  · omega
  · omega

/-- The table allows encodings of four bytes. -/
theorem allowed_four (low : 0x10000 ≤ c.toNat) (h : String.utf8EncodeChar c = b :: tail) :
    Allowed b tail := by
  have range := char_range c
  rw [utf8EncodeChar_four low] at h
  obtain ⟨rfl, rfl⟩ := List.cons.inj h
  -- behind some first bytes the range is smaller, which keeps out numbers that are too great
  obtain ⟨n, least, greatest, found, size, least_eq, greatest_eq⟩ :=
    lead?_ofNat_isSome (k := c.toNat / 262144 + 0xF0) (by omega) (by omega)
  have second : (UInt8.ofNat (c.toNat / 4096 % 64 + 0x80)).toNat = c.toNat / 4096 % 64 + 0x80 :=
    toNat_ofNat_byte (by omega)
  have third : (UInt8.ofNat (c.toNat / 64 % 64 + 0x80)).toNat = c.toNat / 64 % 64 + 0x80 :=
    toNat_ofNat_byte (by omega)
  have fourth : (UInt8.ofNat (c.toNat % 64 + 0x80)).toNat = c.toNat % 64 + 0x80 :=
    toNat_ofNat_byte (by omega)
  refine ⟨n, least, greatest, found, ?_, ?_, ?_, ?_, ?_, ?_, ?_, trivial⟩
  · show 3 = n
    omega
  · omega
  · omega
  · omega
  · omega
  · omega
  · omega

/-- **Every encoding is allowed** by the table: it is a single byte, or a first byte of the table and a
    continuation as long as the table says. -/
theorem utf8EncodeChar_eq_cons (h : String.utf8EncodeChar c = b :: tail) :
    b.toNat < 0x80 ∧ tail = [] ∨ Allowed b tail := by
  by_cases one : c.toNat < 0x80
  · rw [utf8EncodeChar_one one] at h
    obtain ⟨rfl, rfl⟩ := List.cons.inj h
    exact .inl ⟨by rw [toNat_ofNat_byte (by omega)]; exact one, rfl⟩
  by_cases two : c.toNat < 0x800
  · exact .inr (allowed_two (by omega) two h)
  by_cases three : c.toNat < 0x10000
  · exact .inr (allowed_three (by omega) three h)
  · exact .inr (allowed_four (by omega) h)

/-! ### Starts of encodings -/

/-- Bytes with which the encoding of some character starts. -/
def Starts (bytes : List UInt8) : Prop := ∃ c, bytes <+: String.utf8EncodeChar c

/-- Bytes start an encoding exactly if they are a single byte that is one, or a first byte of the table and a
    continuation not longer than the table says. -/
theorem starts_cons_iff :
    Starts (b :: tail) ↔
      b.toNat < 0x80 ∧ tail = [] ∨
        ∃ n least greatest, lead? b = some (n, least, greatest) ∧ tail.length ≤ n ∧
          Continues least.toNat greatest.toNat tail := by
  constructor
  · rintro ⟨c, le⟩
    cases encoding : String.utf8EncodeChar c with
    | nil => exact absurd encoding String.utf8EncodeChar_ne_nil
    | cons b' tail' =>
      rw [encoding] at le
      obtain ⟨rfl, le_tail⟩ := List.cons_prefix_cons.mp le
      rcases utf8EncodeChar_eq_cons encoding with ⟨one, rfl⟩ | ⟨n, least, greatest, found, length_eq, continues⟩
      · exact .inl ⟨one, List.prefix_nil.mp le_tail⟩
      · exact .inr ⟨n, least, greatest, found, by rw [← length_eq]; exact le_tail.length_le,
          continues.of_prefix le_tail⟩
  · rintro (⟨one, rfl⟩ | ⟨n, least, greatest, found, length_le, continues⟩)
    · exact ⟨Char.ofNat b.toNat, [], (utf8EncodeChar_ofByte one).symm⟩
    · obtain ⟨-, least_eq, greatest_eq⟩ := lead?_eq_some found
      -- filled up to the length of the table, the bytes are an encoding
      obtain ⟨more, more_length, whole⟩ :=
        continues.extend (by omega) greatest.toNat_lt (n - tail.length)
      refine ⟨join b (tail ++ more), ?_⟩
      rw [utf8EncodeChar_join found (by rw [List.length_append]; omega) whole]
      exact List.prefix_append (b :: tail) more

/-! ### Encodings one after another -/

/-- **No encoding starts another**: what follows a character's encoding is determined, and so is the
    character. -/
theorem utf8EncodeChar_append_inj {x y : List UInt8}
    (h : String.utf8EncodeChar c ++ x = String.utf8EncodeChar d ++ y) : c = d ∧ x = y := by
  -- the library's decoder reads both characters at the front of the same bytes
  have same : c = d := by
    have decoded := ByteArray.utf8DecodeChar?_utf8EncodeChar_append (b := x.toByteArray) (c := c)
    rw [← List.toByteArray_append, h, List.toByteArray_append,
      ByteArray.utf8DecodeChar?_utf8EncodeChar_append] at decoded
    exact (Option.some.inj decoded).symm
  rw [same] at h
  exact ⟨same, List.append_cancel_left h⟩

end Utf8

end SystemUnit
