namespace SystemUnit

/-!
# Streams of bytes

A stream hands out bytes in order.  It fetches them a block at a time, and only when nothing is left of the
block before, so that a byte which has been fetched stays as it was then.  Main definitions:

* `ByteStream` — what has been fetched, and what is still to be fetched;
* `ByteStream.fill` — the stream with a byte at hand, if there is one;
* `ByteStream.drop` — the stream after some bytes have been taken;
* `ByteStream.span`, `ByteStream.line` — the longest run of bytes of a kind, and the bytes of a line.

What the next bytes are does not depend on what has been fetched: `bytes_fill`, `bytes_drop`.
-/

/-- What has been fetched, and what is still to be fetched. -/
structure ByteStream where
  fetched : List UInt8
  pending : List UInt8
  deriving DecidableEq

namespace ByteStream

/-- The number of bytes of a block. -/
def block : Nat := 8192

/-- A stream from which nothing has been fetched. -/
def ofBytes (bytes : List UInt8) : ByteStream := ⟨[], bytes⟩

/-- The bytes that the stream will hand out. -/
def bytes (s : ByteStream) : List UInt8 := s.fetched ++ s.pending

/-- Fetches a block unless something is left of the one before. -/
def fill (s : ByteStream) : ByteStream :=
  if s.fetched.isEmpty then ⟨s.pending.take block, s.pending.drop block⟩ else s

/-- Takes bytes; a block is fetched only for a byte of it that is taken. -/
def drop (s : ByteStream) (count : Nat) : ByteStream :=
  if count ≤ s.fetched.length then ⟨s.fetched.drop count, s.pending⟩
  else
    let beyond := count - s.fetched.length
    let stop := (beyond + block - 1) / block * block
    ⟨(s.pending.take stop).drop beyond, s.pending.drop stop⟩

@[simp] theorem bytes_ofBytes (l : List UInt8) : (ofBytes l).bytes = l := by
  simp [ofBytes, bytes]

@[simp] theorem bytes_fill (s : ByteStream) : s.fill.bytes = s.bytes := by
  unfold fill
  split <;> simp_all [bytes]

/-- What is taken from the part up to `stop`, and what lies behind `stop`, together. -/
theorem drop_take_append_drop (l : List UInt8) {n stop : Nat} (h : n ≤ stop) :
    (l.take stop).drop n ++ l.drop stop = l.drop n := by
  conv => rhs; rw [← List.take_append_drop stop l, List.drop_append]
  by_cases long : stop ≤ l.length
  · simp [Nat.min_eq_left long, Nat.sub_eq_zero_of_le h]
  · simp [List.drop_eq_nil_of_le (show l.length ≤ stop by omega)]

@[simp] theorem bytes_drop (s : ByteStream) (count : Nat) : (s.drop count).bytes = s.bytes.drop count := by
  unfold drop
  split
  · rename_i h
    simp [bytes, List.drop_append, Nat.sub_eq_zero_of_le h]
  · rename_i h
    have le : count - s.fetched.length ≤ (count - s.fetched.length + block - 1) / block * block := by
      unfold block
      omega
    simp only [bytes]
    rw [drop_take_append_drop _ le, List.drop_append,
      List.drop_eq_nil_of_le (show s.fetched.length ≤ count by omega), List.nil_append]

/-- The next byte, and the stream in which it has been fetched. -/
def peek (s : ByteStream) : Option UInt8 × ByteStream := (s.fill.fetched.head?, s.fill)

/-- The longest run of bytes of a kind; the byte after it has been fetched. -/
def span (s : ByteStream) (kind : UInt8 → Bool) : List UInt8 × ByteStream :=
  let run := s.bytes.takeWhile kind
  (run, (s.drop run.length).fill)

/-- The bytes through the next line feed, or all if there is none. -/
def line (s : ByteStream) : List UInt8 × ByteStream :=
  let count := (s.bytes.takeWhile (· ≠ 0x0A)).length + 1
  (s.bytes.take count, s.drop count)

end ByteStream

/-- A line without the line feed at its end and a carriage return before that. -/
def stripLineEnd (line : List UInt8) : List UInt8 :=
  match line.reverse with
  | 0x0A :: 0x0D :: rest => rest.reverse
  | 0x0A :: rest => rest.reverse
  | _ => line

end SystemUnit
