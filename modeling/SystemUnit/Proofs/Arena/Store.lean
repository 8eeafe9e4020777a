import SystemUnit.Proofs.Arena.Run
import SystemUnit.Bytes

namespace SystemUnit

namespace Arena

/-!
# An arena as a store of blocks

What a program can see of an arena is which blocks there are and which byte stands at which address.  A `Store`
is just that, two partial functions on addresses, and knows nothing of a list of blocks, of a nearest block below
an address, or of the next free address.

* `Store`, `Store.patch`, `Store.add`, `Store.remove` — the store, and the changes that it is made for;
* `Store.Disjoint` — blocks are disjoint, and bytes stand in them and nowhere else;
* `Store.Effect`, `Store.Failure` — what each call does to a store where it succeeds, and what it may do where
  it fails;
* `Store.Run` — what calls with their answers do one after another.
-/

/-- Which blocks there are, by the address where they start, with their sizes; and which bytes stand where. -/
@[ext] structure Store where
  size : Nat → Option Nat
  byte : Nat → Option UInt8

namespace Store

variable {m m' : Store} {p : Pointer}

/-- The store without blocks. -/
def empty : Store := ⟨fun _ => none, fun _ => none⟩

/-- The store with other bytes at the `count` addresses from `start` on: at `start + i` stands `content i`. -/
def patch (m : Store) (start count : Nat) (content : Nat → Option UInt8) : Store :=
  { m with byte := fun q => if start ≤ q ∧ q < start + count then content (q - start) else m.byte q }

/-- The store with one block more. -/
def add (m : Store) (start count : Nat) (content : Nat → Option UInt8) : Store :=
  patch { m with size := fun q => if q = start then some count else m.size q } start count content

/-- The store without the block of `count` bytes at an address. -/
def remove (m : Store) (start count : Nat) : Store :=
  patch { m with size := fun q => if q = start then none else m.size q } start count fun _ => none

/-- The store with bytes written from an address on. -/
def write (m : Store) (start : Nat) (data : List UInt8) : Store :=
  m.patch start data.length (data[·]?)

/-- Whether a range is empty or lies in one block. -/
def Within (m : Store) (start count : Nat) : Prop :=
  count = 0 ∨ ∃ base size, m.size base = some size ∧ base ≤ start ∧ start + count ≤ base + size

/-- Whether a pointer is the start of a range of addresses at which nothing stands. -/
structure Vacant (m : Store) (p : Pointer) (count : Nat) : Prop where
  live : p.isNil = false
  fits : p.address.toNat + count < addressLimit
  vacant : ∀ q, p.address.toNat ≤ q → q < p.address.toNat + count → m.byte q = none

/-- Blocks are disjoint, and bytes stand in them and nowhere else. -/
structure Disjoint (m : Store) : Prop where
  apart : ∀ b c n k, m.size b = some n → m.size c = some k → b ≠ c → b + n ≤ c ∨ c + k ≤ b
  mapped : ∀ q, (∃ v, m.byte q = some v) ↔ ∃ b n, m.size b = some n ∧ b ≤ q ∧ q < b + n

/-- Bytes written from a pointer on into a block that holds their place. -/
def Writes (m : Store) (p : Pointer) (data : List UInt8) (m' : Store) : Prop :=
  m.Within p.address.toNat data.length ∧ m' = m.write p.address.toNat data

/-- **The effect of a call that succeeds**, with the pointer that it gives.  The blocks and bytes that a rule does
    not name are as before. -/
inductive Effect (m : Store) : Call → Option Pointer → Store → Prop where
  | getNone {grants : Nat → Bool} {size : Int} (none : size ≤ 0) :
      Effect m (.getMem grants size) (some .nil) m
  | get {grants : Nat → Bool} {size : Int} {p : Pointer} (pos : 0 < size)
      (vacant : m.Vacant p size.toNat) :
      Effect m (.getMem grants size) (some p) (m.add p.address.toNat size.toNat fun _ => some 0)
  | alloc {grants : Nat → Bool} {size : Int} {p : Option Pointer} {m' : Store}
      (get : Effect m (.getMem grants size) p m') : Effect m (.allocMem grants size) p m'
  | freeNil : Effect m (.freeMem .nil) (some .nil) m
  | free {p : Pointer} {count : Nat} (live : m.size p.address.toNat = some count) :
      Effect m (.freeMem p) (some .nil) (m.remove p.address.toNat count)
  | reallocNil {grants : Nat → Bool} {size : Int} {p : Option Pointer} {m' : Store}
      (get : Effect m (.getMem grants size) p m') : Effect m (.reallocMem grants .nil size) p m'
  | reallocNone {grants : Nat → Bool} {p : Pointer} {size : Int} {q : Option Pointer} {m' : Store}
      (live : p ≠ .nil) (none : size ≤ 0) (free : Effect m (.freeMem p) q m') :
      Effect m (.reallocMem grants p size) q m'
  | realloc {grants : Nat → Bool} {p q : Pointer} {size : Int} {old : Nat} (pos : 0 < size)
      (live : m.size p.address.toNat = some old)
      (vacant : (m.remove p.address.toNat old).Vacant q size.toNat) :
      Effect m (.reallocMem grants p size) (some q)
        ((m.remove p.address.toNat old).add q.address.toNat size.toNat fun i =>
          if i < min old size.toNat then m.byte (p.address.toNat + i) else some 0)
  | store {p : Pointer} {data : List UInt8} {m' : Store} (h : m.Writes p data m') :
      Effect m (.store p data) none m'
  | writeByte {p : Pointer} {value : UInt8} {m' : Store} (h : m.Writes p [value] m') :
      Effect m (.writeByte p value) none m'
  | fillChar {p : Pointer} {count value : Int} {m' : Store}
      (h : m.Writes p (List.replicate count.toNat (UInt8.ofInt value)) m') :
      Effect m (.fillChar p count value) none m'
  | fillZero {p : Pointer} {count : Int} {m' : Store} (h : m.Writes p (List.replicate count.toNat 0) m') :
      Effect m (.fillZero p count) none m'
  | fillByte {p : Pointer} {count : Int} {value : Whole .byte} {m' : Store}
      (h : m.Writes p (List.replicate count.toNat (UInt8.ofNat value.toNat)) m') :
      Effect m (.fillByte p count value) none m'
  -- how many bytes a word or a double word fills is left open
  | fillWord {p : Pointer} {count : Int} {value : Whole .word} {size : Nat} {m' : Store}
      (h : m.Writes p (repeated (Bytes.ofNat 2 value.toNat) size) m') :
      Effect m (.fillWord p count value) none m'
  | fillDWord {p : Pointer} {count : Int} {value : Whole .cardinal} {size : Nat} {m' : Store}
      (h : m.Writes p (repeated (Bytes.ofNat 4 value.toNat) size) m') :
      Effect m (.fillDWord p count value) none m'
  | moveMem {source dest : Pointer} {count : Int} (from_source : m.Within source.address.toNat count.toNat)
      (to_dest : m.Within dest.address.toNat count.toNat) :
      Effect m (.moveMem source dest count) none
        (m.patch dest.address.toNat count.toNat fun i => m.byte (source.address.toNat + i))

/-- What a call that fails may have done: nothing, but for a reallocation, whose block may be lost. -/
inductive Failure (m : Store) : Call → Store → Prop where
  | keep {call : Call} : Failure m call m
  | lose {grants : Nat → Bool} {p : Pointer} {size : Int} {old : Nat} (pos : 0 < size)
      (live : m.size p.address.toNat = some old) :
      Failure m (.reallocMem grants p size) (m.remove p.address.toNat old)

/-- What a call with its answer does. -/
inductive Step (m : Store) (call : Call) : Answer → Store → Prop where
  | ok {p : Option Pointer} {m' : Store} (effect : m.Effect call p m') : Step m call (.ok p) m'
  | error {fault : Fault} {m' : Store} (failure : m.Failure call m') : Step m call (.error fault) m'

/-- What calls with their answers do one after another. -/
inductive Run : Store → List (Call × Answer) → Store → Prop where
  | nil {m : Store} : Run m [] m
  | cons {m m₁ m₂ : Store} {call : Call} {answer : Answer} {rest : List (Call × Answer)}
      (step : m.Step call answer m₁) (run : Run m₁ rest m₂) : Run m ((call, answer) :: rest) m₂

/-! ### Equal patches -/

/-- A patch depends on its content at its own places only. -/
theorem patch_congr {start count : Nat} {f g : Nat → Option UInt8} (h : ∀ i < count, f i = g i) :
    m.patch start count f = m.patch start count g := by
  ext1
  · rfl
  · funext q
    simp only [patch]
    split
    · exact h _ (by omega)
    · rfl

/-- So does a block that is added. -/
theorem add_congr {start count : Nat} {f g : Nat → Option UInt8} (h : ∀ i < count, f i = g i) :
    m.add start count f = m.add start count g :=
  patch_congr h

/-- A patch of no bytes is none. -/
theorem patch_zero (start : Nat) (content : Nat → Option UInt8) : m.patch start 0 content = m := by
  ext1
  · rfl
  · funext q
    simp only [patch]
    rw [if_neg (by omega)]

/-- To write nothing is always possible, and does nothing. -/
theorem writes_nil (p : Pointer) : m.Writes p [] m :=
  ⟨.inl rfl, (patch_zero _ _).symm⟩

end Store

end Arena

end SystemUnit
