import SystemUnit.Fault

namespace SystemUnit

/-!
# Memory

An arena hands out addresses of blocks of bytes and checks every access against the blocks that are live.  A
new block lies above every address handed out before, so that a released address is never valid again.  A
count or size that is not positive is an empty range, and always fine.  Main definitions:

* `Arena` — the live blocks, in the order of their addresses, and the next free address;
* `Arena.locate` — the block and the offset of a range of bytes, or why there is none;
* `Arena.getMem`, `Arena.reallocMem`, `Arena.freeMem` — blocks;
* `Arena.bytes`, `Arena.fillBytes`, `Arena.store`, `Arena.moveMem`, `Arena.compareMem` — bytes.
-/

/-- A live block. -/
structure Block where
  base : Nat
  bytes : List UInt8
  deriving DecidableEq

/-- The live blocks and the next free address. -/
structure Arena where
  blocks : List Block
  next : Nat
  deriving DecidableEq

namespace Arena

/-- The first address handed out. -/
def baseAddress : Nat := 0x10000

/-- Addresses are multiples of this, and at least as many bytes lie between two blocks. -/
def alignment : Nat := 16

/-- The first address that is too great. -/
def addressLimit : Nat := 0x10000000000000000

/-- The arena without blocks. -/
def empty : Arena := ⟨[], baseAddress⟩

instance : Inhabited Arena := ⟨empty⟩

/-- Whether the host has room for a block of a size. -/
def hostGrants (size : Nat) : Bool := size < 0x800000000000

/-- The bytes from the start of a block to the next free address. -/
def reach (size : Nat) : Nat :=
  (max size 1 + alignment - 1) / alignment * alignment + alignment

/-- The live block that starts at an address. -/
def block? (a : Arena) (address : Nat) : Option Block :=
  a.blocks.find? (·.base == address)

/-- The last live block that does not start after an address. -/
def blockBelow? (a : Arena) (address : Nat) : Option Block :=
  (a.blocks.filter (·.base ≤ address)).getLast?

/-- The size of the block that starts at an address. -/
def blockSize? (a : Arena) (p : Pointer) : Option Nat :=
  (a.block? p.address.toNat).map (·.bytes.length)

/-- The number of live blocks. -/
def liveBlocks (a : Arena) : Nat := a.blocks.length

/-- The arena without the block that starts at an address. -/
def erase (a : Arena) (address : Nat) : Arena :=
  { a with blocks := a.blocks.filter (·.base != address) }

/-- The arena in which the block that starts at an address has other bytes. -/
def update (a : Arena) (address : Nat) (bytes : List UInt8) : Arena :=
  { a with blocks := a.blocks.map fun b => if b.base == address then { b with bytes } else b }

/-! ### Blocks -/

/-- Places a block at the next free address. -/
def insert (a : Arena) (bytes : List UInt8) : Except Fault (Pointer × Arena) :=
  let next := a.next + reach bytes.length
  if next < addressLimit then
    .ok (⟨UInt64.ofNat a.next⟩, { blocks := a.blocks ++ [⟨a.next, bytes⟩], next })
  else .error .noMemory

/-- A new block of zeros; `grants` says which sizes the host has room for. -/
def getMem (grants : Nat → Bool) (a : Arena) (size : Int) : Except Fault (Pointer × Arena) :=
  if size ≤ 0 then .ok (.nil, a)
  else if grants size.toNat then a.insert (List.replicate size.toNat 0)
  else .error .noMemory

/-- A new block that is promised to be of zeros, which every new block is. -/
def allocMem (grants : Nat → Bool) (a : Arena) (size : Int) : Except Fault (Pointer × Arena) :=
  a.getMem grants size

/-- Releases the block that starts at a pointer, which becomes nil; nil stays as it is. -/
def freeMem (a : Arena) (p : Pointer) : Except Fault (Pointer × Arena) :=
  if p.isNil then .ok (p, a)
  else if (a.block? p.address.toNat).isNone then .error .noBlock
  else .ok (.nil, a.erase p.address.toNat)

/-- A block of another size with the same bytes as far as they go, and zeros after them.  The old block is
    released before the new one is placed, also if there is no address left for it. -/
def reallocMem (grants : Nat → Bool) (a : Arena) (p : Pointer) (size : Int) :
    Except Fault Pointer × Arena :=
  let settle : Except Fault (Pointer × Arena) → Arena → Except Fault Pointer × Arena
    | .ok (q, b), _ => (.ok q, b)
    | .error e, b => (.error e, b)
  if p.isNil then settle (a.getMem grants size) a
  else if size ≤ 0 then settle (a.freeMem p) a
  else
    match a.block? p.address.toNat with
    | none => (.error .noBlock, a)
    | some old =>
      if grants size.toNat then
        let bytes := old.bytes.take size.toNat ++ List.replicate (size.toNat - old.bytes.length) 0
        let rest := a.erase old.base
        settle (rest.insert bytes) rest
      else (.error .noMemory, a)

/-! ### Bytes -/

/-- The block and the offset in it of `count` bytes.  There is no access through nil and past the end of a
    block; a pointer beyond the end of every block points at none. -/
def locate (a : Arena) (p : Pointer) (count : Nat) : Except Fault (Block × Nat) :=
  if p.isNil then .error (.noAccess p)
  else
    match a.blockBelow? p.address.toNat with
    | none => .error .noBlock
    | some block =>
      let offset := p.address.toNat - block.base
      if block.bytes.length < offset then .error .noBlock
      else if offset + count ≤ block.bytes.length then .ok (block, offset)
      else .error (.noAccess p)

/-- The bytes from a pointer on. -/
def bytes (a : Arena) (p : Pointer) (count : Int) : Except Fault (List UInt8) :=
  if count ≤ 0 then .ok []
  else do
    let (block, offset) ← a.locate p count.toNat
    return (block.bytes.drop offset).take count.toNat

/-- A block with other bytes from an offset on. -/
def overwrite (block : Block) (offset : Nat) (data : List UInt8) : List UInt8 :=
  block.bytes.take offset ++ data ++ block.bytes.drop (offset + data.length)

/-- Writes bytes from a pointer on. -/
def store (a : Arena) (p : Pointer) (data : List UInt8) : Except Fault Arena :=
  if data.isEmpty then .ok a
  else do
    let (block, offset) ← a.locate p data.length
    return a.update block.base (overwrite block offset data)

/-- Writes a pattern over and over into `count` bytes from a pointer on. -/
def fillBytes (a : Arena) (p : Pointer) (count : Int) (pattern : List UInt8) : Except Fault Arena :=
  if count ≤ 0 then .ok a
  else do
    let (block, offset) ← a.locate p count.toNat
    let data := (List.replicate (count.toNat / pattern.length) pattern).flatten
    return a.update block.base (overwrite block offset data)

/-- Writes the low byte of a number into `count` bytes. -/
def fillChar (a : Arena) (p : Pointer) (count value : Int) : Except Fault Arena :=
  a.fillBytes p count [UInt8.ofNat (value % 256).toNat]

/-- Writes zeros into `count` bytes. -/
def fillZero (a : Arena) (p : Pointer) (count : Int) : Except Fault Arena :=
  a.fillChar p count 0

/-- Writes a byte into `count` bytes. -/
def fillByte (a : Arena) (p : Pointer) (count : Int) (value : Whole .byte) : Except Fault Arena :=
  a.fillChar p count value.toInt

/-- A number of bytes as a count: what is above the greatest size is that size, read in 64 bits with a
    sign. -/
def byteCount (count : Int) (width : Nat) : Int :=
  WholeKind.int64.wrap (min (count.toNat * width) (addressLimit - 1) : Nat)

/-- Writes a word `count` times, its low byte first. -/
def fillWord (a : Arena) (p : Pointer) (count : Int) (value : Whole .word) : Except Fault Arena :=
  a.fillBytes p (byteCount count 2)
    [UInt8.ofNat value.toNat, UInt8.ofNat (value.toNat / 256)]

/-- Writes a double word `count` times, its low byte first. -/
def fillDWord (a : Arena) (p : Pointer) (count : Int) (value : Whole .cardinal) :
    Except Fault Arena :=
  a.fillBytes p (byteCount count 4)
    [UInt8.ofNat value.toNat, UInt8.ofNat (value.toNat / 256),
      UInt8.ofNat (value.toNat / 65536), UInt8.ofNat (value.toNat / 16777216)]

/-- Copies bytes from one place to another, as they were before the copy where the two overlap. -/
def moveMem (a : Arena) (source dest : Pointer) (count : Int) : Except Fault Arena :=
  if count ≤ 0 then .ok a
  else do
    let (source, start) ← a.locate source count.toNat
    let (dest, place) ← a.locate dest count.toNat
    return a.update dest.base (overwrite dest place ((source.bytes.drop start).take count.toNat))

/-- The order of two ranges of bytes, the first difference deciding, as -1, 0 or 1. -/
def compareMem (a : Arena) (p q : Pointer) (count : Int) : Except Fault Int := do
  let x ← a.bytes p count
  let y ← a.bytes q count
  return match Ord.compare x y with
    | .lt => -1
    | .eq => 0
    | .gt => 1

/-- The byte at a pointer. -/
def readByte (a : Arena) (p : Pointer) : Except Fault UInt8 := do
  let (block, offset) ← a.locate p 1
  return block.bytes.getD offset 0

/-- Writes the byte at a pointer. -/
def writeByte (a : Arena) (p : Pointer) (value : UInt8) : Except Fault Arena :=
  a.store p [value]

end Arena

end SystemUnit
