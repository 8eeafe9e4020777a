import SystemUnit.File.Context

namespace SystemUnit

/-!
# Buffered output

What is written to a file is held back until it no longer fits into a buffer, or until it is asked for.  If
the host refuses it, the bytes that were held back stay held back.  Main definitions:

* `Writer` — an open file with the bytes held back;
* `WriterM` — an operation on it, which may fail and then leaves what it had done;
* `Writer.flush`, `Writer.write` — bytes go to the file, and bytes are added.
-/

/-- A file that is open for output, and the bytes held back. -/
structure Writer where
  node : NodeId
  offset : Nat
  appends : Bool
  pending : Array UInt8 := #[]

/-- An operation on a writer and its volume, both of which keep what was done before it failed. -/
abbrev WriterM := ExceptT HostError (StateM (Writer × Volume))

namespace Writer

/-- The number of bytes that may be held back. -/
def capacity : Nat := 8192

/-- Writes bytes to the file: at its end, or where the last ones ended. -/
def emit (bytes : List UInt8) : WriterM Unit := do
  let (w, v) ← get
  let start := if w.appends then v.sizeOf w.node else w.offset
  match v.writeAt w.node start bytes with
  | .ok v => set ({ w with offset := start + bytes.length }, v)
  | .error e => throw e

/-- Writes the bytes that were held back to the file. -/
def flush : WriterM Unit := do
  emit (← get).1.pending.toList
  modify fun (w, v) => ({ w with pending := #[] }, v)

/-- Adds bytes.  If they do not fit, those held back go first; bytes that would fill the buffer are not held
    back at all. -/
def write (bytes : List UInt8) : WriterM Unit := do
  if capacity < (← get).1.pending.size + bytes.length then flush
  if bytes.length < capacity then modify fun (w, v) => ({ w with pending := w.pending ++ bytes }, v)
  else emit bytes

/-- Performs an operation; the volume and the writer become what it leaves of them. -/
def perform (w : Writer) (operation : WriterM Unit) : FileM (Except HostError Unit × Writer) := do
  let (outcome, w, v) := operation.run.run (w, ← FileM.volume)
  FileM.setVolume v
  return (outcome, w)

end Writer

end SystemUnit
