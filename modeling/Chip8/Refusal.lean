import Chip8.Text

/-!
# Refusals

What the library declines to do, and why.  Each constructor is a cause, with what
is needed to report it; the wording is in `message` and nowhere else.
-/

namespace Chip8

/-- Why a request was refused. -/
inductive Refusal where
  | emptyRom
  /-- A program has more bytes than fit behind its start address. -/
  | romTooLarge (size : Nat)
  | romUnreadable (reason : String)
  /-- A block would run past the end of memory. -/
  | memoryOverflow
  /-- A snapshot has the wrong length. -/
  | snapshotLength (size : Nat)
  /-- A snapshot does not begin as one. -/
  | snapshotSignature
  /-- A snapshot is of a version that is not known. -/
  | snapshotVersion (version : UInt8)
  /-- A snapshot asks for a choice of dialect that is not known. -/
  | snapshotDialect (bits : UInt8)
  /-- A snapshot holds more return addresses than the call stack does. -/
  | snapshotStackDepth (depth : UInt8)
  | snapshotUnreadable (reason : String)
  deriving DecidableEq

/-- The text of a refusal. -/
def Refusal.message : Refusal → String
  | emptyRom => "Rom is empty!"
  | romTooLarge size => s!"Rom with size {size} bytes is too large!"
  | romUnreadable reason => s!"Rom could not be read: {reason}"
  | memoryOverflow => "Write extends beyond the end of RAM!"
  | snapshotLength size => s!"Snapshot has unexpected size of {size} bytes"
  | snapshotSignature => "Data is not a CHIP-8 snapshot"
  | snapshotVersion version => s!"Snapshot version {version.toNat} is not supported"
  | snapshotDialect bits =>
      "Snapshot contains unknown quirk bits 0x" ++ Text.byte bits
  | snapshotStackDepth depth =>
      s!"Snapshot stack pointer {depth.toNat} is out of range"
  | snapshotUnreadable reason => s!"Snapshot could not be read: {reason}"

end Chip8
