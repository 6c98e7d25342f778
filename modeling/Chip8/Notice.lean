import Chip8.Dialect
import Chip8.Instruction.Mnemonic
import Chip8.Rom

/-!
# Notices

What the machine and the console have to report while they work, other than their
results.  A notice is a value that an operation returns along with its result; it
is not an effect, and dropping it changes nothing.

Each notice has a level, and a listener states the least severe level it wants to
hear (`Level.within`).
-/

namespace Chip8

/-- How severe a notice is, the most severe first. -/
inductive Level where
  /-- Something that was asked for did not happen. -/
  | error
  /-- Something is wrong, and was dealt with. -/
  | warn
  /-- Something the user may like to know. -/
  | info
  /-- Something of interest when looking for a fault. -/
  | debug
  /-- Every single step. -/
  | trace
  deriving DecidableEq

namespace Level

/-- The position of a level, the most severe first. -/
def rank : Level → Nat
  | error => 0
  | warn => 1
  | info => 2
  | debug => 3
  | trace => 4

/-- The name of a level. -/
def name : Level → String
  | error => "ERROR"
  | warn => "WARN"
  | info => "INFO"
  | debug => "DEBUG"
  | trace => "TRACE"

/-- Whether a listener with a limit hears a level.  Without a limit it hears none. -/
def within (l : Level) : Option Level → Bool
  | some limit => l.rank ≤ limit.rank
  | none => false

end Level

/-- Something to report. -/
inductive Notice where
  | executing (address word : UInt16)
  /-- A return was executed with no return address. -/
  | returnIgnored (address : UInt16)
  /-- A call was executed on a full stack. -/
  | returnReplaced (target : UInt16)
  | unknownWord (word address : UInt16)
  | halted (address : UInt16)
  | romLoaded (rom : Rom)
  | running (name : String)
  | pauseChanged (paused : Bool)
  /-- A snapshot was found to be in order. -/
  | snapshotDecoded (pc : UInt16) (dialect : Dialect)
  | snapshotRestored
  /-- A snapshot was found not to be in order. -/
  | snapshotRejected (reason : Refusal)
  deriving DecidableEq

namespace Notice

/-- The level of a notice. -/
def level : Notice → Level
  | executing .. => .trace
  | returnIgnored .. => .warn
  | returnReplaced .. => .warn
  | unknownWord .. => .warn
  | halted .. => .info
  | romLoaded .. => .debug
  | running .. => .info
  | pauseChanged .. => .debug
  | snapshotDecoded .. => .debug
  | snapshotRestored => .debug
  | snapshotRejected .. => .warn

/-- The text of a notice. -/
def text : Notice → String
  | executing address word =>
      Text.address address ++ ": " ++ Text.word word ++ " " ++ Instruction.spell word
  | returnIgnored address =>
      "Return at " ++ Text.address address ++ " with an empty stack, ignoring"
  | returnReplaced target =>
      "Stack overflow calling " ++ Text.address target ++ ", replacing the top return address"
  | unknownWord word address =>
      "Unknown instruction " ++ Text.word word ++ " at " ++ Text.address address ++ ", skipping"
  | halted address => "Program halted at " ++ Text.address address
  | romLoaded rom => "Loaded " ++ rom.describe
  | running name => "Running " ++ name
  | pauseChanged paused => "Paused: " ++ Text.truth paused
  | snapshotDecoded pc dialect =>
      "Decoded snapshot, pc " ++ Text.address pc ++ ", " ++ dialect.describe
  | snapshotRestored => "Restored snapshot"
  | snapshotRejected reason => "Rejected snapshot: " ++ reason.message

end Notice
end Chip8
