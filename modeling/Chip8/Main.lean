import Chip8.Host.Program

/-!
# The command

Reads the rom from the real disk and does what can be done without a window: answers
requests, lists roms and refuses what is not a rom.  Everything it prints is decided
by `Chip8.Program`; only reading and printing happen here.
-/

namespace Chip8
namespace Command

/-- Why a file could not be read, in words. -/
def reason : IO.Error → String
  | .noFileOrDirectory .. => FileError.notFound.message
  | .inappropriateType .. => FileError.isDirectory.message
  | e => toString e

/-- The bytes of a file, or the reason why there are none. -/
def contents (path : String) : IO (Except String (List UInt8)) := do
  try
    let bytes ← IO.FS.readBinFile path
    return .ok bytes.toList
  catch e =>
    return .error (reason e)

/-- Run with a configuration. -/
def runConfiguration (c : CommandLine.Configuration) : IO UInt32 := do
  let contents ← contents c.path
  if c.disassemble then
    match Program.list c.path contents with
    | .ok lines =>
        IO.print (Text.lines lines)
        return 0
    | .error e =>
        IO.eprintln e.message
        return 1
  else
    match (Program.insert c (⟨0⟩ : Seeded) contents).refusal with
    | some e => IO.eprintln e.message
    | none => IO.eprintln "Could not open a window: there is no screen"
    return 1

end Command
end Chip8

/-- Run the program. -/
def main (arguments : List String) : IO UInt32 :=
  match Chip8.CommandLine.parse arguments with
  | .refused => do
      IO.eprintln Chip8.CommandLine.usageLine
      return 2
  | .answer request => do
      IO.print request.text
      return 0
  | .run c => Chip8.Command.runConfiguration c
