import Chip8.CommandLine.Help
import Chip8.Host.Session
import Chip8.Listing

/-!
# The program

From a list of arguments to the end: the program prints a text, or lists a rom, or
refuses one, or opens a window and handles events until one of them ends it.  All of
it is a function of the arguments, the disk, the devices and the events, and its
result is a `Transcript`.

`Program.list` and `Program.insert` are the two ways to begin with a rom.  They are
given what came of reading the file, so whoever reads the file need not be here.
-/

namespace Chip8

/-- A line on the error output. -/
inductive Line where
  | report (r : Report)
  /-- A message without a level. -/
  | message (text : String)

/-- Everything that a program did. -/
structure Transcript where
  exit : Nat
  /-- What was printed. -/
  output : String := ""
  /-- What went to the error output. -/
  lines : List Line := []
  /-- The calls that were made: first those from before the first event, then those
  of each event, with how the session was to go on.  There are none if no window was
  opened. -/
  calls : Option (List (List DeviceCall × Option Flow)) := none
  disk : Disk

namespace Program

/-- Where the snapshots of a rom are kept. -/
def snapshotPath (path : String) : String := path ++ ".chip8state"

/-- The title of the window. -/
def title (path : String) : String := "CHIP-8 - " ++ path

/-- The lines of the rom in a file. -/
def list (path : String) (contents : Except String (List UInt8)) : Except Refusal (List String) :=
  (Rom.ofFile path (Disk.fileName path) contents).map fun rom =>
    Listing.lines programStart rom.bytes

/-- A console with the rom in a file. -/
def insert {σ : Type} (c : CommandLine.Configuration) (source : σ)
    (contents : Except String (List UInt8)) : Reply σ :=
  (Console.powerOn c.settings source).loadFile c.path (Disk.fileName c.path) contents

/-- The loudspeaker, the calls that set it up, and what there is to report. -/
def openBeeper (v : Devices) : Beeper × List DeviceCall × List Report :=
  match v.audio, v.tone with
  | some reason, _ => (.missing, [], [.noSound reason])
  | none, some reason => (.missing, [], [.noSound reason])
  | none, none => (.present false, [.sound false, .setTone], [])

/-- A session that has just been opened, the calls that opened it, and what there is
to report; or the message that says why there is none. -/
def openSession {σ : Type} (v : Devices) (c : CommandLine.Configuration) (console : Console σ) :
    Except String (Session σ × List DeviceCall × List Report) :=
  let width := 64 * c.scale
  let height := 32 * c.scale
  match v.window, v.picture with
  | some reason, _ => .error ("Could not open a window: " ++ reason)
  | none, some reason => .error ("Could not set up rendering: " ++ reason)
  | none, none =>
      let (beeper, soundCalls, reports) := openBeeper v
      let session := {
        console, beeper
        keys := .released
        canvas := .empty
        pacer := .start standardRate 0
        snapshotPath := snapshotPath c.path }
      .ok (session,
        [.title (title c.path), .innerSize width height, .minSize 64 32,
          .surface width height, .picture 64 32] ++ soundCalls,
        reports)

/-- Handle events, each of which comes some time after the one before, until one ends
the session or there are no more: the calls of each, the reports of all, and the disk
afterwards. -/
def drive {σ : Type} [ByteSource σ] (v : Devices) (now : Nat) (disk : Disk) (s : Session σ) :
    List (Nat × Event) → List (List DeviceCall × Option Flow) × List Report × Disk
  | [] => ([], [], disk)
  | (elapsed, event) :: rest =>
      let now := now + elapsed
      let turn := s.handle v now disk event
      if turn.flow = some .exit then ([(turn.calls, turn.flow)], turn.reports, turn.disk)
      else
        let (calls, reports, disk) := drive v now turn.disk turn.session rest
        ((turn.calls, turn.flow) :: calls, turn.reports ++ reports, disk)

/-- Run the program with a configuration. -/
def runConfiguration {σ : Type} [ByteSource σ] (v : Devices) (c : CommandLine.Configuration)
    (source : σ) (disk : Disk) (events : List (Nat × Event)) : Transcript :=
  let contents := (disk.read c.path).mapError FileError.message
  if c.disassemble then
    match list c.path contents with
    | .ok lines => { exit := 0, output := Text.lines lines, disk }
    | .error e => { exit := 1, lines := [.message e.message], disk }
  else
    let reply := insert c source contents
    let inserted := reply.notices.map fun n => Line.report (.console n)
    match reply.refusal with
    | some e => { exit := 1, lines := inserted ++ [.message e.message], disk }
    | none =>
        match openSession v c reply.console with
        | .error text => { exit := 1, lines := inserted ++ [.message text], disk }
        | .ok (session, calls, reports) =>
            let (later, laterReports, disk) := drive v 0 disk session events
            { exit := 0
              lines := inserted ++ (reports ++ laterReports).map Line.report
              calls := some ((calls, none) :: later)
              disk }

/-- Run the program with arguments, unless they make no sense. -/
def run {σ : Type} [ByteSource σ] (v : Devices) (arguments : List String) (source : σ)
    (disk : Disk) (events : List (Nat × Event)) : Option Transcript :=
  match CommandLine.parse arguments with
  | .refused => none
  | .answer request => some { exit := 0, output := request.text, disk }
  | .run c => some (runConfiguration v c source disk events)

end Program
end Chip8
