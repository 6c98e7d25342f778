import Chip8.Console
import Chip8.Host.Canvas
import Chip8.Host.Disk
import Chip8.Host.Keyboard
import Chip8.Inspection
import Chip8.Pacing

/-!
# A session at a window

A session is a console connected to a window, a keyboard, a loudspeaker and a disk.
Events arrive one at a time, and `Session.handle` says what each of them leads to:
the session and the disk afterwards, the calls that are made to the devices, what is
reported, and whether the session goes on.

The devices themselves are not here.  All that a session needs to know about them is
which calls fail (`Devices`), and all that they need to know is the list of calls
(`DeviceCall`).

Who may change what:

* the state of the keypad is changed by keys that stand for it and by a loss of
  focus, and by nothing else;
* the console is changed by three commands --- pause, reset, restore --- and by the
  frames that an `idle` event runs;
* the disk is changed by the save command.
-/

namespace Chip8

/-! ## Events and calls -/

/-- Something that happens to a window. -/
inductive Event where
  | closeRequested
  | resized (width height : Nat)
  | focused (gained : Bool)
  /-- A key was pressed or released.  Some keys have no name. -/
  | key (name : Option String) (pressed : Bool)
  /-- All events have been handled for now. -/
  | idle
  | redrawRequested
  | other
  deriving DecidableEq

/-- A call to a device.  The window starts at its `innerSize` and becomes no smaller than its
`minSize`. -/
inductive DeviceCall where
  | title (text : String)
  | innerSize (width height : Nat)
  | minSize (width height : Nat)
  /-- Draw on a surface of the size of the window. -/
  | surface (width height : Nat)
  | picture (width height : Nat)
  /-- Set up a tone of 440 hertz, at a fifth of the full volume. -/
  | setTone
  | sound (on : Bool)
  | resize (width height : Nat)
  | requestRedraw
  | render (canvas : Canvas)

/-- How a session goes on. -/
inductive Flow where
  /-- Wait until the next frame falls due. -/
  | wait
  | exit
  deriving DecidableEq

/-- Which devices fail, each with the reason: opening the window, setting up the picture,
opening the loudspeaker, setting up its tone, changing the size of the surface, drawing
the picture. -/
structure Devices where
  window : Option String := none
  picture : Option String := none
  audio : Option String := none
  tone : Option String := none
  resize : Option String := none
  render : Option String := none

/-! ## Reports -/

/-- Something that a session has to report.  A pause is followed by what the machine looks
like: `registers`, `screen` and `memory`. -/
inductive Report where
  | console (n : Notice)
  /-- There is no loudspeaker, or none that works. -/
  | noSound (reason : String)
  | resizeFailed (reason : String)
  | renderFailed (reason : String)
  | paused
  | registers (m : Machine)
  | screen (d : Display)
  | memory (m : Memory)
  | resumed
  | reset
  | saved (path : String)
  | notSaved (path : String) (reason : FileError)
  | restored (path : String)
  /-- A snapshot could not be read, or was not in order. -/
  | notRestored (reason : Refusal)

namespace Report

/-- The level of a report. -/
def level : Report → Level
  | console n => n.level
  | noSound _ => .warn
  | resizeFailed _ => .error
  | renderFailed _ => .error
  | paused => .info
  | registers _ => .info
  | screen _ => .trace
  | memory _ => .trace
  | resumed => .info
  | reset => .info
  | saved _ => .info
  | notSaved .. => .error
  | restored _ => .info
  | notRestored _ => .warn

/-- The text of a report.  Dumps begin on a line of their own. -/
def text : Report → String
  | console n => n.text
  | noSound reason => "No sound: " ++ reason
  | resizeFailed reason => "Could not resize surface: " ++ reason
  | renderFailed reason => "Render failed: " ++ reason
  | paused => "Paused"
  | registers m => m.registerLine
  | screen d => "\n" ++ Text.lines d.dumpLines
  | memory m => "\n" ++ Text.lines m.dumpLines
  | resumed => "Resumed"
  | reset => "Reset"
  | saved path => "Saved state to " ++ path
  | notSaved path reason => "Could not save state to " ++ path ++ ": " ++ reason.message
  | restored path => "Loaded state from " ++ path
  | notRestored reason => reason.message

end Report

/-! ## Sessions -/

/-- The loudspeaker, if there is one, and whether the tone sounds. -/
inductive Beeper where
  | missing
  | present (sounding : Bool)
  deriving DecidableEq

namespace Beeper

/-- Whether the tone sounds.  It never does without a loudspeaker. -/
def isOn : Beeper → Bool
  | missing => false
  | present sounding => sounding

/-- Switch the tone, if it is to be switched and there is a loudspeaker. -/
def switch (b : Beeper) (change : Option ToneSwitch) : Beeper × List DeviceCall :=
  match b, change with
  | present _, some .start => (present true, [.sound true])
  | present _, some .stop => (present false, [.sound false])
  | b, _ => (b, [])

end Beeper

/-- A session at a window. -/
structure Session (σ : Type) where
  console : Console σ
  /-- The keys of the keypad, as they are now. -/
  keys : Keys
  beeper : Beeper
  /-- The picture, as it was last painted. -/
  canvas : Canvas
  pacer : Pacer
  /-- Where snapshots are kept. -/
  snapshotPath : String

/-- What an event leads to: the session and the disk afterwards, the calls that are made
and the reports, both in order. -/
structure Turn (σ : Type) where
  session : Session σ
  disk : Disk
  calls : List DeviceCall := []
  reports : List Report := []
  /-- How the session goes on, if the event decides that. -/
  flow : Option Flow := none

/-- The outcome of drawing a picture. -/
def Devices.draw (v : Devices) (canvas : Canvas) : List DeviceCall × List Report :=
  match v.render with
  | none => ([.render canvas], [])
  | some reason => ([], [.renderFailed reason])

/-- The outcome of changing the size of the surface. -/
def Devices.changeSize (v : Devices) (width height : Nat) : List DeviceCall × List Report :=
  match v.resize with
  | none => ([.resize width height], [])
  | some reason => ([], [.resizeFailed reason])

namespace Session

variable {σ : Type}

/-- The reports of a console. -/
def reportsOf (notices : List Notice) : List Report := notices.map .console

/-! ## Commands -/

/-- Pause the console and show what is in it, or resume it. -/
def pause (s : Session σ) (disk : Disk) : Turn σ :=
  let reply := s.console.togglePause
  let m := reply.console.machine
  { session := { s with console := reply.console }
    disk
    reports := reportsOf reply.notices ++
      if reply.console.paused then
        [.paused, .registers m, .screen m.display, .memory m.memory]
      else [.resumed] }

/-- Start the rom again. -/
def reset (s : Session σ) (disk : Disk) : Turn σ :=
  let reply := s.console.reset
  { session := { s with console := reply.console }
    disk
    reports := reportsOf reply.notices ++ [.reset] }

/-- Write a snapshot. -/
def save (s : Session σ) (disk : Disk) : Turn σ :=
  match disk.write s.snapshotPath s.console.save with
  | .ok disk => { session := s, disk, reports := [.saved s.snapshotPath] }
  | .error e => { session := s, disk, reports := [.notSaved s.snapshotPath e] }

/-- Read a snapshot and go on from it. -/
def restore (s : Session σ) (disk : Disk) : Turn σ :=
  match disk.read s.snapshotPath with
  | .error e =>
      { session := s, disk
        reports := [.notRestored (.snapshotUnreadable s!"{s.snapshotPath}: {e.message}")] }
  | .ok bytes =>
      let reply := s.console.restore bytes
      { session := { s with console := reply.console }
        disk
        reports := reportsOf reply.notices ++
          match reply.refusal with
          | none => [.restored s.snapshotPath]
          | some e => [.notRestored e] }

/-- Carry out a command. -/
def command (s : Session σ) (disk : Disk) : Keyboard.Command → Turn σ
  | .quit => { session := s, disk, flow := some .exit }
  | .pause => s.pause disk
  | .reset => s.reset disk
  | .save => s.save disk
  | .restore => s.restore disk

/-- A key was pressed or released.  Commands are given by pressing. -/
def key (s : Session σ) (disk : Disk) (name : String) (pressed : Bool) : Turn σ :=
  match Keyboard.binding? name with
  | some (.pad k) => { session := { s with keys := s.keys.put k pressed }, disk }
  | some (.command c) => if pressed then s.command disk c else { session := s, disk }
  | none => { session := s, disk }

/-! ## Frames -/

/-- Run a frame: the session afterwards, the calls and the reports. -/
def frame [ByteSource σ] (v : Devices) (s : Session σ) :
    Session σ × List DeviceCall × List Report :=
  let f := s.console.runFrame s.keys s.beeper.isOn
  let (beeper, toneCalls) := s.beeper.switch f.tone
  let s := { s with console := f.console, beeper }
  let reports := reportsOf f.notices.toList
  match f.screen with
  | none => (s, toneCalls, reports)
  | some packed =>
      let canvas := Canvas.paint packed
      let (calls, failures) := v.draw canvas
      ({ s with canvas }, toneCalls ++ calls, reports ++ failures)

/-- Run frames one after the other. -/
def frames [ByteSource σ] (v : Devices) :
    Nat → Session σ → Session σ × List DeviceCall × List Report
  | 0, s => (s, [], [])
  | n + 1, s =>
      let (s, calls, reports) := s.frame v
      let (s, calls', reports') := frames v n s
      (s, calls ++ calls', reports ++ reports')

/-! ## Events -/

/-- What an event leads to, at a moment. -/
def handle [ByteSource σ] (v : Devices) (now : Nat) (disk : Disk) (s : Session σ) :
    Event → Turn σ
  | .closeRequested => { session := s, disk, flow := some .exit }
  | .resized width height =>
      let (calls, reports) := v.changeSize width height
      { session := s, disk, calls := calls ++ [.requestRedraw], reports }
  | .focused gained =>
      { session := if gained then s else { s with keys := .released }, disk }
  | .key (some name) pressed => s.key disk name pressed
  | .key none _ => { session := s, disk }
  | .idle =>
      let (due, pacer) := s.pacer.poll now
      let (s, calls, reports) := frames v (due.getD 0) { s with pacer }
      { session := s, disk, calls, reports, flow := some .wait }
  | .redrawRequested =>
      let (calls, reports) := v.draw s.canvas
      { session := s, disk, calls, reports }
  | .other => { session := s, disk }

end Session
end Chip8
