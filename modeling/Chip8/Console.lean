import Chip8.Execution
import Chip8.Settings
import Chip8.Snapshot

/-!
# The console

A console is a machine with a power switch: it holds a rom, runs the machine one
frame at a time, can be paused, and can be saved and restored.  A frame is

1. look at the keys, once;
2. execute up to a fixed number of instructions;
3. count the timers down, once;
4. switch the tone to follow the sound timer;
5. hand over the screen, if it has to be painted.

A console that is halted or paused does none of the first three.  It still switches
the tone off and still hands over the screen, because a load or a restore may have
changed it in between.

The console neither reads keys nor makes sounds nor paints.  What it is told
comes in as arguments of `runFrame`, and what it wants done comes out in the
`Frame`.  In particular the console does not remember whether the tone is on: it is
told, and asks for a switch only when one is needed.
-/

namespace Chip8

/-- What a console is doing. -/
inductive Status where
  | running
  | awaitingKey
  | paused
  /-- The program has stopped, or there is none. -/
  | halted
  deriving DecidableEq

/-- A console, with the source of its random bytes and the dialect in force. -/
structure Console (σ : Type) where
  machine : Machine
  dialect : Dialect
  source : σ
  /-- The most instructions executed in a frame. -/
  cyclesPerFrame : Nat
  /-- The rom that a reset goes back to. -/
  rom : Option Rom
  /-- Whether the machine has stopped, or was never started. -/
  halted : Bool
  paused : Bool
  /-- Whether the last frame ended with the program waiting for a key. -/
  awaitingKey : Bool
  deriving DecidableEq

/-- What a request to a console led to: the console afterwards, the reason if it was
refused, and what there is to report, in order. -/
structure Reply (σ : Type) where
  console : Console σ
  refusal : Option Refusal := none
  notices : List Notice := []

/-- A change to the state of the tone. -/
inductive ToneSwitch where
  | start
  | stop
  deriving DecidableEq

/-- The switch that takes the tone from one state to another, if one is needed. -/
def ToneSwitch.between? : (isOn wanted : Bool) → Option ToneSwitch
  | false, true => some .start
  | true, false => some .stop
  | _, _ => none

/-- What a frame led to: the console afterwards, and what the host has to do.  The tone
stays as it is without a switch, the window without a screen; the notices are in
order. -/
structure Frame (σ : Type) where
  console : Console σ
  tone : Option ToneSwitch
  screen : Option Packed
  notices : Array Notice

namespace Console

variable {σ : Type}

/-- A console without a rom. -/
def powerOn (settings : Settings) (source : σ) : Console σ where
  machine := .initial
  dialect := settings.dialect
  source := source
  cyclesPerFrame := settings.cyclesPerFrame
  rom := none
  halted := true
  paused := false
  awaitingKey := false

/-- What the console is doing. -/
def status (c : Console σ) : Status :=
  if c.halted then .halted
  else if c.paused then .paused
  else if c.awaitingKey then .awaitingKey
  else .running

/-! ## Roms -/

/-- Run a rom from its start. -/
def load (rom : Rom) (c : Console σ) : Reply σ where
  console := { c with
    machine := .load rom, rom := some rom, halted := false, awaitingKey := false }
  notices := [.romLoaded rom, .running rom.name]

/-- Take out the rom, and clear the machine. -/
def eject (c : Console σ) : Console σ :=
  { c with machine := .initial, rom := none, halted := true, awaitingKey := false }

/-- Run the rom in a file.  If there is no rom in the file, the console is left
without one. -/
def loadFile (path : String) (fileName : List UInt8) (contents : Except String (List UInt8))
    (c : Console σ) : Reply σ :=
  match Rom.ofFile path fileName contents with
  | .ok rom => c.eject.load rom
  | .error e => { console := c.eject, refusal := some e }

/-- Run the rom from its start again.  Without a rom the machine is cleared and
nothing else changes. -/
def reset (c : Console σ) : Reply σ :=
  match c.rom with
  | some rom => c.load rom
  | none => { console := { c with machine := .initial } }

/-- Pause a console, or resume a paused one. -/
def togglePause (c : Console σ) : Reply σ where
  console := { c with paused := !c.paused }
  notices := [.pauseChanged !c.paused]

/-! ## Snapshots -/

/-- The machine and the dialect, as bytes. -/
def save (c : Console σ) : List UInt8 := Snapshot.encode ⟨c.machine, c.dialect⟩

/-- Go on from a snapshot.  One that is not in order changes nothing. -/
def restore (bytes : List UInt8) (c : Console σ) : Reply σ :=
  match Snapshot.decode bytes with
  | .ok s =>
      { console := { c with
          machine := s.machine, dialect := s.dialect, halted := false, awaitingKey := false }
        notices := [s.notice, .snapshotRestored] }
  | .error e => { console := c, refusal := some e, notices := [.snapshotRejected e] }

/-! ## Frames -/

/-- Hand over the screen if it has to be painted, and take note that it was. -/
def handOver (c : Console σ) (tone : Option ToneSwitch) (notices : Array Notice) : Frame σ where
  console := { c with machine := { c.machine with display := c.machine.display.takeRedraw } }
  tone := tone
  screen := if c.machine.display.redraw then some c.machine.display.pack else none
  notices := notices

/-- A frame of a console that is halted or paused. -/
def idleFrame (toneOn : Bool) (c : Console σ) : Frame σ :=
  c.handOver (ToneSwitch.between? toneOn false) #[]

/-- A frame of a console that runs. -/
def activeFrame [ByteSource σ] (keys : Keys) (toneOn : Bool) (c : Console σ) : Frame σ :=
  let r := run c.dialect c.cyclesPerFrame (c.machine.latch keys) c.source
  let machine := r.machine.tick
  let c' := { c with
    machine, source := r.source,
    halted := decide (r.signal = Signal.halt)
    awaitingKey := decide (r.signal = Signal.awaitKey) }
  let stopped := if r.signal = Signal.halt then #[Notice.halted (r.machine.pc - 2)] else #[]
  c'.handOver (ToneSwitch.between? toneOn machine.timers.isSounding) (r.notices ++ stopped)

/-- Run a frame, with the keys as they are and the tone on or off. -/
def runFrame [ByteSource σ] (keys : Keys) (toneOn : Bool) (c : Console σ) : Frame σ :=
  if c.halted || c.paused then c.idleFrame toneOn else c.activeFrame keys toneOn

end Console

end Chip8
