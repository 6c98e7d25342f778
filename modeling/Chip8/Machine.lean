import Chip8.CallStack
import Chip8.Display
import Chip8.Keys
import Chip8.Memory.Font
import Chip8.Rom
import Chip8.Timers

/-!
# The machine

Everything a running program can observe or change, in one value.  Instructions
turn one machine into another; what runs them, and at what pace, is elsewhere.

A machine starts from `initial`, in which only the glyphs are in memory and the
screen is blank but asks to be painted, so that whoever shows it blanks what was
there before.  A loaded machine is `initial` with a program in place and depends on
nothing else (`load`): no trace of an earlier program can survive a load.
-/

namespace Chip8

/-- The state of a machine. -/
structure Machine where
  memory : Memory
  registers : Vector UInt8 16
  /-- The index register `I`. -/
  index : UInt16
  pc : UInt16
  /-- The return addresses. -/
  stack : CallStack
  display : Display
  timers : Timers
  /-- The keys as they were at the start of the frame. -/
  keys : Keys
  deriving DecidableEq

namespace Machine

/-- A machine without a program. -/
def initial : Machine where
  memory := Memory.blank.withFont
  registers := Vector.replicate 16 0
  index := 0
  pc := programStart
  stack := .empty
  display := Display.blank.requestRedraw
  timers := {}
  keys := .released

/-- A machine about to run a program. -/
def load (rom : Rom) : Machine :=
  { initial with memory := initial.memory.overwrite programStart.toNat rom.bytes }

/-- What a register holds. -/
def reg (m : Machine) (x : Register) : UInt8 := m.registers[x]

/-- Set a register. -/
def setReg (m : Machine) (x : Register) (value : UInt8) : Machine :=
  { m with registers := m.registers.set x value }

/-- Set a register and then the flag register.  The flag is written last, so it
wins when the register *is* the flag register. -/
def setWithFlag (m : Machine) (x : Register) (value : UInt8) (flag : Bool) : Machine :=
  (m.setReg x value).setReg .flag (if flag then 1 else 0)

/-- Step over the next instruction. -/
def skipIf (m : Machine) (condition : Bool) : Machine :=
  if condition then { m with pc := m.pc + 2 } else m

/-- The machine with the keys in a new state. -/
def latch (m : Machine) (keys : Keys) : Machine := { m with keys }

/-- Both timers count down. -/
def tick (m : Machine) : Machine := { m with timers := m.timers.tick }

/-- A register reads back what it was set to, and no other register changes. -/
@[simp] theorem reg_setReg (m : Machine) (x r : Register) (v : UInt8) :
    (m.setReg x v).reg r = if x = r then v else m.reg r := by
  simp only [reg, setReg, Fin.getElem_fin, Vector.getElem_set, Fin.ext_iff]

/-- Loading agrees with copying the program into an initial machine. -/
theorem loadProgram_initial (rom : Rom) :
    initial.memory.loadProgram rom.bytes = .ok (load rom).memory :=
  Memory.loadProgram_eq_ok _ rom.nonempty rom.fits

end Machine
end Chip8
