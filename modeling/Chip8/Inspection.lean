import Chip8.Machine

/-!
# Looking into a machine

Written forms of a machine for people who want to see what is in it: the registers
on one line, the memory sixteen bytes to a line, the screen a row to a line, and the
whole machine in brief.
-/

namespace Chip8
namespace Machine

/-- The registers, on one line. -/
def registerLine (m : Machine) : String :=
  String.join ((List.finRange 16).map fun r : Register =>
      "V" ++ Text.nibble r ++ "=" ++ Text.byte (m.reg r) ++ " ")
    ++ "I=" ++ Text.address m.index
    ++ " PC=" ++ Text.address m.pc
    ++ s!" SP={m.stack.depth}"
    ++ " DT=" ++ Text.byte m.timers.delay
    ++ " ST=" ++ Text.byte m.timers.sound

/-- The machine written out.  Memory and screen are abbreviated. -/
def describe (m : Machine) : String :=
  "Chip8State \x7b ram: " ++ m.memory.describe
    ++ ", v: " ++ Text.bracketed (m.registers.toList.map fun v => toString v.toNat)
    ++ s!", i: {m.index.toNat}, pc: {m.pc.toNat}, stack: "
    ++ m.stack.describe
    ++ ", display: " ++ m.display.describe
    ++ ", timers: " ++ m.timers.describe
    ++ ", keys: " ++ Text.bracketed (m.keys.toList.map Text.truth)
    ++ " \x7d"

end Machine

/-- The memory in lines of sixteen bytes, each with the address of its first. -/
def Memory.dumpLines (m : Memory) : List String :=
  (List.range 256).map fun row =>
    let address := UInt16.ofNat (16 * row)
    Text.address address ++ ":"
      ++ String.join ((m.readRun address 16).map fun b => " " ++ Text.byte b)

/-- The screen, a row to a line: `#` for a lit pixel and `.` for an unlit one. -/
def Display.dumpLines (d : Display) : List String :=
  d.rows.map fun row => String.ofList (row.map fun lit => if lit then '#' else '.')

end Chip8
