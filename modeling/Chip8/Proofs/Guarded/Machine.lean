import Chip8.Machine
import Chip8.Proofs.Guarded.Display

/-!
# The machine, guarded

The state of a guarded machine has the parts of a machine, except that the depth of its
call stack is any number.  So there are states that are no machine: those whose depth is
more than sixteen, and only those (`exists_bare_eq_iff`).  In such a state a call and a
return go wrong (`push_of_lt`, `pop?_of_lt`).  Each operation on a state that *is* a
machine succeeds, and leads to the state of the machine that the operation of the same
name leads to; that is the shape of all the other lemmas below.
-/

namespace Chip8
namespace Guarded

/-! ## The call stack -/

/-- The slots of a call stack and a depth, which may be any number. -/
structure Stack where
  slots : Vector UInt16 16
  depth : Nat
  deriving DecidableEq

/-- Push a return address.  On a full stack it replaces the one on top. -/
def Stack.push (s : Stack) (address : UInt16) : Attempt Stack :=
  if s.depth = 16 then do
    let slots ← replace s.slots 15 address
    .ok ⟨slots, s.depth⟩
  else do
    let slots ← replace s.slots s.depth address
    let depth ← fit 64 (s.depth + 1)
    .ok ⟨slots, depth⟩

/-- Pop the return address on top, if there is one. -/
def Stack.pop? (s : Stack) : Attempt (Option (UInt16 × Stack)) :=
  if s.depth = 0 then .ok none
  else do
    let depth ← minus s.depth 1
    let address ← entry s.slots depth
    .ok (some (address, ⟨s.slots, depth⟩))

/-- With more slots in use than there are, a call goes wrong. -/
theorem push_of_lt {s : Stack} (h : 16 < s.depth) (address : UInt16) :
    s.push address = .error (.index s.depth 16) := by
  rw [Stack.push, if_neg (by omega), replace, dif_neg (by omega)]
  rfl

/-- So does a return. -/
theorem pop?_of_lt {s : Stack} (h : 16 < s.depth) :
    s.pop? = .error (.index (s.depth - 1) 16) := by
  rw [Stack.pop?, if_neg (by omega), minus_of_le (by omega), Attempt.ok_bind, entry,
    dif_neg (by omega)]
  rfl

end Guarded

/-- A call stack without the bound on its depth. -/
def CallStack.bare (s : CallStack) : Guarded.Stack := ⟨s.slots, s.depth⟩

namespace Guarded

theorem slots_bare (s : CallStack) : s.bare.slots = s.slots := rfl

theorem depth_bare (s : CallStack) : s.bare.depth = s.depth := rfl

theorem push_bare (s : CallStack) (address : UInt16) :
    s.bare.push address = .ok (s.push address).bare := by
  have hle := s.depth_le
  rw [Stack.push, CallStack.push, slots_bare, depth_bare]
  by_cases hfull : s.depth = 16
  · rw [if_pos hfull, dif_neg (by omega), replace_of_lt _ _ (by decide)]
    rfl
  · have hlt : s.depth < 16 := by omega
    rw [if_neg hfull, dif_pos hlt, replace_of_lt _ _ hlt, Attempt.ok_bind, fit_of_lt (by omega)]
    rfl

theorem pop?_bare (s : CallStack) :
    s.bare.pop? = .ok (s.pop?.map fun popped => (popped.1, popped.2.bare)) := by
  have hle := s.depth_le
  rw [Stack.pop?, CallStack.pop?, slots_bare, depth_bare]
  by_cases hempty : s.depth = 0
  · rw [if_pos hempty, dif_pos hempty]
    rfl
  · rw [if_neg hempty, dif_neg hempty, minus_of_le (by omega), Attempt.ok_bind,
      entry_of_lt _ (by omega)]
    rfl

/-! ## Memory -/

/-- The byte at an address, of which only the low twelve bits count. -/
def read (m : Memory) (address : UInt16) : Attempt UInt8 :=
  entry m.cells (address &&& 0x0FFF).toNat

/-- Memory with one byte replaced. -/
def write (m : Memory) (address : UInt16) (value : UInt8) : Attempt Memory := do
  let cells ← replace m.cells (address &&& 0x0FFF).toNat value
  .ok ⟨cells⟩

/-- The big-endian word at an address. -/
def readWord (m : Memory) (address : UInt16) : Attempt UInt16 := do
  let high ← read m address
  let low ← read m (address + 1)
  .ok (Word.ofBytes high low)

theorem toNat_and_addressMask (address : UInt16) :
    (address &&& 0x0FFF).toNat = (Memory.cell address).val := by
  rw [UInt16.toNat_and]
  exact Nat.and_two_pow_sub_one_eq_mod address.toNat 12

@[simp] theorem read_eq (m : Memory) (address : UInt16) :
    read m address = .ok (m.read address) := by
  rw [read, toNat_and_addressMask, entry_val, Memory.read]

@[simp] theorem write_eq (m : Memory) (address : UInt16) (value : UInt8) :
    write m address value = .ok (m.write address value) := by
  rw [write, toNat_and_addressMask, replace_val]
  rfl

@[simp] theorem readWord_eq (m : Memory) (address : UInt16) :
    readWord m address = .ok (m.readWord address) := by
  simp only [readWord, read_eq, Attempt.ok_bind, Memory.readWord]

/-- Copy a block into memory, all or nothing. -/
def loadBytes (m : Memory) (address : Nat) (block : List UInt8) :
    Attempt (Except Refusal Memory) :=
  if address + block.length < 2 ^ 64 ∧ address + block.length ≤ 4096 then do
    let m ← copyTo m address (address + block.length) block
    .ok (.ok m)
  else .ok (.error .memoryOverflow)

/-- Copy a program to where programs start. -/
def loadProgram (m : Memory) (program : List UInt8) : Attempt (Except Refusal Memory) :=
  if program.isEmpty then .ok (.error .emptyRom)
  else if program.length > 3584 then .ok (.error (.romTooLarge program.length))
  else loadBytes m 0x200 program

theorem loadBytes_eq (m : Memory) (address : Nat) (block : List UInt8) :
    loadBytes m address block = .ok (m.loadBytes address block) := by
  rw [loadBytes, Memory.loadBytes]
  by_cases hfits : address + block.length ≤ 4096
  · rw [if_pos ⟨by omega, hfits⟩, if_pos hfits, copyTo_of_le m hfits]
    rfl
  · rw [if_neg (fun h => hfits h.2), if_neg hfits]

theorem loadProgram_eq (m : Memory) (program : List UInt8) :
    loadProgram m program = .ok (m.loadProgram program) := by
  rw [loadProgram, Memory.loadProgram, loadBytes_eq, apply_ite Except.ok, apply_ite Except.ok]
  rfl

/-! ## States -/

/-- The state of a guarded machine: a machine whose call stack may be too deep. -/
structure State where
  memory : Memory
  registers : Vector UInt8 16
  index : UInt16
  pc : UInt16
  stack : Stack
  display : Display
  timers : Timers
  keys : Keys
  deriving DecidableEq

/-- What a register holds. -/
def State.reg (s : State) (x : Nat) : Attempt UInt8 := entry s.registers x

/-- Set a register. -/
def State.setReg (s : State) (x : Nat) (value : UInt8) : Attempt State := do
  let registers ← replace s.registers x value
  .ok { s with registers }

/-- Set a register and then the flag register. -/
def State.setWithFlag (s : State) (x : Nat) (value : UInt8) (flag : Bool) : Attempt State := do
  let s ← s.setReg x value
  s.setReg 15 (if flag then 1 else 0)

/-- Step over the next instruction. -/
def State.skipIf (s : State) (condition : Bool) : State :=
  if condition then { s with pc := s.pc + 2 } else s

end Guarded

/-- A machine without the bound on the depth of its stack. -/
def Machine.bare (m : Machine) : Guarded.State where
  memory := m.memory
  registers := m.registers
  index := m.index
  pc := m.pc
  stack := m.stack.bare
  display := m.display
  timers := m.timers
  keys := m.keys

namespace Guarded

/-- The states of machines are those in which no more slots are in use than there are. -/
theorem exists_bare_eq_iff (s : State) : (∃ m : Machine, m.bare = s) ↔ s.stack.depth ≤ 16 := by
  constructor
  · rintro ⟨m, rfl⟩
    exact m.stack.depth_le
  · intro h
    exact ⟨⟨s.memory, s.registers, s.index, s.pc, ⟨s.stack.slots, s.stack.depth, h⟩, s.display,
      s.timers, s.keys⟩, rfl⟩

@[simp] theorem reg_bare (m : Machine) (x : Register) : m.bare.reg x.val = .ok (m.reg x) :=
  entry_val m.registers x

@[simp] theorem setReg_bare (m : Machine) (x : Register) (value : UInt8) :
    m.bare.setReg x.val value = .ok (m.setReg x value).bare := by
  rw [State.setReg, replace_val]
  rfl

@[simp] theorem setWithFlag_bare (m : Machine) (x : Register) (value : UInt8) (flag : Bool) :
    m.bare.setWithFlag x.val value flag = .ok (m.setWithFlag x value flag).bare := by
  rw [State.setWithFlag, setReg_bare]
  exact setReg_bare (m.setReg x value) .flag _

@[simp] theorem skipIf_bare (m : Machine) (condition : Bool) :
    m.bare.skipIf condition = (m.skipIf condition).bare := by
  cases condition <;> rfl

end Guarded
end Chip8
