import Chip8.Display.Sprite
import Chip8.Machine
import Chip8.Notice
import Chip8.Random

/-!
# Executing instructions

`execute` is the meaning of an instruction: a function of the dialect, the machine
and the source of random bytes.  It expects the program counter to point past the
instruction already.  `executeWord` adds the words that are no instructions, `step`
adds the fetch, and `run` takes several steps.

Three points of order decide corner cases, and are the same everywhere below.

1. **Operands are read before anything is written.**  The flag register may be an
   operand or a target, and an instruction sees the values from before it.
2. **The flag is written last.**  It wins when the target is the flag register
   itself.
3. **An instruction that waits undoes its own fetch.**  The program counter is moved
   back onto it, so it is simply executed again in the next frame and leaves no
   trace of having been tried.

Nothing here can fail: every address stands for a cell, every key number for a key,
and the depth of the call stack is bounded by its type.
-/

namespace Chip8

/-- What to do after an instruction. -/
inductive Signal where
  | proceed
  /-- Stop: the program asked for it. -/
  | halt
  /-- Stop for this frame: the program waits for a key. -/
  | awaitKey
  deriving DecidableEq

/-- What executing something led to: the machine and the source of random bytes afterwards,
what to do next, and what there is to report, in order. -/
structure Outcome (σ : Type) where
  machine : Machine
  source : σ
  signal : Signal := .proceed
  notices : List Notice := []

/-! ## Register arithmetic -/

/-- The result of a register operation on the values `a` of `VX` and `b` of `VY`,
and the flag if the operation sets it. -/
def Operation.apply (f : Operation) (d : Dialect) (a b : UInt8) : UInt8 × Option Bool :=
  let logical (value : UInt8) := (value, if d.vfReset then some false else none)
  let shifted := if d.shiftUsesVx then a else b
  match f with
  | .copy => (b, none)
  | .or => logical (a ||| b)
  | .and => logical (a &&& b)
  | .xor => logical (a ^^^ b)
  | .add => (a + b, some (decide (255 < a.toNat + b.toNat)))
  | .subtract => (a - b, some (decide (b.toNat ≤ a.toNat)))
  | .shiftRight => (shifted / 2, some (decide (shifted.toNat % 2 = 1)))
  | .subtractFrom => (b - a, some (decide (a.toNat ≤ b.toNat)))
  | .shiftLeft => (shifted * 2, some (decide (128 ≤ shifted.toNat)))

namespace Machine

/-- Combine two registers, and set the flag if the operation does. -/
def combine (m : Machine) (d : Dialect) (f : Operation) (x y : Register) : Machine :=
  match f.apply d (m.reg x) (m.reg y) with
  | (value, none) => m.setReg x value
  | (value, some flag) => m.setWithFlag x value flag

/-! ## Transfers between registers and memory -/

/-- The index register after a transfer of the registers up to `x`. -/
def indexAfterTransfer (m : Machine) (d : Dialect) (x : Register) : UInt16 :=
  if d.memoryLeaveIUnchanged then m.index
  else if d.memoryIncrementByX then m.index + UInt16.ofNat x.val
  else m.index + UInt16.ofNat (x.val + 1)

/-- Write the registers up to `x` to memory. -/
def store (m : Machine) (d : Dialect) (x : Register) : Machine :=
  { m with
    memory := m.memory.writeRun m.index (m.registers.toList.take (x.val + 1))
    index := m.indexAfterTransfer d x }

/-- Read the registers up to `x` from memory. -/
def fetch (m : Machine) (d : Dialect) (x : Register) : Machine :=
  { m with
    registers := Vector.ofFn fun r : Register =>
      if r ≤ x then m.memory.read (m.index + UInt16.ofNat r.val) else m.reg r
    index := m.indexAfterTransfer d x }

/-- The decimal digits of a byte, the hundreds first. -/
def decimalDigits (value : UInt8) : List UInt8 := [value / 100, value / 10 % 10, value % 10]

/-- Draw the sprite at the index register and set the flag if a lit pixel was turned
off. -/
def drawSprite (m : Machine) (d : Dialect) (x y : Register) (height : Fin 16) : Machine :=
  let rows := m.memory.readRun m.index height.val
  let drawn := m.display.draw d.wrapSprites (m.reg x) (m.reg y) rows
  { m with display := drawn.1 }.setReg .flag (if drawn.2 then 1 else 0)

end Machine

/-! ## Instructions -/

variable {σ : Type}

/-- The outcome of an instruction that only changes the machine. -/
def proceed (m : Machine) (s : σ) : Outcome σ := { machine := m, source := s }

/-- Execute an instruction. -/
def execute [ByteSource σ] (d : Dialect) (i : Instruction) (m : Machine) (s : σ) :
    Outcome σ :=
  match i with
  | .clear => proceed { m with display := m.display.clear } s
  | .ret =>
      let display := m.display.requestRedraw
      match m.stack.pop? with
      | some (address, stack) => proceed { m with pc := address, stack, display } s
      | none =>
          { machine := { m with display }, source := s,
            notices := [.returnIgnored (m.pc - 2)] }
  | .jump a => proceed { m with pc := a } s
  | .call a =>
      { machine := { m with stack := m.stack.push m.pc, pc := a }, source := s,
        notices := if m.stack.isFull then [.returnReplaced a] else [] }
  | .skipIfValue x v => proceed (m.skipIf (m.reg x == v)) s
  | .skipUnlessValue x v => proceed (m.skipIf (m.reg x != v)) s
  | .skipIfSame x y => proceed (m.skipIf (m.reg x == m.reg y)) s
  | .skipUnlessSame x y => proceed (m.skipIf (m.reg x != m.reg y)) s
  | .set x v => proceed (m.setReg x v) s
  | .increase x v => proceed (m.setReg x (m.reg x + v)) s
  | .combine f x y => proceed (m.combine d f x y) s
  | .setIndex a => proceed { m with index := a } s
  | .jumpPlus x base =>
      let offset := if d.jumpAddsVx then m.reg x else m.reg .first
      proceed { m with pc := base + offset.toUInt16 } s
  | .random x mask =>
      let drawn := ByteSource.next s
      proceed (m.setReg x (drawn.1 &&& mask)) drawn.2
  | .draw x y height => proceed (m.drawSprite d x y height) s
  | .skipIfKey x => proceed (m.skipIf m.keys[Keys.ofByte (m.reg x)]) s
  | .skipUnlessKey x => proceed (m.skipIf !m.keys[Keys.ofByte (m.reg x)]) s
  | .readDelay x => proceed (m.setReg x m.timers.delay) s
  | .awaitKey x =>
      match m.keys.lowest? with
      | some key => proceed (m.setReg x (UInt8.ofNat key.val)) s
      | none => { machine := { m with pc := m.pc - 2 }, source := s, signal := .awaitKey }
  | .setDelay x => proceed { m with timers := { m.timers with delay := m.reg x } } s
  | .setSound x => proceed { m with timers := { m.timers with sound := m.reg x } } s
  | .increaseIndex x => proceed { m with index := m.index + (m.reg x).toUInt16 } s
  | .glyph x => proceed { m with index := Font.glyphAddress (m.reg x) } s
  | .decimal x =>
      proceed { m with
        memory := m.memory.writeRun m.index (Machine.decimalDigits (m.reg x)) } s
  | .store x => proceed (m.store d x) s
  | .load x => proceed (m.fetch d x) s

/-- Execute a word.  A word that is no instruction is reported and has no effect,
except that some dialects stop on the word `0000`. -/
def executeWord [ByteSource σ] (d : Dialect) (word : UInt16) (m : Machine) (s : σ) :
    Outcome σ :=
  if word = 0 ∧ d.haltOnZero then { machine := m, source := s, signal := .halt }
  else
    match Instruction.decode word with
    | some i => execute d i m s
    | none => { machine := m, source := s, notices := [.unknownWord word (m.pc - 2)] }

/-- Fetch the word at the program counter, move the program counter past it, and
execute it. -/
def step [ByteSource σ] (d : Dialect) (m : Machine) (s : σ) : Outcome σ :=
  let word := m.memory.readWord m.pc
  let outcome := executeWord d word { m with pc := m.pc + 2 } s
  { outcome with notices := .executing m.pc word :: outcome.notices }

/-! ## Runs -/

/-- What several steps led to: the machine and the source of random bytes afterwards, and
what there is to report, in order. -/
structure Run (σ : Type) where
  machine : Machine
  source : σ
  /-- The signal of the last step. -/
  signal : Signal := .proceed
  /-- How many steps were taken. -/
  steps : Nat := 0
  notices : Array Notice := #[]

/-- A run continued by up to `n` steps.  It ends early with the first step that does
not ask to go on, and a run that has ended so is not continued. -/
def Run.extend [ByteSource σ] (d : Dialect) : Nat → Run σ → Run σ
  | 0, r => r
  | n + 1, ⟨m, s, .proceed, k, notices⟩ =>
      let outcome := step d m s
      Run.extend d n ⟨outcome.machine, outcome.source, outcome.signal, k + 1,
        notices ++ outcome.notices⟩
  | _ + 1, r => r

/-- Up to `n` steps. -/
def run [ByteSource σ] (d : Dialect) (n : Nat) (m : Machine) (s : σ) : Run σ :=
  Run.extend d n { machine := m, source := s }

end Chip8
