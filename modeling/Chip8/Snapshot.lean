import Chip8.Dialect
import Chip8.Display.Packed
import Chip8.Machine
import Chip8.Notice

/-!
# Snapshots

A machine together with its dialect, written as a sequence of 4413 bytes:

    offset   size   field
         0      4   the signature "C8VM"
         4      1   the version, 1
         5      1   the dialect
         6   4096   memory
      4102     16   the registers
      4118      2   the index register
      4120      2   the program counter
      4122     32   the sixteen slots of the call stack
      4154      1   the depth of the call stack
      4155      1   the delay timer
      4156      1   the sound timer
      4157    256   the packed screen

Words are big-endian.  Every field has a fixed size, so writing is one
concatenation and reading takes each field at its own offset; neither keeps a
position.

Two parts of a machine are not recorded, because they belong to whoever runs it:
the state of the keys, and the redraw flag.  A machine read back has no key down and
asks to be painted.

Reading checks, in this order, the length, the signature, the version, the dialect
and the depth of the stack.  No other byte can be wrong.
-/

namespace Chip8

/-- A sequence of bytes that has the length of a snapshot. -/
abbrev Image := Vector UInt8 4413

/-- A machine, and the dialect it was running under. -/
structure Snapshot where
  machine : Machine
  dialect : Dialect
  deriving DecidableEq

namespace Snapshot

/-- What every snapshot begins with: the letters `C8VM`. -/
def signature : Vector UInt8 4 := #v[0x43, 0x38, 0x56, 0x4D]

/-- The version that is written and read. -/
def version : UInt8 := 1

/-! ## Writing -/

/-- The bytes of the slots of a call stack. -/
def slotBytes (slots : Vector UInt16 16) : Vector UInt8 32 :=
  Vector.ofFn fun i : Fin 32 =>
    have : i.val / 2 < 16 := Nat.div_lt_of_lt_mul i.isLt
    let slot := slots[i.val / 2]
    if i.val % 2 = 0 then Word.high slot else Word.low slot

/-- The bytes of a word. -/
def wordBytes (w : UInt16) : List UInt8 := [Word.high w, Word.low w]

/-- The fields of a snapshot, in order. -/
def fields (s : Snapshot) : List (List UInt8) :=
  [signature.toList,
    [version, s.dialect.toBits],
    s.machine.memory.cells.toList,
    s.machine.registers.toList,
    wordBytes s.machine.index,
    wordBytes s.machine.pc,
    (slotBytes s.machine.stack.slots).toList,
    [UInt8.ofNat s.machine.stack.depth, s.machine.timers.delay, s.machine.timers.sound],
    s.machine.display.pack.toList]

/-- A snapshot as bytes. -/
def encode (s : Snapshot) : List UInt8 := s.fields.flatten

@[simp] theorem length_encode (s : Snapshot) : s.encode.length = 4413 := by
  simp [encode, fields, wordBytes]

/-! ## Reading -/

/-- `count` bytes of an image, from an offset. -/
def field (b : Image) (offset count : Nat) (h : offset + count ≤ 4413) :
    Vector UInt8 count :=
  Vector.ofFn fun i => b[offset + i.val]

/-- The word at an offset of an image. -/
def wordAt (b : Image) (offset : Nat) (h : offset + 1 < 4413) : UInt16 :=
  Word.ofBytes b[offset] b[offset + 1]

/-- The slots of the call stack in an image. -/
def slotsOf (b : Image) : Vector UInt16 16 :=
  Vector.ofFn fun k : Fin 16 =>
    wordAt b (4122 + 2 * k.val) (by
      have := k.isLt
      omega)

/-- The machine in an image, given its call stack. -/
def machineOf (b : Image) (stack : CallStack) : Machine where
  memory := ⟨field b 6 4096 (by decide)⟩
  registers := field b 4102 16 (by decide)
  index := wordAt b 4118 (by decide)
  pc := wordAt b 4120 (by decide)
  stack := stack
  display := (Display.unpack (field b 4157 256 (by decide))).requestRedraw
  timers := ⟨b[4155], b[4156]⟩
  keys := .released

/-- The snapshot of an image, if the image is in order. -/
def ofImage (b : Image) : Except Refusal Snapshot :=
  if field b 0 4 (by decide) ≠ signature then .error .snapshotSignature
  else if b[4] ≠ version then .error (.snapshotVersion b[4])
  else
    match Dialect.ofBits? b[5] with
    | none => .error (.snapshotDialect b[5])
    | some dialect =>
        match CallStack.ofSlots? (slotsOf b) b[4154].toNat with
        | none => .error (.snapshotStackDepth b[4154])
        | some stack => .ok ⟨machineOf b stack, dialect⟩

/-- The image of a list of bytes of the right length. -/
def imageOf (bytes : List UInt8) (h : bytes.length = 4413) : Image :=
  ⟨bytes.toArray, by simpa using h⟩

/-- The snapshot of a list of bytes, if they are in order. -/
def decode (bytes : List UInt8) : Except Refusal Snapshot :=
  if h : bytes.length = 4413 then ofImage (imageOf bytes h)
  else .error (.snapshotLength bytes.length)

/-- A list of any other length is refused for its length. -/
theorem decode_of_length_ne {bytes : List UInt8} (h : bytes.length ≠ 4413) :
    decode bytes = .error (.snapshotLength bytes.length) := by
  simp [decode, h]

/-- What there is to report about a snapshot that was read. -/
def notice (s : Snapshot) : Notice := .snapshotDecoded s.machine.pc s.dialect

end Snapshot
end Chip8
