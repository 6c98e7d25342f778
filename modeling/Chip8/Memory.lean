import Chip8.Word
import Chip8.Refusal

/-!
# Memory

Programs see 4096 bytes.  The map is

    0x000 -- 0x04F   unused, zero
    0x050 -- 0x09F   the glyphs of the sixteen hexadecimal digits
    0x0A0 -- 0x1FF   unused, zero
    0x200 -- 0xFFF   the program, at most 3584 bytes

and nothing else is addressable: registers, stack and screen live elsewhere.

There are two ways in, and they treat the end of memory differently.

* **Single cells wrap.**  `read` and `write` take a 16-bit address and use its
  remainder modulo 4096 (`cell`), so every address is valid and neither can fail.
* **Blocks do not.**  `loadBytes` takes an unbounded address and refuses a block
  that would cross the end, leaving memory as it was.

The remainder is taken here and only here.  The program counter, the index
register and return addresses are kept at their full sixteen bits.
-/

namespace Chip8

/-- Where programs start. -/
def programStart : UInt16 := 0x200

/-- The memory of a machine. -/
structure Memory where
  /-- The cells, in the order of their addresses. -/
  cells : Vector UInt8 4096
  deriving DecidableEq

namespace Memory

/-- Memory in which every cell is zero. -/
def blank : Memory := ⟨Vector.replicate 4096 0⟩

/-- The cell that an address stands for. -/
def cell (address : UInt16) : Fin 4096 :=
  ⟨address.toNat % 4096, Nat.mod_lt _ (by decide)⟩

/-! ## Single cells -/

/-- The byte at an address. -/
def read (m : Memory) (address : UInt16) : UInt8 := m.cells[cell address]

/-- Memory with one byte replaced. -/
def write (m : Memory) (address : UInt16) (value : UInt8) : Memory :=
  ⟨m.cells.set (cell address) value⟩

/-- The big-endian word at an address.  The second byte of a word at the last cell
is in the first cell. -/
def readWord (m : Memory) (address : UInt16) : UInt16 :=
  Word.ofBytes (m.read address) (m.read (address + 1))

/-- A write is read back at every address of the same cell, and seen at no other. -/
theorem read_write (m : Memory) (a b : UInt16) (v : UInt8) :
    (m.write a v).read b = if cell a = cell b then v else m.read b := by
  simp only [read, write, Fin.getElem_fin, Vector.getElem_set, Fin.ext_iff]

/-- Addresses that agree modulo 4096 stand for the same cell. -/
theorem cell_eq_iff (a b : UInt16) : cell a = cell b ↔ a.toNat % 4096 = b.toNat % 4096 := by
  simp [cell]

/-! ## Runs of cells -/

/-- The bytes of `count` successive addresses. -/
def readRun (m : Memory) (start : UInt16) (count : Nat) : List UInt8 :=
  (List.range count).map fun k => m.read (start + UInt16.ofNat k)

/-- Memory with successive addresses replaced, the first of them first. -/
def writeRun (m : Memory) (start : UInt16) : List UInt8 → Memory
  | [] => m
  | v :: vs => (m.write start v).writeRun (start + 1) vs

@[simp] theorem length_readRun (m : Memory) (start : UInt16) (count : Nat) :
    (m.readRun start count).length = count := by
  simp [readRun]

/-! ## Blocks -/

/-- Memory with the block at `address` replaced.  What would lie beyond the end is
dropped, so this is for blocks known to fit. -/
def overwrite (m : Memory) (address : Nat) (block : List UInt8) : Memory :=
  let source := block.toArray
  ⟨Vector.ofFn fun i : Fin 4096 =>
    if address ≤ i.val then (source[i.val - address]?).getD m.cells[i] else m.cells[i]⟩

/-- Copy a block into memory, all or nothing. -/
def loadBytes (m : Memory) (address : Nat) (block : List UInt8) : Except Refusal Memory :=
  if address + block.length ≤ 4096 then .ok (m.overwrite address block)
  else .error .memoryOverflow

/-- Copy a program to where programs start. -/
def loadProgram (m : Memory) (program : List UInt8) : Except Refusal Memory :=
  if program.isEmpty then .error .emptyRom
  else if program.length > 3584 then .error (.romTooLarge program.length)
  else m.loadBytes programStart.toNat program

/-- What a block copy leaves in a cell: the byte of the block that belongs there,
or what was there before. -/
theorem getElem_overwrite (m : Memory) (address : Nat) (block : List UInt8)
    (i : Nat) (hi : i < 4096) :
    (m.overwrite address block).cells[i] =
      if address ≤ i then (block[i - address]?).getD m.cells[i] else m.cells[i] := by
  simp [overwrite]

/-- A program that fits is copied whole: the size check leaves the block copy no
reason to refuse. -/
theorem loadProgram_eq_ok (m : Memory) {program : List UInt8} (hne : program ≠ [])
    (hle : program.length ≤ 3584) :
    m.loadProgram program = .ok (m.overwrite programStart.toNat program) := by
  have hstart : programStart.toNat = 512 := by decide
  simp only [loadProgram, loadBytes, List.isEmpty_iff, hne, if_false]
  rw [if_neg (by omega), if_pos (by omega)]

/-- Memory written out briefly: the first eight bytes of the program. -/
def describe (m : Memory) : String :=
  "Ram \x7b program: " ++ Text.bracketed ((m.readRun programStart 8).map Text.byte) ++ ".. \x7d"

end Memory
end Chip8
