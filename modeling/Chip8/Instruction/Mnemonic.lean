import Chip8.Instruction
import Chip8.Text

/-!
# Mnemonics

The assembler spelling of an instruction: a mnemonic, then its operands.
Addresses and byte values are written in C style, `0x` and then a fixed number of
digits --- three for an address, two for a byte, one for a sprite height --- so the
operands can be read off a mnemonic without knowing the word.

A word that names no instruction is spelled `???`, and no instruction is
(`mnemonic_ne_unknown`), so the spelling tells the two cases apart.
-/

namespace Chip8

/-- The mnemonic of a register operation. -/
def Operation.mnemonic : Operation → String
  | .copy => "LD"
  | .or => "OR"
  | .and => "AND"
  | .xor => "XOR"
  | .add => "ADD"
  | .subtract => "SUB"
  | .shiftRight => "SHR"
  | .subtractFrom => "SUBN"
  | .shiftLeft => "SHL"

namespace Instruction

/-- A register operand. -/
def register (x : Register) : String := "V" ++ Text.nibble x

/-- An address operand: three digits, which is what a word has room for. -/
def target (a : UInt16) : String := "0x" ++ Text.address a

/-- A byte operand. -/
def value (b : UInt8) : String := "0x" ++ Text.byte b

/-- The spelling of an instruction. -/
def mnemonic : Instruction → String
  | clear => "CLS"
  | ret => "RET"
  | jump a => "JP " ++ target a
  | call a => "CALL " ++ target a
  | skipIfValue x b => "SE " ++ register x ++ ", " ++ value b
  | skipUnlessValue x b => "SNE " ++ register x ++ ", " ++ value b
  | skipIfSame x y => "SE " ++ register x ++ ", " ++ register y
  | set x b => "LD " ++ register x ++ ", " ++ value b
  | increase x b => "ADD " ++ register x ++ ", " ++ value b
  | combine f x y => f.mnemonic ++ " " ++ register x ++ ", " ++ register y
  | skipUnlessSame x y => "SNE " ++ register x ++ ", " ++ register y
  | setIndex a => "LD I, " ++ target a
  | jumpPlus _ a => "JP V0, " ++ target a
  | random x b => "RND " ++ register x ++ ", " ++ value b
  | draw x y n => "DRW " ++ register x ++ ", " ++ register y ++ ", 0x" ++ Text.nibble n
  | skipIfKey x => "SKP " ++ register x
  | skipUnlessKey x => "SKNP " ++ register x
  | readDelay x => "LD " ++ register x ++ ", DT"
  | awaitKey x => "LD " ++ register x ++ ", K"
  | setDelay x => "LD DT, " ++ register x
  | setSound x => "LD ST, " ++ register x
  | increaseIndex x => "ADD I, " ++ register x
  | glyph x => "LD F, " ++ register x
  | decimal x => "LD B, " ++ register x
  | store x => "LD [I], " ++ register x
  | load x => "LD " ++ register x ++ ", [I]"

/-- The spelling of a word that names no instruction. -/
def unknown : String := "???"

/-- The spelling of any word. -/
def spell (w : UInt16) : String :=
  match decode w with
  | some i => i.mnemonic
  | none => unknown

/-- No instruction is spelled like a word that names none: every mnemonic starts
with a letter. -/
theorem mnemonic_ne_unknown (i : Instruction) : i.mnemonic ≠ unknown := by
  intro h
  have h' := congrArg (fun s => s.toList.head?) h
  cases i with
  | combine f _ _ =>
      cases f <;> simp [mnemonic, unknown, Operation.mnemonic] at h'
  | _ => simp [mnemonic, unknown] at h'

/-- A word is spelled `???` exactly when it names no instruction. -/
theorem spell_eq_unknown_iff (w : UInt16) : spell w = unknown ↔ decode w = none := by
  unfold spell
  cases h : decode w with
  | none => simp
  | some i => simp [mnemonic_ne_unknown i]

end Instruction
end Chip8
