import Chip8.Instruction.Mnemonic
import Chip8.Proofs.Guarded.Execution
import Chip8.Proofs.Instruction.Naming

/-!
# Mnemonics, digit by digit

A word is spelled by decoding it and spelling the instruction, so a listing and an execution ask
the same question about a word and cannot differ on the answer.  A reader may ask, as for the
accesses that can go wrong, whether this only hides what there is to prove.  `spell` is the table
that a listing would have on its own: four digits, one row for each pattern of digits, and the first
row that fits.

`spell_eq` says that this table and the decoder come to the same, for every word.  It goes row by
row: the digits of a row say which instruction the word names, and a word that fits no row names
none.
-/

namespace Chip8
namespace Guarded

/-- A register operand, given by a digit. -/
def register (x : Nat) : String := "V" ++ String.ofList [Text.digit x]

/-- The spelling of a word, given by its fields. -/
def spell (f : Fields) : String :=
  match f.family, f.x, f.y, f.n with
  | 0x0, 0x0, 0xE, 0x0 => "CLS"
  | 0x0, 0x0, 0xE, 0xE => "RET"
  | 0x1, _, _, _ => "JP " ++ Instruction.target f.nnn
  | 0x2, _, _, _ => "CALL " ++ Instruction.target f.nnn
  | 0x3, x, _, _ => "SE " ++ register x ++ ", " ++ Instruction.value f.nn
  | 0x4, x, _, _ => "SNE " ++ register x ++ ", " ++ Instruction.value f.nn
  | 0x5, x, y, 0x0 => "SE " ++ register x ++ ", " ++ register y
  | 0x6, x, _, _ => "LD " ++ register x ++ ", " ++ Instruction.value f.nn
  | 0x7, x, _, _ => "ADD " ++ register x ++ ", " ++ Instruction.value f.nn
  | 0x8, x, y, 0x0 => "LD " ++ register x ++ ", " ++ register y
  | 0x8, x, y, 0x1 => "OR " ++ register x ++ ", " ++ register y
  | 0x8, x, y, 0x2 => "AND " ++ register x ++ ", " ++ register y
  | 0x8, x, y, 0x3 => "XOR " ++ register x ++ ", " ++ register y
  | 0x8, x, y, 0x4 => "ADD " ++ register x ++ ", " ++ register y
  | 0x8, x, y, 0x5 => "SUB " ++ register x ++ ", " ++ register y
  | 0x8, x, y, 0x6 => "SHR " ++ register x ++ ", " ++ register y
  | 0x8, x, y, 0x7 => "SUBN " ++ register x ++ ", " ++ register y
  | 0x8, x, y, 0xE => "SHL " ++ register x ++ ", " ++ register y
  | 0x9, x, y, 0x0 => "SNE " ++ register x ++ ", " ++ register y
  | 0xA, _, _, _ => "LD I, " ++ Instruction.target f.nnn
  | 0xB, _, _, _ => "JP V0, " ++ Instruction.target f.nnn
  | 0xC, x, _, _ => "RND " ++ register x ++ ", " ++ Instruction.value f.nn
  | 0xD, x, y, n => "DRW " ++ register x ++ ", " ++ register y ++ ", 0x" ++
      String.ofList [Text.digit n]
  | 0xE, x, 0x9, 0xE => "SKP " ++ register x
  | 0xE, x, 0xA, 0x1 => "SKNP " ++ register x
  | 0xF, x, 0x0, 0x7 => "LD " ++ register x ++ ", DT"
  | 0xF, x, 0x0, 0xA => "LD " ++ register x ++ ", K"
  | 0xF, x, 0x1, 0x5 => "LD DT, " ++ register x
  | 0xF, x, 0x1, 0x8 => "LD ST, " ++ register x
  | 0xF, x, 0x1, 0xE => "ADD I, " ++ register x
  | 0xF, x, 0x2, 0x9 => "LD F, " ++ register x
  | 0xF, x, 0x3, 0x3 => "LD B, " ++ register x
  | 0xF, x, 0x5, 0x5 => "LD [I], " ++ register x
  | 0xF, x, 0x6, 0x5 => "LD " ++ register x ++ ", [I]"
  | _, _, _, _ => "???"

/-- The last two digits of a word as a byte. -/
theorem nn_eq_ofNat (w : UInt16) :
    Word.nn w = UInt8.ofNat ((Word.y w).val * 16 + (Word.n w).val) := by
  rw [← UInt8.toNat_inj, Word.nn, Word.toNat_low, UInt8.toNat_ofNat']
  simp only [Word.y, Word.n]
  omega

theorem spell_of_namedBy {w : UInt16} {i : Instruction} (h : i.NamedBy w) :
    i.mnemonic = Instruction.spell w := by
  rw [Instruction.spell, (Instruction.decode_eq_some_iff w i).mpr h]

/-- A word is told from its digits. -/
theorem eq_of_digits {w : UInt16} {family x y n : Nat} (hfamily : Word.family w = family)
    (hx : (Word.x w).val = x) (hy : (Word.y w).val = y) (hn : (Word.n w).val = n) :
    w = UInt16.ofNat (family * 4096 + x * 256 + y * 16 + n) := by
  rw [← hfamily, ← hx, ← hy, ← hn, ← Word.toNat_eq_digits, UInt16.ofNat_toNat]

/-- **The table and the decoder spell every word in the same way.** -/
theorem spell_eq (w : UInt16) : spell (Fields.ofWord w) = Instruction.spell w := by
  have hnn : ∀ {y n : Nat}, (Word.y w).val = y → (Word.n w).val = n →
      Word.nn w = UInt8.ofNat (y * 16 + n) := by
    rintro y n rfl rfl
    exact nn_eq_ofNat w
  rw [ofWord_eq, spell]
  dsimp only
  split
  case h_1 hf hx hy hn => exact spell_of_namedBy (i := .clear) (eq_of_digits hf hx hy hn)
  case h_2 hf hx hy hn => exact spell_of_namedBy (i := .ret) (eq_of_digits hf hx hy hn)
  case h_3 hf => exact spell_of_namedBy (i := .jump _) ⟨hf, rfl⟩
  case h_4 hf => exact spell_of_namedBy (i := .call _) ⟨hf, rfl⟩
  case h_5 hf => exact spell_of_namedBy (i := .skipIfValue _ _) ⟨hf, rfl, rfl⟩
  case h_6 hf => exact spell_of_namedBy (i := .skipUnlessValue _ _) ⟨hf, rfl, rfl⟩
  case h_7 hf hn => exact spell_of_namedBy (i := .skipIfSame _ _) ⟨hf, hn, rfl, rfl⟩
  case h_8 hf => exact spell_of_namedBy (i := .set _ _) ⟨hf, rfl, rfl⟩
  case h_9 hf => exact spell_of_namedBy (i := .increase _ _) ⟨hf, rfl, rfl⟩
  case h_10 hf hn => exact spell_of_namedBy (i := .combine .copy _ _) ⟨⟨hf, hn⟩, rfl, rfl⟩
  case h_11 hf hn => exact spell_of_namedBy (i := .combine .or _ _) ⟨⟨hf, hn⟩, rfl, rfl⟩
  case h_12 hf hn => exact spell_of_namedBy (i := .combine .and _ _) ⟨⟨hf, hn⟩, rfl, rfl⟩
  case h_13 hf hn => exact spell_of_namedBy (i := .combine .xor _ _) ⟨⟨hf, hn⟩, rfl, rfl⟩
  case h_14 hf hn => exact spell_of_namedBy (i := .combine .add _ _) ⟨⟨hf, hn⟩, rfl, rfl⟩
  case h_15 hf hn => exact spell_of_namedBy (i := .combine .subtract _ _) ⟨⟨hf, hn⟩, rfl, rfl⟩
  case h_16 hf hn => exact spell_of_namedBy (i := .combine .shiftRight _ _) ⟨⟨hf, hn⟩, rfl, rfl⟩
  case h_17 hf hn =>
    exact spell_of_namedBy (i := .combine .subtractFrom _ _) ⟨⟨hf, hn⟩, rfl, rfl⟩
  case h_18 hf hn => exact spell_of_namedBy (i := .combine .shiftLeft _ _) ⟨⟨hf, hn⟩, rfl, rfl⟩
  case h_19 hf hn => exact spell_of_namedBy (i := .skipUnlessSame _ _) ⟨hf, hn, rfl, rfl⟩
  case h_20 hf => exact spell_of_namedBy (i := .setIndex _) ⟨hf, rfl⟩
  case h_21 hf => exact spell_of_namedBy (i := .jumpPlus _ _) ⟨hf, rfl, rfl⟩
  case h_22 hf => exact spell_of_namedBy (i := .random _ _) ⟨hf, rfl, rfl⟩
  case h_23 hf => exact spell_of_namedBy (i := .draw _ _ _) ⟨hf, rfl, rfl, rfl⟩
  case h_24 hf hy hn => exact spell_of_namedBy (i := .skipIfKey _) ⟨⟨hf, hnn hy hn⟩, rfl⟩
  case h_25 hf hy hn => exact spell_of_namedBy (i := .skipUnlessKey _) ⟨⟨hf, hnn hy hn⟩, rfl⟩
  case h_26 hf hy hn => exact spell_of_namedBy (i := .readDelay _) ⟨⟨hf, hnn hy hn⟩, rfl⟩
  case h_27 hf hy hn => exact spell_of_namedBy (i := .awaitKey _) ⟨⟨hf, hnn hy hn⟩, rfl⟩
  case h_28 hf hy hn => exact spell_of_namedBy (i := .setDelay _) ⟨⟨hf, hnn hy hn⟩, rfl⟩
  case h_29 hf hy hn => exact spell_of_namedBy (i := .setSound _) ⟨⟨hf, hnn hy hn⟩, rfl⟩
  case h_30 hf hy hn => exact spell_of_namedBy (i := .increaseIndex _) ⟨⟨hf, hnn hy hn⟩, rfl⟩
  case h_31 hf hy hn => exact spell_of_namedBy (i := .glyph _) ⟨⟨hf, hnn hy hn⟩, rfl⟩
  case h_32 hf hy hn => exact spell_of_namedBy (i := .decimal _) ⟨⟨hf, hnn hy hn⟩, rfl⟩
  case h_33 hf hy hn => exact spell_of_namedBy (i := .store _) ⟨⟨hf, hnn hy hn⟩, rfl⟩
  case h_34 hf hy hn => exact spell_of_namedBy (i := .load _) ⟨⟨hf, hnn hy hn⟩, rfl⟩
  case h_35 =>
    refine ((Instruction.spell_eq_unknown_iff w).mpr ?_).symm
    cases hdecode : Instruction.decode w with
    | none => rfl
    | some i =>
        have hi := Instruction.namedBy_of_decode hdecode
        exfalso
        have hy : (Word.y w).val = (Word.nn w).toNat / 16 := by
          simp only [Word.nn, Word.toNat_low, Word.y]
          omega
        have hn : (Word.n w).val = (Word.nn w).toNat % 16 := by
          simp only [Word.nn, Word.toNat_low, Word.n]
          omega
        cases i with
        | clear => subst hi; contradiction
        | ret => subst hi; contradiction
        | combine f r s =>
            obtain ⟨⟨hf, hn⟩, -⟩ := hi
            cases f <;> grind [Operation.digit]
        | skipIfKey | skipUnlessKey | readDelay | awaitKey | setDelay | setSound | increaseIndex
        | glyph | decimal | store | load =>
            obtain ⟨⟨hf, hlow⟩, -⟩ := hi
            rw [hlow] at hy hn
            grind
        | _ =>
            obtain ⟨hf, hn, -⟩ := hi
            grind

end Guarded
end Chip8
