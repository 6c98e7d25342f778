import Chip8.Execution

/-!
# The words that name an instruction

`Instruction.decode` reads a word from the left, family by family.  Statements about the
instruction set go the other way: they speak of `FX33` or of `8XY4`, which are patterns for
words, and ask what all the words of a pattern have in common.

`NamedBy` writes down the pattern of every instruction, and `decode_eq_some_iff` says that
decoding is reading off the pattern.  With it a statement about words becomes one about
instructions, where it is proved by cases on the constructor, and no proof has to look at the
order in which `decode` tries things.
-/

namespace Chip8

namespace Word

/-- The word is an `8XYn` with the given last digit. -/
def Is8 (w : UInt16) (last : Nat) : Prop := family w = 0x8 ∧ (n w).val = last

/-- The word is an `EXnn` with the given last two digits. -/
def IsE (w : UInt16) (low : UInt8) : Prop := family w = 0xE ∧ nn w = low

/-- The word is an `FXnn` with the given last two digits. -/
def IsF (w : UInt16) (low : UInt8) : Prop := family w = 0xF ∧ nn w = low

instance (w : UInt16) (last : Nat) : Decidable (Is8 w last) :=
  inferInstanceAs (Decidable (_ ∧ _))

instance (w : UInt16) (low : UInt8) : Decidable (IsE w low) :=
  inferInstanceAs (Decidable (_ ∧ _))

instance (w : UInt16) (low : UInt8) : Decidable (IsF w low) :=
  inferInstanceAs (Decidable (_ ∧ _))

end Word

namespace Operation

/-- The last digit of the words of an operation. -/
def digit : Operation → Nat
  | copy => 0x0
  | or => 0x1
  | and => 0x2
  | xor => 0x3
  | add => 0x4
  | subtract => 0x5
  | shiftRight => 0x6
  | subtractFrom => 0x7
  | shiftLeft => 0xE

theorem ofDigit?_eq_some_iff (n : Nat) (f : Operation) : ofDigit? n = some f ↔ n = f.digit := by
  fun_cases ofDigit? n with
  | case10 => cases f <;> simp_all [digit]
  | _ => cases f <;> simp [digit]

end Operation

namespace Instruction

open Word (family x y n nn nnn Is8 IsE IsF)

/-- The words of an instruction, and where its operands stand in them. -/
def NamedBy : Instruction → UInt16 → Prop
  | clear, w => w = 0x00E0
  | ret, w => w = 0x00EE
  | jump a, w => family w = 0x1 ∧ nnn w = a
  | call a, w => family w = 0x2 ∧ nnn w = a
  | skipIfValue r v, w => family w = 0x3 ∧ x w = r ∧ nn w = v
  | skipUnlessValue r v, w => family w = 0x4 ∧ x w = r ∧ nn w = v
  | skipIfSame r s, w => family w = 0x5 ∧ (n w).val = 0x0 ∧ x w = r ∧ y w = s
  | set r v, w => family w = 0x6 ∧ x w = r ∧ nn w = v
  | increase r v, w => family w = 0x7 ∧ x w = r ∧ nn w = v
  | combine f r s, w => Is8 w f.digit ∧ x w = r ∧ y w = s
  | skipUnlessSame r s, w => family w = 0x9 ∧ (n w).val = 0x0 ∧ x w = r ∧ y w = s
  | setIndex a, w => family w = 0xA ∧ nnn w = a
  | jumpPlus r a, w => family w = 0xB ∧ x w = r ∧ nnn w = a
  | random r v, w => family w = 0xC ∧ x w = r ∧ nn w = v
  | draw r s height, w => family w = 0xD ∧ x w = r ∧ y w = s ∧ n w = height
  | skipIfKey r, w => IsE w 0x9E ∧ x w = r
  | skipUnlessKey r, w => IsE w 0xA1 ∧ x w = r
  | readDelay r, w => IsF w 0x07 ∧ x w = r
  | awaitKey r, w => IsF w 0x0A ∧ x w = r
  | setDelay r, w => IsF w 0x15 ∧ x w = r
  | setSound r, w => IsF w 0x18 ∧ x w = r
  | increaseIndex r, w => IsF w 0x1E ∧ x w = r
  | glyph r, w => IsF w 0x29 ∧ x w = r
  | decimal r, w => IsF w 0x33 ∧ x w = r
  | store r, w => IsF w 0x55 ∧ x w = r
  | load r, w => IsF w 0x65 ∧ x w = r

/-- The last two digits of an `FXnn` tell the instruction. -/
theorem namedBy_of_ofMiscellaneous? {w : UInt16} {i : Instruction} (hw : family w = 0xF)
    (h : ofMiscellaneous? (x w) (nn w).toNat = some i) : i.NamedBy w := by
  have hlow : ∀ low : UInt8, (nn w).toNat = low.toNat → IsF w low := fun low hlow =>
    ⟨hw, UInt8.toNat_inj.mp hlow⟩
  generalize hn : (nn w).toNat = k at h
  rw [hn] at hlow
  fun_cases ofMiscellaneous? (x w) k with
  | case10 => simp [ofMiscellaneous?] at h
  | _ =>
      obtain rfl := Option.some.inj h
      exact ⟨hlow _ rfl, rfl⟩

theorem namedBy_of_decode {w : UInt16} {i : Instruction} (h : decode w = some i) :
    i.NamedBy w := by
  revert h
  fun_cases decode w with
  | case12 hw =>
      intro h
      obtain ⟨f, hf, rfl⟩ := Option.map_eq_some_iff.mp h
      exact ⟨⟨hw, (Operation.ofDigit?_eq_some_iff _ f).mp hf⟩, rfl, rfl⟩
  | case22 =>
      -- the only family that is left
      have hlt := Word.family_lt w
      have hfamily : family w = 0xF := by grind
      exact namedBy_of_ofMiscellaneous? hfamily
  | case3 | case9 | case14 | case21 => rintro ⟨⟩
  | _ =>
      rintro ⟨⟩
      simp_all [NamedBy, IsE]

/-- **Decoding reads off the pattern.** -/
theorem decode_eq_some_iff (w : UInt16) (i : Instruction) :
    decode w = some i ↔ i.NamedBy w := by
  refine ⟨namedBy_of_decode, fun h => ?_⟩
  cases i with
  | clear | ret => rw [h]; decide
  | combine f r s =>
      obtain ⟨⟨hfamily, hn⟩, rfl, rfl⟩ := h
      simp [decode, hfamily, hn, (Operation.ofDigit?_eq_some_iff _ f).mpr rfl]
  | _ => simp_all [NamedBy, decode, IsE, IsF, ofMiscellaneous?]

end Instruction

/-- A word of an instruction is executed as that instruction. -/
theorem executeWord_of_namedBy {σ : Type} [ByteSource σ] {w : UInt16} {i : Instruction}
    (h : i.NamedBy w) (d : Dialect) (m : Machine) (s : σ) :
    executeWord d w m s = execute d i m s := by
  have hdecode := (Instruction.decode_eq_some_iff w i).mpr h
  have hzero : ¬(w = 0 ∧ d.haltOnZero = true) := by
    rintro ⟨rfl, -⟩
    exact absurd (Instruction.decode_zero.symm.trans hdecode) (Option.some_ne_none i).symm
  rw [executeWord, if_neg hzero, hdecode]

/-- A word that is no instruction leaves the machine and the source alone, and does not wait. -/
theorem executeWord_cases {σ : Type} [ByteSource σ] (d : Dialect) (w : UInt16) (m : Machine)
    (s : σ) :
    ((executeWord d w m s).machine = m ∧ (executeWord d w m s).source = s ∧
        (executeWord d w m s).signal ≠ .awaitKey ∧ Instruction.decode w = none) ∨
      ∃ i : Instruction, i.NamedBy w ∧ executeWord d w m s = execute d i m s := by
  unfold executeWord
  split
  · rename_i hzero
    exact Or.inl ⟨rfl, rfl, nofun, hzero.1 ▸ Instruction.decode_zero⟩
  · cases hdecode : Instruction.decode w with
    | some i => exact Or.inr ⟨i, (Instruction.decode_eq_some_iff w i).mp hdecode, rfl⟩
    | none => exact Or.inl ⟨rfl, rfl, nofun, rfl⟩

end Chip8
