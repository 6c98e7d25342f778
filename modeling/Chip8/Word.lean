/-!
# Words and their fields

Memory is read two bytes at a time: an instruction is a big-endian 16-bit word,
and so are the index register, the program counter and every return address.

An instruction word splits into four hexadecimal digits.  The first names the
*family*; the second and third usually name registers (`x` and `y`); and the low
one, two or three digits are operands (`n`, `nn`, `nnn`).  The fields are defined
by division and remainder rather than by masks and shifts, so that each of them
is a statement about natural numbers, and the digits that name registers carry
their bound in their type.
-/

namespace Chip8

/-- One of the sixteen general registers `V0` to `VF`. -/
abbrev Register := Fin 16

/-- The first register, `V0`. -/
abbrev Register.first : Register := ⟨0, by decide⟩

/-- The flag register `VF`. -/
abbrev Register.flag : Register := ⟨15, by decide⟩

namespace Word

/-- The big-endian word of two bytes. -/
def ofBytes (high low : UInt8) : UInt16 := UInt16.ofNat (high.toNat * 256 + low.toNat)

/-- The first byte of a word. -/
def high (w : UInt16) : UInt8 := UInt8.ofNat (w.toNat / 256)

/-- The second byte of a word. -/
def low (w : UInt16) : UInt8 := UInt8.ofNat (w.toNat % 256)

@[simp] theorem toNat_ofBytes (high low : UInt8) :
    (ofBytes high low).toNat = high.toNat * 256 + low.toNat := by
  have := high.toNat_lt
  have := low.toNat_lt
  simp only [ofBytes, UInt16.toNat_ofNat']
  omega

@[simp] theorem toNat_high (w : UInt16) : (high w).toNat = w.toNat / 256 := by
  have := w.toNat_lt
  simp only [high, UInt8.toNat_ofNat']
  omega

@[simp] theorem toNat_low (w : UInt16) : (low w).toNat = w.toNat % 256 := by
  simp only [low, UInt8.toNat_ofNat']
  omega

@[simp] theorem high_ofBytes (h l : UInt8) : high (ofBytes h l) = h := by
  have := l.toNat_lt
  apply UInt8.toNat_inj.1
  rw [toNat_high, toNat_ofBytes]
  omega

@[simp] theorem low_ofBytes (h l : UInt8) : low (ofBytes h l) = l := by
  have := l.toNat_lt
  apply UInt8.toNat_inj.1
  rw [toNat_low, toNat_ofBytes]
  omega

@[simp] theorem ofBytes_high_low (w : UInt16) : ofBytes (high w) (low w) = w := by
  apply UInt16.toNat_inj.1
  rw [toNat_ofBytes, toNat_high, toNat_low]
  omega

/-! ## The fields of an instruction word -/

/-- The first digit, which names the family of the instruction. -/
def family (w : UInt16) : Nat := w.toNat / 4096

/-- The second digit, as a register. -/
def x (w : UInt16) : Register := ⟨w.toNat / 256 % 16, by omega⟩

/-- The third digit, as a register. -/
def y (w : UInt16) : Register := ⟨w.toNat / 16 % 16, by omega⟩

/-- The last digit. -/
def n (w : UInt16) : Fin 16 := ⟨w.toNat % 16, by omega⟩

/-- The last two digits. -/
def nn (w : UInt16) : UInt8 := low w

/-- The last three digits. -/
def nnn (w : UInt16) : UInt16 := UInt16.ofNat (w.toNat % 4096)

theorem family_lt (w : UInt16) : family w < 16 := by
  have := w.toNat_lt
  simp only [family]
  omega

@[simp] theorem toNat_nnn (w : UInt16) : (nnn w).toNat = w.toNat % 4096 := by
  simp only [nnn, UInt16.toNat_ofNat']
  omega

/-- The fields are all there is: the four digits determine the word. -/
theorem toNat_eq_digits (w : UInt16) :
    w.toNat = family w * 4096 + (x w).val * 256 + (y w).val * 16 + (n w).val := by
  simp only [family, x, y, n]
  omega

end Word
end Chip8
