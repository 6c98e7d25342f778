import Chip8.Keys

/-!
# A keypad in one word

Sixteen keys fit into a word of sixteen bits, and a word can be read and changed in a single step.
A keypad that is kept in this way never shows half an update.  A key is pressed by setting its bit
with a mask and released by clearing it, and the keypad is read bit by bit, by masks again.

`Latch` is such a keypad, and `Latch.keys` is what is read off it.  Each of its operations does to
the keys what the operation of `Keys` does (`keys_set`, `keys_blank`): the mask that changes a key
is the mask that it is read with, and leaves the bits of the other keys alone.
-/

namespace Chip8

/-- The state of sixteen keys in one word. -/
structure Latch where
  /-- The keys, the lowest in the lowest bit. -/
  bits : UInt16
  deriving DecidableEq

namespace Latch

/-- No key is down. -/
def blank : Latch := ⟨0⟩

/-- The word with the bit of a key and no other.  Of the byte only its low half counts. -/
def mask (key : UInt8) : UInt16 := 1 <<< (key &&& 0xF).toUInt16

/-- Press or release a key. -/
def set (l : Latch) (key : UInt8) (pressed : Bool) : Latch :=
  if pressed then ⟨l.bits ||| mask key⟩ else ⟨l.bits &&& ~~~mask key⟩

/-- The keys, each read with a mask of its own. -/
def keys (l : Latch) : Keys :=
  Vector.ofFn fun k => l.bits &&& (1 <<< UInt16.ofNat k.val) != 0

/-- Whether the bit of a key is set. -/
def bit (w : UInt16) (k : Fin 16) : Bool := w.toBitVec.getLsbD k

/-! ## Bits by masks -/

/-- A bit is set if masking everything else leaves something. -/
theorem and_shifted_eq_zero_iff (w : UInt16) (k : Fin 16) :
    w &&& (1 <<< UInt16.ofNat k.val) = 0 ↔ bit w k = false := by
  have hmask : ∀ k : Fin 16,
      (1 <<< UInt16.ofNat k.val : UInt16).toBitVec = BitVec.twoPow 16 k.val := by
    decide
  rw [← UInt16.toBitVec_inj, UInt16.toBitVec_and, hmask, BitVec.and_twoPow]
  show _ ↔ w.toBitVec.getLsbD k = false
  cases w.toBitVec.getLsbD k with
  | false => simp
  | true =>
      have hpow : ∀ k : Fin 16, BitVec.twoPow 16 k.val ≠ (0 : UInt16).toBitVec := by decide
      simpa using hpow k

/-- The mask of a key has one bit, the bit of that key. -/
theorem bit_mask (key : UInt8) (k : Fin 16) : bit (mask key) k = decide (Keys.ofByte key = k) := by
  have h : ∀ n, n < 256 → ∀ k : Fin 16,
      bit (mask (UInt8.ofNat n)) k = decide (Keys.ofByte (UInt8.ofNat n) = k) := by
    decide +kernel
  simpa using h key.toNat key.toNat_lt k

theorem bit_or (a b : UInt16) (k : Fin 16) : bit (a ||| b) k = (bit a k || bit b k) := by
  rw [bit, UInt16.toBitVec_or, BitVec.getLsbD_or]
  rfl

theorem bit_and_not (a b : UInt16) (k : Fin 16) : bit (a &&& ~~~b) k = (bit a k && !bit b k) := by
  rw [bit, UInt16.toBitVec_and, UInt16.toBitVec_not, BitVec.getLsbD_and, BitVec.getLsbD_not,
    decide_eq_true k.isLt, Bool.true_and]
  rfl

/-! ## What is read -/

theorem get_keys (l : Latch) (k : Fin 16) : l.keys.get k = bit l.bits k := by
  have hread : l.keys.get k = (l.bits &&& (1 <<< UInt16.ofNat k.val) != 0) :=
    Vector.getElem_ofFn _
  rw [hread, Bool.eq_iff_iff, bne_iff_ne, Ne, and_shifted_eq_zero_iff, Bool.not_eq_false]

/-- **Setting a key in the word sets that key and no other.** -/
theorem keys_set (l : Latch) (key : UInt8) (pressed : Bool) :
    (l.set key pressed).keys = l.keys.put (Keys.ofByte key) pressed := by
  refine Vector.ext fun i hi => ?_
  let k : Fin 16 := ⟨i, hi⟩
  have hput : (l.keys.put (Keys.ofByte key) pressed).get k =
      if Keys.ofByte key = k then pressed else l.keys.get k := Keys.getElem_put l.keys _ pressed k
  show (l.set key pressed).keys.get k = (l.keys.put (Keys.ofByte key) pressed).get k
  rw [hput, get_keys, get_keys]
  cases pressed with
  | true =>
      rw [show (l.set key true).bits = l.bits ||| mask key from rfl, bit_or, bit_mask]
      by_cases hkey : Keys.ofByte key = k <;> simp [hkey]
  | false =>
      rw [show (l.set key false).bits = l.bits &&& ~~~mask key from rfl, bit_and_not, bit_mask]
      by_cases hkey : Keys.ofByte key = k <;> simp [hkey]

theorem keys_blank : blank.keys = .released := by
  decide

end Latch
end Chip8
