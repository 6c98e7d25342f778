/-!
# The bits of a byte, leftmost first

A sprite row and a packed scanline both store eight pixels in a byte with the
*most* significant bit at the left edge.  Bit `k` of a byte is therefore counted
from the top: bit `0` is worth 128 and bit `7` is worth 1.

`bit` reads one bit and `ofBits` rebuilds a byte, and the two are inverse to each
other in both directions (`bit_ofBits`, `ofBits_bit`).  Whatever packs pixels and
whatever unpacks them goes through this pair, so they cannot disagree on the bit
order.
-/

namespace Chip8
namespace Byte

/-- Bit `k` of a byte, counted from the most significant. -/
def bit (b : UInt8) (k : Fin 8) : Bool := b.toNat.testBit (7 - k.val)

/-- The byte with the given eight bits, the most significant first. -/
def ofBits (f : Fin 8 → Bool) : UInt8 :=
  let worth (b : Bool) (n : Nat) : Nat := if b then n else 0
  UInt8.ofNat (worth (f 0) 128 + worth (f 1) 64 + worth (f 2) 32 + worth (f 3) 16
    + worth (f 4) 8 + worth (f 5) 4 + worth (f 6) 2 + worth (f 7) 1)

/-- Every byte below 256 is the byte of its own bits. -/
theorem ofBits_bit_ofNat :
    ∀ n, n < 256 → ofBits (bit (UInt8.ofNat n)) = UInt8.ofNat n := by
  decide +kernel

/-- A byte is determined by its bits. -/
@[simp] theorem ofBits_bit (b : UInt8) : ofBits (bit b) = b := by
  have h := ofBits_bit_ofNat b.toNat b.toNat_lt
  simpa using h

/-- Every choice of eight bits can be read back. -/
theorem bit_ofBits_cases :
    ∀ (b0 b1 b2 b3 b4 b5 b6 b7 : Bool) (k : Fin 8),
      bit (ofBits (fun i => #v[b0, b1, b2, b3, b4, b5, b6, b7][i])) k
        = #v[b0, b1, b2, b3, b4, b5, b6, b7][k] := by
  decide +kernel

/-- The bits of a rebuilt byte are the bits it was built from. -/
@[simp] theorem bit_ofBits (f : Fin 8 → Bool) (k : Fin 8) : bit (ofBits f) k = f k := by
  have h := bit_ofBits_cases (f 0) (f 1) (f 2) (f 3) (f 4) (f 5) (f 6) (f 7) k
  have e : (fun i : Fin 8 => #v[f 0, f 1, f 2, f 3, f 4, f 5, f 6, f 7][i]) = f := by
    funext i
    match i with
    | 0 | 1 | 2 | 3 | 4 | 5 | 6 | 7 => rfl
  rw [e] at h
  rw [h]
  exact congrFun e k

end Byte
end Chip8
