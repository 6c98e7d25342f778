import Mathlib
import Chip8.Memory

/-!
# Accesses that can go wrong

Nothing in the machine can fail, and its types are the reason: a register number carries
its bound, a depth its limit, an address stands for a cell because a remainder is taken.
A reader may ask whether the types only hide the question.  `Guarded` answers it with a
second reading of the machine in which they are taken away.  There a register number, a
stack depth, a screen position and an offset are mere numbers, fields are cut out of
words by masks and shifts, and every access says what it needs and fails if it does not
get it.

Six things can go wrong, one for each constructor of `Fault`:

* an index is not below the size of the sequence it indexes;
* a range of a sequence does not lie within it;
* a block is copied to a place of another length;
* a sum or a product does not fit its number of bits;
* a difference would be negative;
* a byte is shifted by eight places or more.

This module has the accesses, each with the one lemma that says when it succeeds.  Where
arithmetic is meant to wrap or to be cut off there is nothing to check, and the operations
of the fixed-width types are used as they are.
-/

namespace Chip8

/-- What can go wrong. -/
inductive Fault where
  /-- The index of an entry that a sequence of the given size does not have. -/
  | index (i size : Nat)
  /-- A range that does not lie within a sequence of the given size. -/
  | range (start stop size : Nat)
  /-- A block copied to a place of another length. -/
  | length (place block : Nat)
  /-- A value that does not fit the given number of bits. -/
  | overflow (value bits : Nat)
  /-- A difference that would be negative. -/
  | underflow (a b : Nat)
  /-- A byte shifted by all of its bits or more. -/
  | shift (count : Nat)
  deriving DecidableEq

/-- A computation in which something can go wrong. -/
abbrev Attempt (α : Type) := Except Fault α

namespace Attempt

variable {α β : Type}

/-- What has succeeded is passed on. -/
@[simp] theorem ok_bind (a : α) (f : α → Attempt β) : (Except.ok a >>= f) = f a := rfl

end Attempt

namespace Guarded

variable {α : Type} {n : Nat}

/-! ## Entries -/

/-- The entry at an index. -/
def entry (xs : Vector α n) (i : Nat) : Attempt α :=
  if h : i < n then .ok xs[i] else .error (.index i n)

/-- Replace the entry at an index. -/
def replace (xs : Vector α n) (i : Nat) (a : α) : Attempt (Vector α n) :=
  if h : i < n then .ok (xs.set i a) else .error (.index i n)

theorem entry_of_lt (xs : Vector α n) {i : Nat} (h : i < n) : entry xs i = .ok xs[i] :=
  dif_pos h

theorem replace_of_lt (xs : Vector α n) {i : Nat} (a : α) (h : i < n) :
    replace xs i a = .ok (xs.set i a) :=
  dif_pos h

@[simp] theorem entry_val (xs : Vector α n) (i : Fin n) : entry xs i.val = .ok xs[i] :=
  entry_of_lt xs i.isLt

@[simp] theorem replace_val (xs : Vector α n) (i : Fin n) (a : α) :
    replace xs i.val a = .ok (xs.set i a) :=
  replace_of_lt xs a i.isLt

/-! ## Numbers -/

/-- A number that has to fit a number of bits. -/
def fit (bits value : Nat) : Attempt Nat :=
  if value < 2 ^ bits then .ok value else .error (.overflow value bits)

/-- The difference of two numbers. -/
def minus (a b : Nat) : Attempt Nat :=
  if b ≤ a then .ok (a - b) else .error (.underflow a b)

/-- The byte in which only bit `k` is set, counted from the most significant. -/
def mask (k : Nat) : Attempt UInt8 :=
  if k < 8 then .ok (0x80 >>> UInt8.ofNat k) else .error (.shift k)

theorem fit_of_lt {bits value : Nat} (h : value < 2 ^ bits) : fit bits value = .ok value :=
  if_pos h

theorem minus_of_le {a b : Nat} (h : b ≤ a) : minus a b = .ok (a - b) :=
  if_pos h

@[simp] theorem mask_val (k : Fin 8) : mask k.val = .ok (0x80 >>> UInt8.ofNat k.val) :=
  if_pos k.isLt

/-! ## Ranges and blocks -/

/-- The part of a sequence from one position up to another. -/
def slice (xs : List α) (start stop : Nat) : Attempt (List α) :=
  if start ≤ stop ∧ stop ≤ xs.length then .ok ((xs.take stop).drop start)
  else .error (.range start stop xs.length)

/-- The first `count` bytes, and the bytes after them. -/
def split (count : Nat) (bytes : List UInt8) : Attempt (List UInt8 × List UInt8) :=
  if count ≤ bytes.length then .ok (bytes.take count, bytes.drop count)
  else .error (.range 0 count bytes.length)

/-- A block copied to a place for `count` bytes. -/
def exactly (count : Nat) (block : List UInt8) : Attempt (Vector UInt8 count) :=
  if h : block.length = count then .ok ⟨block.toArray, by simpa using h⟩
  else .error (.length count block.length)

/-- A block copied to the cells from one address up to another. -/
def copyTo (m : Memory) (start stop : Nat) (block : List UInt8) : Attempt Memory :=
  if start ≤ stop ∧ stop ≤ 4096 then
    if block.length = stop - start then .ok (m.overwrite start block)
    else .error (.length (stop - start) block.length)
  else .error (.range start stop 4096)

theorem slice_of_le (xs : List α) {start stop : Nat} (h : start ≤ stop)
    (h' : stop ≤ xs.length) : slice xs start stop = .ok ((xs.take stop).drop start) :=
  if_pos ⟨h, h'⟩

theorem split_of_le {count : Nat} {bytes : List UInt8} (h : count ≤ bytes.length) :
    split count bytes = .ok (bytes.take count, bytes.drop count) :=
  if_pos h

@[simp] theorem exactly_toList (xs : Vector UInt8 n) : exactly n xs.toList = .ok xs := by
  rw [exactly, dif_pos (Vector.length_toList ..)]
  rfl

/-- A block goes where it ends at the end of its place, if that is within memory. -/
theorem copyTo_of_le (m : Memory) {start : Nat} {block : List UInt8}
    (h : start + block.length ≤ 4096) :
    copyTo m start (start + block.length) block = .ok (m.overwrite start block) := by
  rw [copyTo, if_pos ⟨Nat.le_add_right _ _, h⟩, if_pos (Nat.add_sub_cancel_left _ _).symm]

end Guarded
end Chip8
