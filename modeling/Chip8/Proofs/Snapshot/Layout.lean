import Mathlib.Data.List.SplitLengths
import Chip8.Snapshot

/-!
# The layout of a snapshot

Writing a snapshot concatenates nine fields; reading one takes each field at an
offset of its own.  The two descriptions of the format share nothing but the
numbers, so whether they agree has to be proved, and this file is where it is.

The sizes of the fields (`sizes`) cut any image into nine pieces, and the pieces
are described twice:

* cutting up what was written gives the fields that were written
  (`splitLengths_encode`);
* cutting up an image gives the bytes found at the offsets (`splitLengths_toList`).

So an image *is* what a snapshot is written as exactly when the pieces at the offsets
are its fields (`encode_eq_iff`), and after that no proof mentions an
offset and a concatenation together.  What is at an offset is said by `byteAt` and
`stretch`, which are defined for every offset, so that statements about an image need
no proof that it is long enough.

The second half is one pair of lemmas for each kind of field: memory, words, the slots
of the call stack, and the packed screen.  Each is written and read back without loss,
and no two values are written alike.
-/

namespace Chip8
namespace Snapshot

/-! ## Cutting an image into fields -/

/-- A concatenation, cut into pieces of the sizes of its parts, is cut into its
parts. -/
theorem splitLengths_flatten {α : Type} (ls : List (List α)) :
    (ls.map List.length).splitLengths ls.flatten = ls := by
  induction ls with
  | nil => rfl
  | cons l ls ih =>
      rw [List.map_cons, List.flatten_cons, List.splitLengths_cons, List.take_left,
        List.drop_left, ih]

/-- The sizes of the fields, in order. -/
def sizes : List Nat := [4, 2, 4096, 16, 2, 2, 32, 3, 256]

theorem map_length_fields (s : Snapshot) : s.fields.map List.length = sizes := by
  simp [fields, sizes, wordBytes]

/-- What was written is cut into the fields that were written. -/
theorem splitLengths_encode (s : Snapshot) : sizes.splitLengths s.encode = s.fields := by
  rw [← map_length_fields s, encode, splitLengths_flatten]

/-- The byte at an offset of an image.  Beyond the end there is a zero. -/
def byteAt (b : Image) (offset : Nat) : UInt8 := b[offset]?.getD 0

/-- A stretch of the bytes of an image. -/
def stretch (b : Image) (offset count : Nat) : List UInt8 := (b.toList.drop offset).take count

theorem byteAt_eq (b : Image) (offset : Nat) (h : offset < 4413) : byteAt b offset = b[offset] := by
  rw [byteAt, Vector.getElem?_eq_getElem h, Option.getD_some]

/-- A field of an image is a stretch of its bytes. -/
theorem toList_field (b : Image) (offset count : Nat) (h : offset + count ≤ 4413) :
    (field b offset count h).toList = stretch b offset count := by
  apply List.ext_getElem
  · rw [Vector.length_toList, stretch, List.length_take, List.length_drop, Vector.length_toList]
    omega
  · intro i h₁ h₂
    simp [field, stretch]

theorem field_eq_iff (b : Image) (offset count : Nat) (h : offset + count ≤ 4413)
    (v : Vector UInt8 count) :
    field b offset count h = v ↔ stretch b offset count = v.toList := by
  rw [← Vector.toList_inj, toList_field]

theorem stretch_two (b : Image) (o : Nat) (h : o + 1 < 4413) :
    stretch b o 2 = [byteAt b o, byteAt b (o + 1)] := by
  rw [← toList_field b o 2 h, byteAt_eq b o (Nat.lt_of_succ_lt h), byteAt_eq b (o + 1) h]
  rfl

theorem stretch_three (b : Image) (o : Nat) (h : o + 2 < 4413) :
    stretch b o 3 = [byteAt b o, byteAt b (o + 1), byteAt b (o + 2)] := by
  rw [← toList_field b o 3 h, byteAt_eq b o (by omega), byteAt_eq b (o + 1) (by omega),
    byteAt_eq b (o + 2) h]
  rfl

/-- The bytes of an image at the offsets of the fields, in order. -/
def parts (b : Image) : List (List UInt8) :=
  [stretch b 0 4,
    [byteAt b 4, byteAt b 5],
    stretch b 6 4096,
    stretch b 4102 16,
    [byteAt b 4118, byteAt b 4119],
    [byteAt b 4120, byteAt b 4121],
    stretch b 4122 32,
    [byteAt b 4154, byteAt b 4155, byteAt b 4156],
    stretch b 4157 256]

/-- Every offset is the sum of the sizes before it. -/
theorem splitLengths_toList (b : Image) : sizes.splitLengths b.toList = parts b := by
  rw [parts, ← stretch_two b 4 (by decide), ← stretch_two b 4118 (by decide),
    ← stretch_two b 4120 (by decide), ← stretch_three b 4154 (by decide)]
  simp only [sizes, List.splitLengths_cons, List.splitLengths_nil, List.drop_drop, stretch,
    List.drop_zero, Nat.reduceAdd]

/-- **An image is what a snapshot is written as exactly when the bytes at the offsets
are its fields.** -/
theorem encode_eq_iff (s : Snapshot) (b : Image) :
    s.encode = b.toList ↔ s.fields = parts b := by
  constructor
  · intro h
    rw [← splitLengths_encode, h, splitLengths_toList]
  · intro h
    have hlen : b.toList.length ≤ sizes.sum := le_of_eq (Vector.length_toList)
    rw [encode, h, ← splitLengths_toList, List.flatten_splitLengths _ _ hlen]

/-! ## Memory -/

/-- Copying all cells over a blank memory makes a copy of the memory, and is not
refused. -/
theorem loadBytes_blank_cells (m : Memory) :
    Memory.blank.loadBytes 0 m.cells.toList = .ok m := by
  have hfits : 0 + m.cells.toList.length ≤ 4096 := by simp
  have hcells : (Memory.blank.overwrite 0 m.cells.toList).cells = m.cells := by
    apply Vector.ext
    intro i hi
    rw [Memory.getElem_overwrite]
    simp [hi]
  rw [Memory.loadBytes, if_pos hfits]
  exact congrArg (fun cells => Except.ok (Memory.mk cells)) hcells

/-! ## Words -/

/-- A word that was read is written as the bytes it was read from. -/
theorem wordBytes_wordAt (b : Image) (o : Nat) (h : o + 1 < 4413) :
    wordBytes (wordAt b o h) = [byteAt b o, byteAt b (o + 1)] := by
  rw [wordBytes, wordAt, Word.high_ofBytes, Word.low_ofBytes, byteAt_eq b o (Nat.lt_of_succ_lt h),
    byteAt_eq b (o + 1) h]

/-- No two words are written alike. -/
theorem wordBytes_injective : Function.Injective wordBytes := by
  intro v w h
  obtain ⟨hhigh, h⟩ := List.cons.inj h
  obtain ⟨hlow, -⟩ := List.cons.inj h
  rw [← Word.ofBytes_high_low v, hhigh, hlow, Word.ofBytes_high_low]

/-! ## The slots of the call stack -/

/-- A slot is written as its two bytes, the first of them at the even position. -/
theorem getElem_slotBytes (slots : Vector UInt16 16) (k : Nat) (hk : k < 16) :
    (slotBytes slots)[2 * k] = Word.high slots[k] ∧
      (slotBytes slots)[2 * k + 1] = Word.low slots[k] := by
  have e : (2 * k + 1) / 2 = k := by omega
  constructor
  · simp [slotBytes]
  · simp [slotBytes, e]

/-- Slots that were read are written as the bytes they were read from. -/
theorem slotBytes_slotsOf (b : Image) :
    slotBytes (slotsOf b) = field b 4122 32 (by decide) := by
  apply Vector.ext
  intro i hi
  have hk : i / 2 < 16 := by omega
  obtain ⟨heven, hodd⟩ := getElem_slotBytes (slotsOf b) (i / 2) hk
  have hslot : (slotsOf b)[i / 2] = wordAt b (4122 + 2 * (i / 2)) (by omega) := by
    rw [slotsOf, Vector.getElem_ofFn]
  rw [hslot, wordAt, Word.high_ofBytes] at heven
  rw [hslot, wordAt, Word.low_ofBytes] at hodd
  rw [field, Vector.getElem_ofFn]
  -- byte `i` is the first or the second byte of slot `i / 2`, as `i` is even or odd
  rcases Nat.mod_two_eq_zero_or_one i with h | h
  · simpa only [show 2 * (i / 2) = i by omega] using heven
  · have e : 2 * (i / 2) + 1 = i := by omega
    simpa only [Nat.add_assoc, e] using hodd

/-- No two stacks of slots are written alike. -/
theorem slotBytes_injective : Function.Injective slotBytes := by
  intro u v h
  apply Vector.ext
  intro k hk
  obtain ⟨hu, hu'⟩ := getElem_slotBytes u k hk
  obtain ⟨hv, hv'⟩ := getElem_slotBytes v k hk
  simp only [h] at hu hu'
  rw [← Word.ofBytes_high_low u[k], ← hu, ← hu', hv, hv', Word.ofBytes_high_low]

/-! ## The screen -/

/-- Screens that are packed alike show the same pixels. -/
theorem pixels_eq_of_pack_eq {d e : Display} (h : d.pack = e.pack) : d.pixels = e.pixels := by
  rw [← Display.pixels_unpack_pack d, h, Display.pixels_unpack_pack]

/-! ## The checks -/

/-- The checks of an image, and what it holds, by the bytes at the offsets. -/
theorem ofImage_eq (b : Image) :
    ofImage b =
      if stretch b 0 4 ≠ signature.toList then .error .snapshotSignature
      else if byteAt b 4 ≠ version then .error (.snapshotVersion (byteAt b 4))
      else
        match Dialect.ofBits? (byteAt b 5) with
        | none => .error (.snapshotDialect (byteAt b 5))
        | some dialect =>
            match CallStack.ofSlots? (slotsOf b) (byteAt b 4154).toNat with
            | none => .error (.snapshotStackDepth (byteAt b 4154))
            | some stack => .ok ⟨machineOf b stack, dialect⟩ := by
  rw [ofImage, byteAt_eq b 4 (by decide), byteAt_eq b 5 (by decide), byteAt_eq b 4154 (by decide)]
  exact if_congr (field_eq_iff b 0 4 (by decide) signature).not rfl rfl

end Snapshot
end Chip8
