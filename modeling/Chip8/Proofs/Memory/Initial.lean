import Chip8.Machine

/-!
# What is in memory at the start

A machine that was just cleared has the glyphs in memory and nothing else, so there is no
instruction under its program counter.  A machine that was just loaded has the program there,
byte for byte.
-/

namespace Chip8

/-- The glyphs are all below `0x0A0`. -/
theorem Memory.read_withFont (m : Memory) {a : UInt16} (h : 0x0A0 ≤ (cell a).val) :
    m.withFont.read a = m.read a := by
  have hlength : Font.rows.length = 80 := Font.length_rows
  have hstart : Font.start.toNat = 80 := by decide
  have hpast : Font.rows[(cell a).val - Font.start.toNat]? = none :=
    List.getElem?_eq_none (by omega)
  simp [read, withFont, getElem_overwrite, hpast]

/-- A block that fits stands where it was copied to, and around it nothing has moved. -/
theorem Memory.toList_overwrite (m : Memory) {address : Nat} {block : List UInt8}
    (h : address + block.length ≤ 4096) :
    (m.overwrite address block).cells.toList =
      m.cells.toList.take address ++ block ++ m.cells.toList.drop (address + block.length) := by
  have hlength : m.cells.toList.length = 4096 := Vector.length_toList
  apply List.ext_getElem
  · simp only [Vector.length_toList, List.length_append, List.length_take, List.length_drop]
    omega
  · intro i hi _
    have hi' : i < 4096 := by simpa only [Vector.length_toList] using hi
    rw [Vector.getElem_toList, getElem_overwrite m address block i hi']
    have htake : (m.cells.toList.take address).length = address := by
      rw [List.length_take, hlength, Nat.min_eq_left (by omega)]
    rcases Nat.lt_or_ge i address with hbefore | hfrom
    · rw [if_neg (by omega), List.getElem_append_left (by rw [List.length_append]; omega),
        List.getElem_append_left (by omega), List.getElem_take, Vector.getElem_toList]
    · rw [if_pos hfrom]
      rcases Nat.lt_or_ge i (address + block.length) with hinside | hpast
      · rw [List.getElem?_eq_getElem (by omega), Option.getD_some,
          List.getElem_append_left (by rw [List.length_append]; omega),
          List.getElem_append_right (by omega)]
        simp only [htake]
      · have hsplit : address + block.length + (i - (address + block.length)) = i := by omega
        rw [List.getElem?_eq_none (by omega), Option.getD_none,
          List.getElem_append_right (by rw [List.length_append]; omega), List.getElem_drop,
          Vector.getElem_toList]
        simp only [List.length_append, htake, hsplit]

theorem Memory.toList_overwrite_append (m : Memory) {address : Nat}
    {before replaced block after : List UInt8}
    (hcells : m.cells.toList = before ++ replaced ++ after) (hbefore : before.length = address)
    (hlength : block.length = replaced.length) :
    (m.overwrite address block).cells.toList = before ++ block ++ after := by
  have htotal : m.cells.toList.length = 4096 := Vector.length_toList
  rw [hcells, List.length_append, List.length_append] at htotal
  rw [toList_overwrite m (by omega), hcells,
    List.drop_left' (by rw [List.length_append, hbefore, hlength]), List.append_assoc before,
    List.take_left' hbefore]

namespace Machine

/-- There is nothing under the program counter of a machine that was just cleared. -/
theorem readWord_initial : initial.memory.readWord initial.pc = 0 := by
  have hread : ∀ a : UInt16, 0x0A0 ≤ (Memory.cell a).val → initial.memory.read a = 0 := by
    intro a ha
    rw [initial, Memory.read_withFont _ ha]
    simp [Memory.read, Memory.blank]
  rw [Memory.readWord, hread _ (by decide), hread _ (by decide)]
  decide

/-- The bytes of a program are found in memory one after the other. -/
theorem read_load (rom : Rom) {a : UInt16} {k : Nat} (hk : k < rom.bytes.length)
    (ha : (Memory.cell a).val = programStart.toNat + k) :
    (load rom).memory.read a = rom.bytes[k] := by
  have hbyte : rom.bytes[(Memory.cell a).val - programStart.toNat]? = some rom.bytes[k] := by
    rw [ha, Nat.add_sub_cancel_left, List.getElem?_eq_getElem hk]
  have hle : programStart.toNat ≤ (Memory.cell a).val := by omega
  simp only [Memory.read, load, Fin.getElem_fin, Memory.getElem_overwrite, if_pos hle, hbyte,
    Option.getD_some]

/-- The words of a program are found in memory wherever two of its bytes are. -/
theorem readWord_load (rom : Rom) {a : UInt16} {k : Nat} (hk : k + 1 < rom.bytes.length)
    (ha : (Memory.cell a).val = programStart.toNat + k)
    (ha' : (Memory.cell (a + 1)).val = programStart.toNat + (k + 1)) :
    (load rom).memory.readWord a = Word.ofBytes rom.bytes[k] rom.bytes[k + 1] := by
  rw [Memory.readWord, read_load rom (Nat.lt_of_succ_lt hk) ha, read_load rom hk ha']

/-- Memory with nothing but the glyphs in it, from end to end. -/
theorem toList_initial : initial.memory.cells.toList =
    List.replicate 0x050 0 ++ Font.rows ++ List.replicate 0xF60 0 := by
  have hblank : Memory.blank.cells.toList =
      List.replicate 80 0 ++ List.replicate 80 0 ++ List.replicate 3936 0 := by
    rw [List.replicate_append_replicate, List.replicate_append_replicate]
    exact Vector.toList_replicate
  exact Memory.blank.toList_overwrite_append hblank List.length_replicate (by decide)

/-- Memory after a load, from end to end. -/
theorem toList_load (rom : Rom) :
    (load rom).memory.cells.toList = List.replicate 0x050 0 ++ Font.rows ++
      List.replicate 0x160 0 ++ rom.bytes ++ List.replicate (0xE00 - rom.bytes.length) 0 := by
  have hfont := toList_initial
  have hroom : (List.replicate 3936 0 : List UInt8) = List.replicate 352 0 ++
      (List.replicate rom.bytes.length 0 ++ List.replicate (3584 - rom.bytes.length) 0) := by
    have hfits := rom.fits
    rw [List.replicate_append_replicate, List.replicate_append_replicate,
      show 352 + (rom.bytes.length + (3584 - rom.bytes.length)) = 3936 by omega]
  have hstart : (List.replicate 80 0 ++ Font.rows ++ List.replicate 352 0).length =
      programStart.toNat := by
    rw [List.length_append, List.length_append, List.length_replicate, List.length_replicate]
    decide
  rw [hroom, ← List.append_assoc, ← List.append_assoc] at hfont
  exact initial.memory.toList_overwrite_append hfont hstart List.length_replicate.symm

end Machine
end Chip8
