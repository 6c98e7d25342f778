import Chip8.Proofs.Snapshot.Layout

/-!
# Writing and reading snapshots

A snapshot does not record everything there is in a machine: the state of the keys
and the redraw flag are left out.  `recorded` is a snapshot with these two in the
state in which they are read back, and the statements of this file are:

* what is written is read back as `recorded` says (`decode_encode`);
* two snapshots are written alike exactly when they agree in what is recorded
  (`encode_eq_encode_iff`);
* a list of bytes is refused for the first of five checks that it fails (`defect?`),
  and if it fails none it is the written form of what is read from it
  (`decode_cases`).

The last one is stronger than a round trip.  It leaves a list of bytes no room for
anything that reading ignores or tidies up: whatever is accepted is written again
byte for byte.  `decode_encode` follows from it, since a written snapshot fails no
check and no other recorded snapshot is written in the same way.
-/

namespace Chip8

/-- The machine as it is read back after it was written: no key is down, and the screen
asks to be painted. -/
def Machine.recorded (m : Machine) : Machine :=
  { m with keys := .released, display := m.display.requestRedraw }

namespace Snapshot

/-- The part of a snapshot that is written. -/
def recorded (s : Snapshot) : Snapshot := ⟨s.machine.recorded, s.dialect⟩

/-! ## What is written determines what is recorded -/

@[simp] theorem fields_recorded (s : Snapshot) : s.recorded.fields = s.fields := rfl

/-- Snapshots whose fields agree record the same. -/
theorem recorded_eq_of_fields_eq {s t : Snapshot} (h : s.fields = t.fields) :
    s.recorded = t.recorded := by
  obtain ⟨-, h⟩ := List.cons.inj h
  obtain ⟨hdialect, h⟩ := List.cons.inj h
  obtain ⟨hmemory, h⟩ := List.cons.inj h
  obtain ⟨hregisters, h⟩ := List.cons.inj h
  obtain ⟨hindex, h⟩ := List.cons.inj h
  obtain ⟨hpc, h⟩ := List.cons.inj h
  obtain ⟨hslots, h⟩ := List.cons.inj h
  obtain ⟨hrest, h⟩ := List.cons.inj h
  obtain ⟨hpack, -⟩ := List.cons.inj h
  obtain ⟨⟨⟨cells⟩, registers, index, pc, ⟨slots, depth, hdepth⟩, ⟨pixels, redraw⟩,
    ⟨delay, sound⟩, keys⟩, dialect⟩ := s
  obtain ⟨⟨⟨cells'⟩, registers', index', pc', ⟨slots', depth', hdepth'⟩, ⟨pixels', redraw'⟩,
    ⟨delay', sound'⟩, keys'⟩, dialect'⟩ := t
  obtain rfl : dialect = dialect' := by
    have hbits : dialect.toBits = dialect'.toBits := by simpa using hdialect
    have hsome := congrArg Dialect.ofBits? hbits
    rwa [Dialect.ofBits?_toBits, Dialect.ofBits?_toBits, Option.some.injEq] at hsome
  obtain rfl : cells = cells' := Vector.toList_inj.mp hmemory
  obtain rfl : registers = registers' := Vector.toList_inj.mp hregisters
  obtain rfl : index = index' := wordBytes_injective hindex
  obtain rfl : pc = pc' := wordBytes_injective hpc
  obtain rfl : slots = slots' := slotBytes_injective (Vector.toList_inj.mp hslots)
  simp only [List.cons.injEq, and_true] at hrest
  obtain ⟨hd, rfl, rfl⟩ := hrest
  obtain rfl : depth = depth' := by
    have hd' := congrArg UInt8.toNat hd
    rw [UInt8.toNat_ofNat', UInt8.toNat_ofNat'] at hd'
    omega
  obtain rfl : pixels = pixels' := pixels_eq_of_pack_eq (Vector.toList_inj.mp hpack)
  rfl

/-- **Snapshots are written alike exactly when they record the same.** -/
theorem encode_eq_encode_iff (s t : Snapshot) :
    s.encode = t.encode ↔ s.recorded = t.recorded := by
  constructor
  · intro h
    apply recorded_eq_of_fields_eq
    rw [← splitLengths_encode, h, splitLengths_encode]
  · intro h
    rw [encode, ← fields_recorded, h, fields_recorded, ← encode]

/-! ## What is refused, and what is accepted -/

/-- The first check that a list of bytes fails when it is read as a snapshot: its
length, the four letters it begins with, the version, the unassigned bit of the
dialect, and the depth of the call stack. -/
def defect? (bytes : List UInt8) : Option Refusal :=
  if h : bytes.length = 4413 then
    if bytes.take 4 ≠ [0x43, 0x38, 0x56, 0x4D] then some .snapshotSignature
    else if bytes[4] ≠ 1 then some (.snapshotVersion bytes[4])
    else if bytes[5].toNat.testBit 7 then some (.snapshotDialect bytes[5])
    else if 16 < bytes[4154].toNat then some (.snapshotStackDepth bytes[4154])
    else none
  else some (.snapshotLength bytes.length)

/-- The unassigned bit of a byte is clear exactly when the byte is a dialect. -/
theorem ofBits?_eq_none_iff_testBit (bits : UInt8) :
    Dialect.ofBits? bits = none ↔ bits.toNat.testBit 7 = true := by
  have := bits.toNat_lt
  rw [Dialect.ofBits?_eq_none_iff, Nat.testBit_eq_decide_div_mod_eq, decide_eq_true_iff]
  omega

/-- An image that passes every check is accepted, and is the written form of what is
read from it. -/
theorem fields_machineOf {b : Image} {dialect : Dialect} {stack : CallStack}
    (hsignature : stretch b 0 4 = signature.toList) (hversion : byteAt b 4 = version)
    (hdialect : Dialect.ofBits? (byteAt b 5) = some dialect)
    (hstack : CallStack.ofSlots? (slotsOf b) (byteAt b 4154).toNat = some stack) :
    (Snapshot.mk (machineOf b stack) dialect).fields = parts b := by
  have hbits : dialect.toBits = byteAt b 5 := Dialect.toBits_ofBits? hdialect
  obtain ⟨hslots, hdepth⟩ : stack.slots = slotsOf b ∧ stack.depth = (byteAt b 4154).toNat := by
    unfold CallStack.ofSlots? at hstack
    split at hstack
    · cases hstack
      exact ⟨rfl, rfl⟩
    · cases hstack
  have hpack : (machineOf b stack).display.pack = field b 4157 256 (by decide) :=
    Display.pack_unpack _
  simp only [fields, parts, hpack]
  simp only [machineOf, hsignature, hversion, hbits, hslots, hdepth, wordBytes_wordAt,
    slotBytes_slotsOf, toList_field, UInt8.ofNat_toNat, byteAt_eq b 4155 (by decide),
    byteAt_eq b 4156 (by decide)]

/-- The checks, read off an image. -/
theorem defect?_toList (b : Image) :
    defect? b.toList =
      if stretch b 0 4 ≠ signature.toList then some .snapshotSignature
      else if byteAt b 4 ≠ version then some (.snapshotVersion (byteAt b 4))
      else if Dialect.ofBits? (byteAt b 5) = none then some (.snapshotDialect (byteAt b 5))
      else if 16 < (byteAt b 4154).toNat then some (.snapshotStackDepth (byteAt b 4154))
      else none := by
  have hsignature : b.toList.take 4 ≠ [0x43, 0x38, 0x56, 0x4D] ↔
      stretch b 0 4 ≠ signature.toList := Iff.rfl
  have hlen : b.toList.length = 4413 := Vector.length_toList
  rw [defect?, dif_pos hlen]
  simp only [Vector.getElem_toList, hsignature, ofBits?_eq_none_iff_testBit, version,
    byteAt_eq b 4 (by decide), byteAt_eq b 5 (by decide), byteAt_eq b 4154 (by decide)]

/-- What reading does with an image. -/
theorem ofImage_cases (b : Image) :
    (∃ e, defect? b.toList = some e ∧ ofImage b = .error e) ∨
      (∃ s, defect? b.toList = none ∧ ofImage b = .ok s ∧ s.fields = parts b ∧
        s.recorded = s) := by
  rw [defect?_toList, ofImage_eq]
  by_cases hsignature : stretch b 0 4 = signature.toList
  swap
  · exact Or.inl ⟨_, if_pos hsignature, if_pos hsignature⟩
  rw [if_neg (not_not_intro hsignature), if_neg (not_not_intro hsignature)]
  by_cases hversion : byteAt b 4 = version
  swap
  · exact Or.inl ⟨_, if_pos hversion, if_pos hversion⟩
  rw [if_neg (not_not_intro hversion), if_neg (not_not_intro hversion)]
  cases hdialect : Dialect.ofBits? (byteAt b 5) with
  | none => exact Or.inl ⟨_, if_pos rfl, rfl⟩
  | some dialect =>
      rw [if_neg (Option.some_ne_none dialect)]
      by_cases hdepth : (byteAt b 4154).toNat ≤ 16
      · have hstack : CallStack.ofSlots? (slotsOf b) (byteAt b 4154).toNat =
            some ⟨slotsOf b, (byteAt b 4154).toNat, hdepth⟩ := dif_pos hdepth
        simp only [hstack]
        exact Or.inr ⟨_, if_neg (by omega), rfl,
          fields_machineOf hsignature hversion hdialect hstack, rfl⟩
      · have hstack : CallStack.ofSlots? (slotsOf b) (byteAt b 4154).toNat = none :=
          dif_neg hdepth
        simp only [hstack]
        exact Or.inl ⟨_, if_pos (by omega), rfl⟩

/-- **What reading does with a list of bytes.**  One that fails a check is refused for
the first check that it fails.  One that fails none is accepted, and is byte for byte
what is written of the snapshot that was read. -/
theorem decode_cases (bytes : List UInt8) :
    (∃ e, defect? bytes = some e ∧ decode bytes = .error e) ∨
      (∃ s, defect? bytes = none ∧ decode bytes = .ok s ∧ s.encode = bytes ∧
        s.recorded = s) := by
  by_cases hlen : bytes.length = 4413
  · have hdecode : decode bytes = ofImage (imageOf bytes hlen) := dif_pos hlen
    rw [hdecode]
    rcases ofImage_cases (imageOf bytes hlen) with h | ⟨s, hsound, hs, hfields, hrecorded⟩
    · exact Or.inl h
    · exact Or.inr ⟨s, hsound, hs, (encode_eq_iff s _).mpr hfields, hrecorded⟩
  · exact Or.inl ⟨.snapshotLength bytes.length, dif_neg hlen, decode_of_length_ne hlen⟩

/-! ## The round trip -/

/-- A snapshot that was written fails no check. -/
theorem defect?_encode (s : Snapshot) : defect? s.encode = none := by
  obtain ⟨b, hb⟩ : ∃ b : Image, b.toList = s.encode := ⟨imageOf s.encode (length_encode s), rfl⟩
  have hparts : s.fields = parts b := (encode_eq_iff s b).mp hb.symm
  obtain ⟨hsignature, h⟩ := List.cons.inj hparts
  obtain ⟨hheader, h⟩ := List.cons.inj h
  have hcounters : [UInt8.ofNat s.machine.stack.depth, s.machine.timers.delay,
      s.machine.timers.sound] = [byteAt b 4154, byteAt b 4155, byteAt b 4156] :=
    congrArg (fun l => l.getD 7 []) hparts
  simp only [List.cons.injEq, and_true] at hheader hcounters
  have hdepth : (byteAt b 4154).toNat ≤ 16 := by
    have := s.machine.stack.depth_le
    rw [← hcounters.1, UInt8.toNat_ofNat']
    omega
  rw [← hb, defect?_toList, if_neg (not_not_intro hsignature.symm),
    if_neg (not_not_intro hheader.1.symm), ← hheader.2, Dialect.ofBits?_toBits,
    if_neg (Option.some_ne_none _), if_neg (by omega)]

/-- **What is written is read back, as far as it is recorded.** -/
theorem decode_encode (s : Snapshot) : decode s.encode = .ok s.recorded := by
  rcases decode_cases s.encode with ⟨e, he, -⟩ | ⟨t, -, ht, hencode, hrecorded⟩
  · rw [defect?_encode s] at he
    cases he
  · rw [ht, ← hrecorded, (encode_eq_encode_iff t s).mp hencode]

/-- **A machine survives being written.**  Whatever is in the machine, it is written as
4413 bytes, and what is read from them is the same machine under the same dialect: the
memory, the registers, the slots of the call stack with the stale ones among them, the
timers and every pixel.  Only the keys are released and the redraw flag is raised. -/
theorem length_encode_and_decode_encode (m : Machine) (d : Dialect) :
    (encode ⟨m, d⟩).length = 4413 ∧
      decode (encode ⟨m, d⟩) =
        .ok ⟨{ m with keys := .released, display := { m.display with redraw := true } }, d⟩ :=
  ⟨length_encode ⟨m, d⟩, decode_encode ⟨m, d⟩⟩

end Snapshot
end Chip8
