import Chip8.Proofs.Guarded.Machine
import Chip8.Proofs.Snapshot.Layout

/-!
# Snapshots, guarded

Here a snapshot is read from the front.  A reader has the bytes that are left, and takes a
number of bytes off them; if there are not that many, something has gone wrong.  Nothing
but the length of the whole is checked beforehand, and that it is enough for all the
fields together is what has to be proved.

The state of the reader after the first `k` bytes of an image is simply what the image has
behind them, so each field is read by one lemma about taking bytes at an offset
(`take_drop`), and the offsets add up along the way.  The bytes themselves are arbitrary,
and where they decide something the answer is a refusal and not a fault.
-/

namespace Chip8
namespace Guarded

/-! ## Reading from the front -/

/-- Take a number of bytes off the front. -/
def take (count : Nat) (bytes : List UInt8) : Attempt (Vector UInt8 count × List UInt8) := do
  let (head, tail) ← split count bytes
  let field ← exactly count head
  .ok (field, tail)

/-- Take a big-endian word off the front. -/
def takeWord (bytes : List UInt8) : Attempt (UInt16 × List UInt8) := do
  let (field, rest) ← take 2 bytes
  .ok (Word.ofBytes field[0] field[1], rest)

/-- Take a number of words off the front. -/
def takeWords : (count : Nat) → List UInt8 → Attempt (Vector UInt16 count × List UInt8)
  | 0, bytes => .ok (#v[], bytes)
  | count + 1, bytes => do
      let (words, rest) ← takeWords count bytes
      let (word, rest) ← takeWord rest
      .ok (words.push word, rest)

/-- A stack with given slots and depth, if there are that many slots. -/
def Stack.ofSlots? (slots : Vector UInt16 16) (depth : Nat) : Option Stack :=
  if depth ≤ 16 then some ⟨slots, depth⟩ else none

/-- Read what follows the header of a snapshot. -/
def decodeState (bytes : List UInt8) : Attempt (Except Refusal State) := do
  let (cells, rest) ← take 4096 bytes
  match ← loadBytes Memory.blank 0 cells.toList with
  | .error e => .ok (.error e)
  | .ok memory =>
      let (registers, rest) ← take 16 rest
      let (index, rest) ← takeWord rest
      let (pc, rest) ← takeWord rest
      let (slots, rest) ← takeWords 16 rest
      let (depth, rest) ← take 1 rest
      match Stack.ofSlots? slots depth[0].toNat with
      | none => .ok (.error (.snapshotStackDepth depth[0]))
      | some stack =>
          let (timers, rest) ← take 2 rest
          let (screen, _) ← take 256 rest
          let display ← unpack screen
          .ok (.ok {
            memory, registers, index, pc, stack
            display := display.requestRedraw
            timers := ⟨timers[0], timers[1]⟩
            keys := .released })

/-- Read a snapshot. -/
def decode (bytes : List UInt8) : Attempt (Except Refusal (State × Dialect)) :=
  if bytes.length ≠ 4413 then .ok (.error (.snapshotLength bytes.length))
  else do
    let (signature, rest) ← take 4 bytes
    if signature ≠ Snapshot.signature then .ok (.error .snapshotSignature)
    else
      let (version, rest) ← take 1 rest
      if version[0] ≠ Snapshot.version then .ok (.error (.snapshotVersion version[0]))
      else
        let (bits, rest) ← take 1 rest
        match Dialect.ofBits? bits[0] with
        | none => .ok (.error (.snapshotDialect bits[0]))
        | some dialect =>
            let state ← decodeState rest
            .ok (state.map fun s => (s, dialect))

/-- Taking bytes at an offset of an image gives the field at that offset. -/
theorem take_drop (b : Image) (offset count : Nat) (h : offset + count ≤ 4413) :
    take count (b.toList.drop offset) =
      .ok (Snapshot.field b offset count h, b.toList.drop (offset + count)) := by
  have hcount : count ≤ (b.toList.drop offset).length := by
    rw [List.length_drop, Vector.length_toList]
    omega
  have hhead : (b.toList.drop offset).take count = (Snapshot.field b offset count h).toList :=
    (Snapshot.toList_field b offset count h).symm
  rw [take, split_of_le hcount, Attempt.ok_bind, hhead, List.drop_drop]
  dsimp only
  rw [exactly_toList]
  rfl

/-- The same for a word. -/
theorem takeWord_drop (b : Image) (offset : Nat) (h : offset + 1 < 4413) :
    takeWord (b.toList.drop offset) =
      .ok (Snapshot.wordAt b offset h, b.toList.drop (offset + 2)) := by
  rw [takeWord, take_drop b offset 2 h, Attempt.ok_bind, Snapshot.wordAt]
  simp only [Snapshot.field, Vector.getElem_ofFn, Nat.add_zero]

/-- The same for several words. -/
theorem takeWords_drop (b : Image) (offset count : Nat) (h : offset + 2 * count ≤ 4413) :
    takeWords count (b.toList.drop offset) =
      .ok (Vector.ofFn fun k : Fin count => Snapshot.wordAt b (offset + 2 * k.val) (by omega),
        b.toList.drop (offset + 2 * count)) := by
  induction count with
  | zero => rfl
  | succ count ih =>
      rw [takeWords, ih (by omega), Attempt.ok_bind]
      dsimp only
      rw [takeWord_drop b _ (by omega), Vector.ofFn_succ]
      rfl

theorem ofSlots?_eq (slots : Vector UInt16 16) (depth : Nat) :
    Stack.ofSlots? slots depth = (CallStack.ofSlots? slots depth).map CallStack.bare := by
  rw [Stack.ofSlots?, CallStack.ofSlots?]
  split <;> rfl

/-- The same for a single byte. -/
theorem take_one_drop (b : Image) (offset : Nat) (h : offset < 4413) :
    take 1 (b.toList.drop offset) =
      .ok (#v[Snapshot.byteAt b offset], b.toList.drop (offset + 1)) := by
  rw [take_drop b offset 1 h, Snapshot.byteAt_eq b offset h]
  rfl

/-- What follows the header of an image is read to the end. -/
theorem decodeState_drop (b : Image) :
    decodeState (b.toList.drop 6) =
      .ok (match CallStack.ofSlots? (Snapshot.slotsOf b) (Snapshot.byteAt b 4154).toNat with
        | none => .error (.snapshotStackDepth (Snapshot.byteAt b 4154))
        | some stack => .ok (Snapshot.machineOf b stack).bare) := by
  have hcells : take 4096 (b.toList.drop 6) =
      .ok (Snapshot.field b 6 4096 (by decide), b.toList.drop 4102) :=
    take_drop b 6 4096 (by decide)
  have hmemory : Memory.blank.loadBytes 0 (Snapshot.field b 6 4096 (by decide)).toList =
      .ok ⟨Snapshot.field b 6 4096 (by decide)⟩ :=
    Snapshot.loadBytes_blank_cells ⟨Snapshot.field b 6 4096 (by decide)⟩
  have hregisters : take 16 (b.toList.drop 4102) =
      .ok (Snapshot.field b 4102 16 (by decide), b.toList.drop 4118) :=
    take_drop b 4102 16 (by decide)
  have hindex : takeWord (b.toList.drop 4118) =
      .ok (Snapshot.wordAt b 4118 (by decide), b.toList.drop 4120) :=
    takeWord_drop b 4118 (by decide)
  have hpc : takeWord (b.toList.drop 4120) =
      .ok (Snapshot.wordAt b 4120 (by decide), b.toList.drop 4122) :=
    takeWord_drop b 4120 (by decide)
  have hslots : takeWords 16 (b.toList.drop 4122) =
      .ok (Snapshot.slotsOf b, b.toList.drop 4154) :=
    takeWords_drop b 4122 16 (by decide)
  have hdepth := take_one_drop b 4154 (by decide)
  have htimers : take 2 (b.toList.drop 4155) = .ok (#v[b[4155], b[4156]], b.toList.drop 4157) :=
    take_drop b 4155 2 (by decide)
  have hscreen : take 256 (b.toList.drop 4157) =
      .ok (Snapshot.field b 4157 256 (by decide), b.toList.drop 4413) :=
    take_drop b 4157 256 (by decide)
  have hbyte : #v[Snapshot.byteAt b 4154][0] = Snapshot.byteAt b 4154 := rfl
  rw [decodeState, hcells, Attempt.ok_bind]
  simp only [loadBytes_eq, hmemory, hregisters, hindex, hpc, hslots, hdepth, Attempt.ok_bind, hbyte,
    ofSlots?_eq]
  cases CallStack.ofSlots? (Snapshot.slotsOf b) (Snapshot.byteAt b 4154).toNat with
  | none => rfl
  | some stack =>
      simp only [Option.map_some, htimers, hscreen, Attempt.ok_bind, unpack_eq]
      rfl

/-- An image is read, header first. -/
theorem decode_toList (b : Image) :
    decode b.toList = .ok ((Snapshot.ofImage b).map fun s => (s.machine.bare, s.dialect)) := by
  have hlength : b.toList.length = 4413 := Vector.length_toList
  have hsignature : take 4 b.toList = .ok (Snapshot.field b 0 4 (by decide), b.toList.drop 4) :=
    take_drop b 0 4 (by decide)
  have hletters : Snapshot.field b 0 4 (by decide) ≠ Snapshot.signature ↔
      Snapshot.stretch b 0 4 ≠ Snapshot.signature.toList :=
    (Snapshot.field_eq_iff b 0 4 (by decide) Snapshot.signature).not
  have hversion := take_one_drop b 4 (by decide)
  have hdialect : take 1 (b.toList.drop 5) = .ok (#v[Snapshot.byteAt b 5], b.toList.drop 6) :=
    take_one_drop b 5 (by decide)
  have hbyte : ∀ byte : UInt8, #v[byte][0] = byte := fun _ => rfl
  rw [decode, if_neg (not_not_intro hlength), hsignature, Attempt.ok_bind, Snapshot.ofImage_eq]
  simp only [hletters, hversion, hdialect, hbyte, Attempt.ok_bind]
  by_cases hsig : Snapshot.stretch b 0 4 ≠ Snapshot.signature.toList
  · rw [if_pos hsig, if_pos hsig]
    rfl
  rw [if_neg hsig, if_neg hsig]
  by_cases hver : Snapshot.byteAt b 4 ≠ Snapshot.version
  · rw [if_pos hver, if_pos hver]
    rfl
  rw [if_neg hver, if_neg hver]
  cases Dialect.ofBits? (Snapshot.byteAt b 5) with
  | none => rfl
  | some dialect =>
      simp only [decodeState_drop, Attempt.ok_bind]
      cases CallStack.ofSlots? (Snapshot.slotsOf b) (Snapshot.byteAt b 4154).toNat <;> rfl

/-- **Any bytes can be read**: they are refused for the reason for which they are not a
snapshot, or give the snapshot that they are. -/
theorem decode_eq (bytes : List UInt8) :
    decode bytes = .ok ((Snapshot.decode bytes).map fun s => (s.machine.bare, s.dialect)) := by
  by_cases hlength : bytes.length = 4413
  · rw [Snapshot.decode, dif_pos hlength]
    exact decode_toList (Snapshot.imageOf bytes hlength)
  · rw [decode, if_pos hlength, Snapshot.decode_of_length_ne hlength]
    rfl

/-! ## Writing -/

/-- Write a snapshot. -/
def encode (s : State) (d : Dialect) : Attempt (List UInt8) := do
  let screen ← pack s.display
  .ok <| List.flatten
    [Snapshot.signature.toList,
      [Snapshot.version, d.toBits],
      s.memory.cells.toList,
      s.registers.toList,
      Snapshot.wordBytes s.index,
      Snapshot.wordBytes s.pc,
      (Snapshot.slotBytes s.stack.slots).toList,
      [UInt8.ofNat s.stack.depth, s.timers.delay, s.timers.sound],
      screen.toList]

/-- Every machine can be written. -/
theorem encode_bare (m : Machine) (d : Dialect) :
    encode m.bare d = .ok (Snapshot.encode ⟨m, d⟩) := by
  rw [encode, pack_eq]
  rfl

end Guarded
end Chip8
