import Chip8.Proofs.Execution.Addresses
import Chip8.Proofs.Execution.Effects

/-!
# Transfers between registers and memory

Three words move bytes between the registers and a run of cells: `FX55` writes the registers up to
`VX`, `FX65` reads them back, and `FX33` writes the decimal digits of one of them.  The run begins at
the index register and goes on around the end of memory, whether it is the twelve bits of a cell that
overflow or the sixteen of the register.

A run is written one cell after the other, and what has been written must not be written over by a
later byte of the same run.  It is not, because a run is shorter than memory: two of its cells with
different numbers are different (`Memory.read_writeRun`).  Writing what is there already changes
nothing (`Memory.writeRun_of_read`), and for this it does not matter how long the run is.

Between them these two facts say that a load undoes a store and a store undoes a load, if the index
register is set back in between.  It has to be, since both words leave it where the dialect says; and
the dialect may be another one by then.
-/

namespace Chip8

/-! ## Runs of cells -/

namespace Memory

/-- The address `k + 1` places on is `k` places on from the next one. -/
theorem add_ofNat_succ (start : UInt16) (k : Nat) :
    start + UInt16.ofNat (k + 1) = start + 1 + UInt16.ofNat k := by
  rw [Nat.add_comm, UInt16.ofNat_add, ← UInt16.add_assoc]
  rfl

/-- **What is written to a run of cells is read back**, as long as the run does not come around to
its first cell again. -/
theorem read_writeRun (m : Memory) (start : UInt16) {values : List UInt8}
    (hlength : values.length ≤ 4096) {k : Nat} (hk : k < values.length) :
    (m.writeRun start values).read (start + UInt16.ofNat k) = values[k] := by
  induction values generalizing m start k with
  | nil => cases hk
  | cons v values ih =>
      rw [List.length_cons] at hlength hk
      rw [writeRun]
      cases k with
      | zero =>
          -- the first byte is written first, and no other byte is written to its cell
          have hstart : start + UInt16.ofNat 0 = start := UInt16.add_zero start
          have hkept : ((m.write start v).writeRun (start + 1) values).read start =
              (m.write start v).read start := by
            by_contra hne
            obtain ⟨l, hl, hcell⟩ := exists_of_read_writeRun_ne _ hne
            rw [UInt16.toNat_add] at hcell
            have hone : (1 : UInt16).toNat = 1 := rfl
            omega
          rw [hstart, hkept, read_write, if_pos rfl, List.getElem_cons_zero]
      | succ k =>
          rw [add_ofNat_succ, ih _ _ (by omega) (by omega), List.getElem_cons_succ]

/-- Writing a byte where it is already changes nothing. -/
theorem write_read (m : Memory) (a : UInt16) : m.write a (m.read a) = m := by
  rw [write, read, Fin.getElem_fin, Vector.set_getElem_self]

/-- Writing a run of bytes where they are already changes nothing. -/
theorem writeRun_of_read (m : Memory) (start : UInt16) {values : List UInt8}
    (h : ∀ (k : Nat) (hk : k < values.length), values[k] = m.read (start + UInt16.ofNat k)) :
    m.writeRun start values = m := by
  induction values generalizing start with
  | nil => rfl
  | cons v values ih =>
      have hstart : start + UInt16.ofNat 0 = start := UInt16.add_zero start
      have hfirst : v = m.read start := hstart ▸ h 0 (Nat.zero_lt_succ _)
      rw [writeRun, hfirst, write_read]
      refine ih (start + 1) fun k hk => ?_
      rw [← add_ofNat_succ]
      exact h (k + 1) (Nat.succ_lt_succ hk)

end Memory

/-! ## What a transfer leaves -/

/-- By how much a dialect advances the index register in a transfer of the registers up to `x`. -/
def Dialect.advance (d : Dialect) (x : Register) : Nat :=
  if d.memoryLeaveIUnchanged then 0
  else if d.memoryIncrementByX then x.val
  else x.val + 1

namespace Machine

/-- The second machine is the first one after its registers up to `x` have been written to memory. -/
structure Stored (d : Dialect) (x : Register) (m m' : Machine) : Prop where
  cells : ∀ r ≤ x, m'.memory.beyond m.index r.val = m.reg r
  others : ∀ a : UInt16, (∀ k ≤ x.val, a.toNat % 4096 ≠ (m.index.toNat + k) % 4096) →
    m'.memory.read a = m.memory.read a
  index : m'.index.toNat = (m.index.toNat + d.advance x) % 65536
  rest : m' = { m with memory := m'.memory, index := m'.index }

/-- The second machine is the first one after its registers up to `x` have been read from memory. -/
structure Loaded (d : Dialect) (x : Register) (m m' : Machine) : Prop where
  registers : ∀ r ≤ x, m'.reg r = m.memory.beyond m.index r.val
  others : ∀ r, x < r → m'.reg r = m.reg r
  index : m'.index.toNat = (m.index.toNat + d.advance x) % 65536
  rest : m' = { m with registers := m'.registers, index := m'.index }

/-- The second machine is the first one after the decimal digits of register `x` have been written to
memory, the hundreds first. -/
structure Digitized (x : Register) (m m' : Machine) : Prop where
  digits : ∀ k < 3, (m'.memory.beyond m.index k).toNat ≤ 9
  value : 100 * (m'.memory.beyond m.index 0).toNat + 10 * (m'.memory.beyond m.index 1).toNat +
    (m'.memory.beyond m.index 2).toNat = (m.reg x).toNat
  others : ∀ a : UInt16, (∀ k < 3, a.toNat % 4096 ≠ (m.index.toNat + k) % 4096) →
    m'.memory.read a = m.memory.read a
  rest : m' = { m with memory := m'.memory }

variable (m : Machine) (d : Dialect) (x : Register)

theorem toNat_indexAfterTransfer :
    (m.indexAfterTransfer d x).toNat = (m.index.toNat + d.advance x) % 65536 := by
  have hx := x.isLt
  have hindex := m.index.toNat_lt
  unfold indexAfterTransfer Dialect.advance
  split
  · omega
  · split <;> rw [UInt16.toNat_add, UInt16.toNat_ofNat'] <;> omega

theorem length_take_registers : (m.registers.toList.take (x.val + 1)).length = x.val + 1 := by
  have hx := x.isLt
  rw [List.length_take, Vector.length_toList]
  omega

theorem getElem_take_registers {k : Nat} (hk : k < (m.registers.toList.take (x.val + 1)).length)
    (hk' : k < 16) : (m.registers.toList.take (x.val + 1))[k] = m.reg ⟨k, hk'⟩ := by
  rw [List.getElem_take, Vector.getElem_toList]
  rfl

theorem stored_store : m.Stored d x (m.store d x) where
  cells r hr := by
    have hk : r.val < (m.registers.toList.take (x.val + 1)).length := by
      rw [length_take_registers]
      exact Nat.lt_succ_of_le hr
    have hshort : (m.registers.toList.take (x.val + 1)).length ≤ 4096 := by
      rw [length_take_registers]
      omega
    rw [Memory.beyond_eq, store, m.memory.read_writeRun _ hshort hk, getElem_take_registers]
  others a ha := by
    by_contra hne
    obtain ⟨k, hk, hcell⟩ := m.memory.exists_of_read_writeRun_ne hne
    rw [length_take_registers] at hk
    exact ha k (Nat.le_of_lt_succ hk) hcell
  index := m.toNat_indexAfterTransfer d x
  rest := rfl

theorem loaded_fetch : m.Loaded d x (m.fetch d x) where
  registers r hr := by
    rw [Memory.beyond_eq]
    simp [fetch, reg, hr]
  others r hr := by
    simp [fetch, reg, Fin.not_le.mpr hr]
  index := m.toNat_indexAfterTransfer d x
  rest := rfl

/-- The three digits of a byte are digits, and they spell the byte. -/
theorem decimalDigits_spell (v : UInt8) :
    (v / 100).toNat ≤ 9 ∧ (v / 10 % 10).toNat ≤ 9 ∧ (v % 10).toNat ≤ 9 ∧
      100 * (v / 100).toNat + 10 * (v / 10 % 10).toNat + (v % 10).toNat = v.toNat := by
  have hv := v.toNat_lt
  have hhundreds : (v / 100).toNat = v.toNat / 100 := UInt8.toNat_div v 100
  have htens : (v / 10 % 10).toNat = v.toNat / 10 % 10 := by
    rw [UInt8.toNat_mod, UInt8.toNat_div]
    rfl
  have hunits : (v % 10).toNat = v.toNat % 10 := UInt8.toNat_mod v 10
  omega

theorem digitized_writeRun :
    m.Digitized x { m with memory := m.memory.writeRun m.index (decimalDigits (m.reg x)) } := by
  obtain ⟨hhundreds, htens, hunits, hvalue⟩ := decimalDigits_spell (m.reg x)
  have hread : ∀ (k : Nat) (hk : k < (decimalDigits (m.reg x)).length),
      (m.memory.writeRun m.index (decimalDigits (m.reg x))).beyond m.index k =
        (decimalDigits (m.reg x))[k] := fun k hk => by
    have hshort : (decimalDigits (m.reg x)).length ≤ 4096 := Nat.le_add_left 3 4093
    rw [Memory.beyond_eq, m.memory.read_writeRun m.index hshort hk]
  have h0 := hread 0 (by decide : 0 < 3)
  have h1 := hread 1 (by decide : 1 < 3)
  have h2 := hread 2 (by decide : 2 < 3)
  refine ⟨fun k hk => ?digits, ?value, fun a ha => ?others, rfl⟩
  case digits =>
    match k with
    | 0 => exact h0 ▸ hhundreds
    | 1 => exact h1 ▸ htens
    | 2 => exact h2 ▸ hunits
  case value =>
    rw [h0, h1, h2]
    exact hvalue
  case others =>
    by_contra hne
    obtain ⟨k, hk, hcell⟩ := m.memory.exists_of_read_writeRun_ne hne
    exact ha k hk hcell

variable {m d x}

/-- **A load undoes a store**, from where the store has begun. -/
theorem Stored.reg_fetch {m' : Machine} (h : m.Stored d x m') {n : Machine}
    (hmemory : n.memory = m'.memory) (hindex : n.index = m.index) (d' : Dialect) {r : Register}
    (hr : r ≤ x) : (n.fetch d' x).reg r = m.reg r := by
  rw [(n.loaded_fetch d' x).registers r hr, hmemory, hindex]
  exact h.cells r hr

/-- **A store undoes a load**, from where the load has begun. -/
theorem Loaded.memory_store {m' : Machine} (h : m.Loaded d x m') {n : Machine}
    (hmemory : n.memory = m'.memory) (hregisters : n.registers = m'.registers)
    (hindex : n.index = m.index) (d' : Dialect) : (n.store d' x).memory = m.memory := by
  have hsame : n.memory = m.memory := by
    rw [hmemory, h.rest]
  rw [store, hsame, hindex]
  refine m.memory.writeRun_of_read m.index fun k hk => ?_
  have hx := x.isLt
  have hk' := hk
  rw [length_take_registers] at hk'
  have hloaded := h.registers ⟨k, by omega⟩ (Nat.le_of_lt_succ hk')
  rw [n.getElem_take_registers x hk (by omega), ← Memory.beyond_eq, ← hloaded, reg, reg, hregisters]

end Machine

/-! ## Words -/

variable {σ : Type} [ByteSource σ]

/-- **The transfers are exact, and a load and a store undo each other.**  Let `w`, `w'` and `v` be an
`FX55`, an `FX65` with the same `X`, and an `FX33`.

* `FX55` writes each register up to `VX` to the cell of its number, counted from the index register
  on modulo 4096.  It changes no other cell, and apart from memory only the index register.
* `FX65` reads each of these registers from that cell.  It changes no other register, and apart from
  registers only the index register.
* Either advances the index register by 0, `X` or `X + 1` modulo 65536, as the dialect says.
* If `FX65` is executed with the memory that `FX55` has left and the index register set back, then the
  registers up to `VX` hold what they did before.  Whatever else has been changed in between, other
  registers and the dialect included, makes no difference.
* If `FX55` is executed with the memory and the registers that `FX65` has left and the index register
  set back, then memory is what it was before.
* `FX33` writes three digits, none above 9, which spell `VX`, to the three cells from the index
  register on modulo 4096, and it changes nothing else. -/
theorem executeWord_transfers {w w' v : UInt16} (hw : Word.IsF w 0x55) (hw' : Word.IsF w' 0x65)
    (hx : Word.x w' = Word.x w) (hv : Word.IsF v 0x33) (d : Dialect) (m : Machine) (s : σ) :
    let stored := (executeWord d w m s).machine
    let loaded := (executeWord d w' m s).machine
    m.Stored d (Word.x w) stored ∧
      m.Loaded d (Word.x w) loaded ∧
      (∀ (d' : Dialect) (n : Machine) (s' : σ), n.memory = stored.memory → n.index = m.index →
        ∀ r ≤ Word.x w, (executeWord d' w' n s').machine.reg r = m.reg r) ∧
      (∀ (d' : Dialect) (n : Machine) (s' : σ), n.memory = loaded.memory →
        n.registers = loaded.registers → n.index = m.index →
        (executeWord d' w n s').machine.memory = m.memory) ∧
      m.Digitized (Word.x v) (executeWord d v m s).machine := by
  have hstore : ∀ d' n (s' : σ), executeWord d' w n s' = proceed (n.store d' (Word.x w)) s' :=
    executeWord_of_namedBy (i := .store (Word.x w)) ⟨hw, rfl⟩
  have hload : ∀ d' n (s' : σ), executeWord d' w' n s' = proceed (n.fetch d' (Word.x w)) s' :=
    executeWord_of_namedBy (i := .load (Word.x w)) ⟨hw', hx⟩
  have hdecimal := executeWord_of_namedBy (i := .decimal (Word.x v)) ⟨hv, rfl⟩ d m s
  simp only [hstore, hload, hdecimal]
  refine ⟨m.stored_store d _, m.loaded_fetch d _, ?reload, ?restore, m.digitized_writeRun _⟩
  case reload =>
    intro d' n s' hmemory hindex r hr
    exact (m.stored_store d _).reg_fetch hmemory hindex d' hr
  case restore =>
    intro d' n s' hmemory hregisters hindex
    exact (m.loaded_fetch d _).memory_store hmemory hregisters hindex d'

/-- A machine whose index register is two cells before the end of memory, and before sixteen bits
overflow. -/
def pointingAcrossEnd : Machine :=
  { ((Machine.initial.setReg .first 11).setReg (Word.x 0xF100) 22).setReg (Word.x 0xF200) 254 with
    index := 0xFFFE }

/-- Three registers are written around the end of memory and the index register with them; another
dialect reads them back after all registers have been cleared, and the third is spelled there as
`254`. -/
theorem executeWord_transfers_pointingAcrossEnd :
    let m := pointingAcrossEnd
    let stored := (executeWord .plain 0xF255 m (Seeded.mk 7)).machine
    let cleared := { stored with registers := Machine.initial.registers, index := m.index }
    let spelled := (executeWord .plain 0xF233 m (Seeded.mk 7)).machine
    Word.IsF 0xF255 0x55 ∧ Word.IsF 0xF265 0x65 ∧ Word.x 0xF265 = Word.x 0xF255 ∧
      Word.IsF 0xF233 0x33 ∧
      stored.memory.beyond 0xFFFE 2 = 254 ∧ stored.index.toNat = 1 ∧
      (executeWord Preset.superChip.dialect 0xF265 cleared (Seeded.mk 7)).machine.reg
        (Word.x 0xF255) = 254 ∧
      100 * (spelled.memory.beyond 0xFFFE 0).toNat + 10 * (spelled.memory.beyond 0xFFFE 1).toNat +
        (spelled.memory.beyond 0xFFFE 2).toNat = 254 := by
  intro m stored cleared spelled
  have hw : Word.IsF 0xF255 0x55 := by decide
  have hw' : Word.IsF 0xF265 0x65 := by decide
  have hx : Word.x 0xF265 = Word.x 0xF255 := by decide
  have hv : Word.IsF 0xF233 0x33 := by decide
  obtain ⟨hstored, -, hreload, -, hdigits⟩ :=
    executeWord_transfers hw hw' hx hv .plain m (Seeded.mk 7)
  have hthird : m.reg (Word.x 0xF255) = 254 := by decide
  have hadvanced : (m.index.toNat + Dialect.plain.advance (Word.x 0xF255)) % 65536 = 1 := by decide
  refine ⟨hw, hw', hx, hv, ?_, hstored.index.trans hadvanced, ?_, ?_⟩
  · exact (hstored.cells (Word.x 0xF255) (Fin.le_refl _)).trans hthird
  · exact (hreload Preset.superChip.dialect cleared (Seeded.mk 7) rfl rfl _
      (Fin.le_refl _)).trans hthird
  · exact hdigits.value.trans (congrArg UInt8.toNat hthird)

end Chip8
