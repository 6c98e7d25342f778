import Chip8.Proofs.Execution.Painting
import Chip8.Proofs.Instruction.Naming

/-!
# What an instruction leaves alone

An instruction is documented by what it does.  This file is about the rest: which parts of the
machine it does *not* touch.  A stray write --- a flag that is set by the wrong addition, an
index register that is moved by a transfer of digits --- is not seen by whoever only looks at
the target register.

`Machine.Confined` lists, part by part, the words that may have changed it.  It is a relation
between the machine before and the machine after, and it says nothing about what the new
values are.  Two of its parts need more than a list of words.

* **Registers.**  A word has a target (`Word.Targets`), which is the register named by its
  second digit, and `FX65` has all registers up to that one.  Besides, some words set the flag
  register (`Word.SetsFlag`), and for the logical operations this depends on the dialect.
* **Memory.**  `FX33` and `FX55` write a run of cells from the index register on, around the
  end of memory if need be (`Word.Stores`).

The program counter is missing from the list, since every word may change it.
-/

namespace Chip8

namespace Word

/-- The registers that a word gives a new value to. -/
def Targets (w : UInt16) (r : Register) : Prop :=
  (r = x w ∧ (family w = 0x6 ∨ family w = 0x7 ∨ (∃ f : Operation, Is8 w f.digit) ∨
      family w = 0xC ∨ IsF w 0x07 ∨ IsF w 0x0A)) ∨
    (r ≤ x w ∧ IsF w 0x65)

/-- The words that set the flag register, whatever their target is. -/
def SetsFlag (d : Dialect) (w : UInt16) : Prop :=
  (d.vfReset = true ∧ (Is8 w 0x1 ∨ Is8 w 0x2 ∨ Is8 w 0x3)) ∨
    Is8 w 0x4 ∨ Is8 w 0x5 ∨ Is8 w 0x6 ∨ Is8 w 0x7 ∨ Is8 w 0xE ∨ family w = 0xD

/-- The words that may move the index register. -/
def MovesIndex (d : Dialect) (w : UInt16) : Prop :=
  family w = 0xA ∨ IsF w 0x1E ∨ IsF w 0x29 ∨
    (d.memoryLeaveIUnchanged = false ∧ (IsF w 0x55 ∨ IsF w 0x65))

/-- The cells that a word writes, given the index register: three of them, or one for each
register up to `VX`. -/
def Stores (w index : UInt16) (cell : Nat) : Prop :=
  ∃ k, cell = (index.toNat + k) % 4096 ∧
    ((IsF w 0x33 ∧ k < 3) ∨ (IsF w 0x55 ∧ k ≤ (x w).val))

end Word

/-! ## Writing runs of cells -/

/-- A write to a run of addresses is seen at no cell but theirs. -/
theorem Memory.exists_of_read_writeRun_ne (m : Memory) {start a : UInt16} {values : List UInt8}
    (h : (m.writeRun start values).read a ≠ m.read a) :
    ∃ k < values.length, a.toNat % 4096 = (start.toNat + k) % 4096 := by
  induction values generalizing m start with
  | nil => exact absurd rfl h
  | cons v values ih =>
      by_cases hcell : cell start = cell a
      · rw [cell_eq_iff] at hcell
        exact ⟨0, Nat.zero_lt_succ _, hcell.symm⟩
      · have hfirst : (m.write start v).read a = m.read a := by
          rw [read_write, if_neg hcell]
        rw [writeRun, ← hfirst] at h
        obtain ⟨k, hk, hak⟩ := ih _ h
        refine ⟨k + 1, Nat.succ_lt_succ hk, ?_⟩
        rw [hak, UInt16.toNat_add]
        have hone : (1 : UInt16).toNat = 1 := rfl
        omega

/-! ## Transfers -/

namespace Machine

theorem memoryLeaveIUnchanged_of_ne {m : Machine} {d : Dialect} {x : Register}
    (h : m.indexAfterTransfer d x ≠ m.index) : d.memoryLeaveIUnchanged = false := by
  cases hleave : d.memoryLeaveIUnchanged with
  | false => rfl
  | true => exact absurd (if_pos hleave) h

theorem le_of_reg_fetch_ne {m : Machine} {d : Dialect} {x r : Register}
    (h : (m.fetch d x).reg r ≠ m.reg r) : r ≤ x := by
  by_cases hle : r ≤ x
  · exact hle
  · exact absurd (by simp [fetch, reg, hle]) h

end Machine

/-! ## The parts of a machine -/

/-- What is between the machine before a word was executed and the machine after it: a part that
is not the same has been changed by one of the words that may do so. -/
structure Machine.Confined (d : Dialect) (w : UInt16) (m m' : Machine) : Prop where
  keys : m'.keys = m.keys
  memory : ∀ a : UInt16, m'.memory.read a ≠ m.memory.read a →
    Word.Stores w m.index (a.toNat % 4096)
  registers : ∀ r, m'.reg r ≠ m.reg r → Word.Targets w r ∨ (r = .flag ∧ Word.SetsFlag d w)
  index : m'.index ≠ m.index → Word.MovesIndex d w
  stack : m'.stack ≠ m.stack → Word.family w = 0x2 ∨ w = 0x00EE
  pixels : m'.display.pixels ≠ m.display.pixels → w = 0x00E0 ∨ Word.family w = 0xD
  delay : m'.timers.delay ≠ m.timers.delay → Word.IsF w 0x15
  sound : m'.timers.sound ≠ m.timers.sound → Word.IsF w 0x18

namespace Machine.Confined

variable {d : Dialect} {w : UInt16} {m m' : Machine}

theorem refl (d : Dialect) (w : UInt16) (m : Machine) : m.Confined d w m where
  keys := rfl
  memory _ h := absurd rfl h
  registers _ h := absurd rfl h
  index h := absurd rfl h
  stack h := absurd rfl h
  pixels h := absurd rfl h
  delay h := absurd rfl h
  sound h := absurd rfl h

theorem goto (h : m.Confined d w m') (a : UInt16) : m.Confined d w { m' with pc := a } :=
  { h with }

theorem skipIf (h : m.Confined d w m') (c : Bool) : m.Confined d w (m'.skipIf c) := by
  cases c with
  | false => exact h
  | true => exact h.goto _

theorem requestRedraw (h : m.Confined d w m') :
    m.Confined d w { m' with display := m'.display.requestRedraw } :=
  { h with }

theorem withRegisters (h : m.Confined d w m') {registers : Vector UInt8 16}
    (hr : ∀ r, { m' with registers := registers }.reg r ≠ m.reg r →
      Word.Targets w r ∨ (r = .flag ∧ Word.SetsFlag d w)) :
    m.Confined d w { m' with registers := registers } :=
  { h with registers := hr }

theorem setReg (h : m.Confined d w m') {r : Register}
    (hr : Word.Targets w r ∨ (r = .flag ∧ Word.SetsFlag d w)) (v : UInt8) :
    m.Confined d w (m'.setReg r v) := by
  refine h.withRegisters fun q hq => ?_
  change (m'.setReg r v).reg q ≠ m.reg q at hq
  rw [reg_setReg] at hq
  by_cases hrq : r = q
  · exact hrq ▸ hr
  · rw [if_neg hrq] at hq
    exact h.registers q hq

/-- The index register after a transfer. -/
theorem afterTransfer (hw : Word.IsF w 0x55 ∨ Word.IsF w 0x65) (m : Machine) :
    m.Confined d w { m with index := m.indexAfterTransfer d (Word.x w) } := by
  refine { refl d w m with index := fun h => ?_ }
  exact Or.inr (Or.inr (Or.inr ⟨memoryLeaveIUnchanged_of_ne h, hw⟩))

end Machine.Confined

/-- An operation that sets the flag belongs to a word that may. -/
theorem Operation.setsFlag_of_apply {f : Operation} {d : Dialect} {a b value : UInt8} {flag : Bool}
    (h : f.apply d a b = (value, some flag)) {w : UInt16} (hw : Word.Is8 w f.digit) :
    Word.SetsFlag d w := by
  cases f with
  | copy => cases h
  | or | and | xor =>
      cases hreset : d.vfReset with
      | false => simp [apply, hreset] at h
      | true => simp_all [Word.SetsFlag, digit]
  | _ => simp_all [Word.SetsFlag, digit]

namespace Machine.Confined

theorem combine {w : UInt16} {f : Operation} {x y : Register}
    (hi : (Instruction.combine f x y).NamedBy w) (d : Dialect) (m : Machine) :
    m.Confined d w (m.combine d f x y) := by
  obtain ⟨hw, rfl, rfl⟩ := hi
  have htarget : Word.Targets w (Word.x w) :=
    Or.inl ⟨rfl, Or.inr (Or.inr (Or.inl ⟨f, hw⟩))⟩
  rw [Machine.combine]
  rcases happly : f.apply d (m.reg (Word.x w)) (m.reg (Word.y w)) with ⟨value, _ | flag⟩
  · exact (refl d w m).setReg (Or.inl htarget) value
  · have hflag := Operation.setsFlag_of_apply happly hw
    exact ((refl d w m).setReg (Or.inl htarget) value).setReg (Or.inr ⟨rfl, hflag⟩) _

end Machine.Confined

variable {σ : Type} [ByteSource σ]

/-- **An instruction touches only what its words may touch.** -/
theorem Machine.Confined.execute {w : UInt16} {i : Instruction} (hi : i.NamedBy w) (d : Dialect)
    (m : Machine) (s : σ) : m.Confined d w (Chip8.execute d i m s).machine := by
  have hsame := refl d w m
  cases i with
  | clear => exact { hsame with pixels := fun _ => Or.inl hi }
  | ret =>
      simp only [Chip8.execute]
      cases m.stack.pop? with
      | none => exact hsame.requestRedraw
      | some p => exact { hsame with stack := fun _ => Or.inr hi }
  | jump a => exact hsame.goto a
  | call a => exact { hsame with stack := fun _ => Or.inl hi.1 }
  | skipIfValue | skipUnlessValue | skipIfSame | skipUnlessSame | skipIfKey | skipUnlessKey =>
      exact hsame.skipIf _
  | set r v =>
      obtain ⟨hw, rfl, -⟩ := hi
      exact hsame.setReg (Or.inl (Or.inl ⟨rfl, Or.inl hw⟩)) v
  | increase r v =>
      obtain ⟨hw, rfl, -⟩ := hi
      exact hsame.setReg (Or.inl (Or.inl ⟨rfl, Or.inr (Or.inl hw)⟩)) _
  | combine f r q => exact combine hi d m
  | setIndex a => exact { hsame with index := fun _ => Or.inl hi.1 }
  | jumpPlus r a => exact hsame.goto _
  | random r v =>
      obtain ⟨hw, rfl, -⟩ := hi
      exact hsame.setReg (Or.inl (Or.inl ⟨rfl, by simp [hw]⟩)) _
  | draw r q height =>
      have hflag : Word.SetsFlag d w := by simp [Word.SetsFlag, hi.1]
      refine setReg ?_ (Or.inr ⟨rfl, hflag⟩) _
      exact { hsame with pixels := fun _ => Or.inr hi.1 }
  | readDelay r =>
      obtain ⟨hw, rfl⟩ := hi
      exact hsame.setReg (Or.inl (Or.inl ⟨rfl, by simp [hw]⟩)) _
  | awaitKey r =>
      obtain ⟨hw, rfl⟩ := hi
      simp only [Chip8.execute]
      cases m.keys.lowest? with
      | some key => exact hsame.setReg (Or.inl (Or.inl ⟨rfl, by simp [hw]⟩)) _
      | none => exact hsame.goto _
  | setDelay r => exact { hsame with delay := fun _ => hi.1 }
  | setSound r => exact { hsame with sound := fun _ => hi.1 }
  | increaseIndex r => exact { hsame with index := fun _ => Or.inr (Or.inl hi.1) }
  | glyph r => exact { hsame with index := fun _ => Or.inr (Or.inr (Or.inl hi.1)) }
  | decimal r =>
      refine { hsame with memory := fun a ha => ?_ }
      obtain ⟨k, hk, hak⟩ := m.memory.exists_of_read_writeRun_ne ha
      exact ⟨k, hak, Or.inl ⟨hi.1, hk⟩⟩
  | store r =>
      obtain ⟨hw, rfl⟩ := hi
      refine { afterTransfer (Or.inl hw) m with memory := fun a ha => ?_ }
      obtain ⟨k, hk, hak⟩ := m.memory.exists_of_read_writeRun_ne ha
      rw [List.length_take] at hk
      exact ⟨k, hak, Or.inr ⟨hw, by omega⟩⟩
  | load r =>
      obtain ⟨hw, rfl⟩ := hi
      have hregisters : ∀ q, (m.fetch d (Word.x w)).reg q ≠ m.reg q →
          Word.Targets w q ∨ (q = .flag ∧ Word.SetsFlag d w) :=
        fun q hq => Or.inl (Or.inr ⟨le_of_reg_fetch_ne hq, hw⟩)
      exact (afterTransfer (Or.inr hw) m).withRegisters hregisters

/-! ## Words -/

theorem Machine.Confined.executeWord (d : Dialect) (w : UInt16) (m : Machine) (s : σ) :
    m.Confined d w (Chip8.executeWord d w m s).machine := by
  rcases executeWord_cases d w m s with ⟨hmachine, -, -⟩ | ⟨i, hi, heq⟩
  · rw [hmachine]
    exact refl d w m
  · rw [heq]
    exact Confined.execute hi d m s

theorem source_execute_of_ne (d : Dialect) {i : Instruction} (hi : ∀ r v, i ≠ .random r v)
    (m : Machine) (s : σ) : (execute d i m s).source = s := by
  cases i with
  | random r v => exact absurd rfl (hi r v)
  | ret =>
      simp only [execute]
      cases m.stack.pop? <;> rfl
  | awaitKey r =>
      simp only [execute]
      cases m.keys.lowest? <;> rfl
  | _ => rfl

/-- **Only `CXNN` draws a random byte**, and it always draws one. -/
theorem source_executeWord (d : Dialect) (w : UInt16) (m : Machine) (s : σ) :
    (executeWord d w m s).source =
      if Word.family w = 0xC then (ByteSource.next s).2 else s := by
  by_cases hw : Word.family w = 0xC
  · have hrandom : (Instruction.random (Word.x w) (Word.nn w)).NamedBy w := ⟨hw, rfl, rfl⟩
    rw [if_pos hw, executeWord_of_namedBy hrandom]
    rfl
  · rw [if_neg hw]
    rcases executeWord_cases d w m s with ⟨-, hsource, -⟩ | ⟨i, hi, heq⟩
    · exact hsource
    · rw [heq]
      refine source_execute_of_ne d (fun r v hrandom => hw ?_) m s
      rw [hrandom] at hi
      exact hi.1

/-- **Each instruction touches only what its family allows.**  Whatever the dialect and the
machine, executing a word changes no part of the machine that `Machine.Confined` does not let it
change.

* The keys are never changed.
* Memory is changed by `FX33` in the three cells, and by `FX55` in the `X + 1` cells, that follow
  each other from the index register on modulo 4096.
* A register that is changed is the target of the word --- which is `VX`, or one of the
  registers up to `VX` for `FX65` --- or it is the flag register, and the word is one of `8XY1`,
  `8XY2`, `8XY3` in a dialect that resets the flag, `8XY4` to `8XY7`, `8XYE` and `DXYN`.
* The index register is changed by `ANNN`, `FX1E` and `FX29`, and by `FX55` and `FX65` unless the
  dialect leaves it alone; the stack by `2NNN` and `00EE`; the pixels by `00E0` and `DXYN`; the
  delay timer by `FX15`, and the sound timer by `FX18`.

The redraw flag is up afterwards exactly if it was up before or the word is `00E0`, `00EE` or
`DXYN`.  Exactly one byte is drawn for `CXNN`, whatever its mask, and none for any other word. -/
theorem executeWord_confined (d : Dialect) (w : UInt16) (m : Machine) (s : σ) :
    m.Confined d w (executeWord d w m s).machine ∧
      ((executeWord d w m s).machine.display.redraw = true ↔
        Word.Paints w ∨ m.display.redraw = true) ∧
      (executeWord d w m s).source =
        (if Word.family w = 0xC then (ByteSource.next s).2 else s) ∧
      (executeWord d w m (Recorder.mk s [])).source.drawn =
        (if Word.family w = 0xC then [(ByteSource.next s).1] else []) := by
  refine ⟨Machine.Confined.executeWord d w m s, redraw_executeWord d w m s,
    source_executeWord d w m s, ?_⟩
  rw [source_executeWord]
  split <;> rfl

end Chip8
