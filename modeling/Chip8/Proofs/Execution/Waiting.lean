import Chip8.Proofs.Execution.Trace
import Chip8.Proofs.Instruction.Naming

/-!
# Waiting for a key

The instruction `FX0A` that finds no key down moves the program counter back onto itself.  So
a machine that waits can be recognised by looking at it: the word under its program counter
is an `FX0A`, and no key is down (`Machine.Waits`).

Nothing else is needed.  A step asks to wait exactly in such a machine
(`signal_step_eq_awaitKey_iff`), it leaves the machine and the source entirely as they were
(`step_of_waits`), and a run that was stopped by it ends in such a machine (`run_waits`).
-/

namespace Chip8

/-- No key is the lowest one down exactly if the keys are released. -/
theorem Keys.lowest?_eq_none_iff_released (keys : Keys) :
    keys.lowest? = none ↔ keys = .released := by
  rw [lowest?_eq_none_iff]
  constructor
  · intro h
    apply Vector.ext
    intro i hi
    have hi' := h ⟨i, hi⟩
    rw [← getElem_released ⟨i, hi⟩] at hi'
    exact hi'
  · rintro rfl k
    exact getElem_released k

/-- The words that wait for a key are those that begin with `F` and end with `0A`. -/
theorem Instruction.decode_eq_awaitKey_iff (w : UInt16) (x : Register) :
    decode w = some (.awaitKey x) ↔
      Word.family w = 0xF ∧ Word.nn w = 0x0A ∧ x = Word.x w := by
  rw [decode_eq_some_iff]
  constructor
  · rintro ⟨⟨hfamily, hlow⟩, hx⟩
    exact ⟨hfamily, hlow, hx.symm⟩
  · rintro ⟨hfamily, hlow, hx⟩
    exact ⟨⟨hfamily, hlow⟩, hx.symm⟩

/-- A machine waits for a key if the word under its program counter is an `FX0A`, and no key is
down. -/
structure Machine.Waits (m : Machine) : Prop where
  family : Word.family (m.memory.readWord m.pc) = 0xF
  low : Word.nn (m.memory.readWord m.pc) = 0x0A
  keys : m.keys = .released

variable {σ : Type} [ByteSource σ]

/-- Every instruction but one lets the program go on. -/
theorem signal_execute_of_ne (d : Dialect) {i : Instruction} (hi : ∀ x, i ≠ .awaitKey x)
    (m : Machine) (s : σ) : (execute d i m s).signal = .proceed := by
  cases i with
  | ret =>
      simp only [execute]
      cases m.stack.pop? <;> rfl
  | awaitKey x => exact absurd rfl (hi x)
  | _ => rfl

/-! ## Steps -/

/-- **A machine that waits is left as it is by a step**, and so is the source. -/
theorem step_of_waits (d : Dialect) {m : Machine} (h : m.Waits) (s : σ) :
    (step d m s).machine = m ∧ (step d m s).source = s ∧ (step d m s).signal = .awaitKey := by
  have hdecode : Instruction.decode (m.memory.readWord m.pc) =
      some (.awaitKey (Word.x (m.memory.readWord m.pc))) :=
    (Instruction.decode_eq_awaitKey_iff _ _).mpr ⟨h.family, h.low, rfl⟩
  have hzero : ¬(m.memory.readWord m.pc = 0 ∧ d.haltOnZero = true) := by
    rintro ⟨hword, -⟩
    rw [hword, Instruction.decode_zero] at hdecode
    cases hdecode
  have hkeys : m.keys.lowest? = none := (Keys.lowest?_eq_none_iff_released _).mpr h.keys
  -- sixteen bits may overflow in between
  have hpc : m.pc + 2 - 2 = m.pc := UInt16.add_sub_cancel _ _
  simp only [step, executeWord, if_neg hzero, hdecode, execute, hkeys, hpc, and_self]

/-- A step that asks to wait was taken by a machine that waits. -/
theorem waits_of_signal_step (d : Dialect) {m : Machine} {s : σ}
    (h : (step d m s).signal = .awaitKey) : m.Waits := by
  change (executeWord d (m.memory.readWord m.pc) { m with pc := m.pc + 2 } s).signal = _ at h
  rcases executeWord_cases d (m.memory.readWord m.pc) { m with pc := m.pc + 2 } s with
    ⟨-, -, hsignal, -⟩ | ⟨i, hi, heq⟩
  · exact absurd h hsignal
  · rw [heq] at h
    by_cases hwaits : ∃ x, i = .awaitKey x
    · obtain ⟨x, rfl⟩ := hwaits
      obtain ⟨⟨hfamily, hlow⟩, -⟩ := hi
      refine ⟨hfamily, hlow, (Keys.lowest?_eq_none_iff_released _).mp ?_⟩
      cases hkeys : m.keys.lowest? with
      | none => rfl
      | some key =>
          simp only [execute, hkeys] at h
          cases h
    · rw [signal_execute_of_ne d (fun x hx => hwaits ⟨x, hx⟩)] at h
      cases h

/-- **A step asks to wait exactly in a machine that waits.** -/
theorem signal_step_eq_awaitKey_iff (d : Dialect) (m : Machine) (s : σ) :
    (step d m s).signal = .awaitKey ↔ m.Waits :=
  ⟨waits_of_signal_step d, fun h => (step_of_waits d h s).2.2⟩

/-! ## Runs -/

/-- A run that was stopped in order to wait ends in a machine that waits. -/
theorem run_waits (d : Dialect) (n : Nat) (m : Machine) (s : σ)
    (h : (run d n m s).signal = .awaitKey) : (run d n m s).machine.Waits := by
  have hstopped : (run d n m s).signal ≠ .proceed := by
    rw [h]
    decide
  -- the last step was taken by a machine that waits, and it has left that machine as it was
  obtain ⟨m', s', hmachine, hsignal⟩ := exists_last_step d n m s hstopped
  have hwaits : m'.Waits := waits_of_signal_step d (hsignal ▸ h)
  rwa [hmachine, (step_of_waits d hwaits s').1]

/-- A run of a machine that waits is over with its first step. -/
theorem run_of_waits (d : Dialect) (n : Nat) {m : Machine} (h : m.Waits) (s : σ) :
    (run d (n + 1) m s).machine = m ∧ (run d (n + 1) m s).source = s ∧
      (run d (n + 1) m s).signal = .awaitKey := by
  obtain ⟨hmachine, hsource, hsignal⟩ := step_of_waits d h s
  have hstopped : (step d m s).signal ≠ .proceed := by
    rw [hsignal]
    decide
  simp only [run, Run.extend]
  rw [Run.extend_of_signal_ne d n hstopped]
  exact ⟨hmachine, hsource, hsignal⟩

end Chip8
