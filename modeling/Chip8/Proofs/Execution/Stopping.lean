import Chip8.Proofs.Execution.Waiting

/-!
# Stopping for good

No instruction stops the machine.  The word `0000` does, which is not an instruction, and only in
the dialects that stop on it.  So whether a step stops the machine can be told from the word under
its program counter (`signal_step_eq_halt_iff`), and whether a run does from the words that it
executes (`signal_run_eq_halt_iff`): a run never goes on behind a step that stops it, so it is
enough that the word is among them.
-/

namespace Chip8

variable {σ : Type} [ByteSource σ]

theorem signal_execute_ne_halt (d : Dialect) (i : Instruction) (m : Machine) (s : σ) :
    (execute d i m s).signal ≠ .halt := by
  by_cases hwaits : ∃ x, i = .awaitKey x
  · obtain ⟨x, rfl⟩ := hwaits
    simp only [execute]
    cases m.keys.lowest? <;> exact Signal.noConfusion
  · rw [signal_execute_of_ne d (fun x hx => hwaits ⟨x, hx⟩)]
    exact Signal.noConfusion

theorem signal_executeWord_eq_halt_iff (d : Dialect) (w : UInt16) (m : Machine) (s : σ) :
    (executeWord d w m s).signal = .halt ↔ w = 0 ∧ d.haltOnZero = true := by
  unfold executeWord
  split
  · rename_i hzero
    exact iff_of_true rfl hzero
  · rename_i hzero
    refine iff_of_false ?_ hzero
    split
    · exact signal_execute_ne_halt d _ m s
    · exact Signal.noConfusion

/-- **A step stops the machine exactly on the word `0000`**, in a dialect that stops on it. -/
theorem signal_step_eq_halt_iff (d : Dialect) (m : Machine) (s : σ) :
    (step d m s).signal = .halt ↔ m.memory.readWord m.pc = 0 ∧ d.haltOnZero = true :=
  signal_executeWord_eq_halt_iff d _ _ s

theorem Run.signal_extend_eq_halt_iff (d : Dialect) (n : Nat) (m : Machine) (s : σ) (k : Nat)
    (notices : Array Notice) :
    (Run.extend d n ⟨m, s, .proceed, k, notices⟩).signal = .halt ↔
      d.haltOnZero = true ∧ 0 ∈ executed d n m s := by
  have hrun : (Run.extend d n ⟨m, s, .proceed, k, notices⟩).signal = .halt ↔
      Signal.proceed = .halt ∨ (d.haltOnZero = true ∧ 0 ∈ executed d n m s) := by
    refine Run.visited_induction (P := fun machines r r' => r'.signal = .halt ↔
      r.signal = .halt ∨ (d.haltOnZero = true ∧
        0 ∈ machines.map fun m : Machine => m.memory.readWord m.pc)) d ?_ ?_ n m s k notices
    · intro r
      simp
    · intro m s k notices machines last hlast
      -- the first step has stopped the run, or one of the others
      rw [hlast, signal_step_eq_halt_iff, List.map_cons, List.mem_cons, and_comm,
        ← and_or_left, eq_comm (a := (0 : UInt16))]
      simp
  exact hrun.trans (or_iff_right Signal.noConfusion)

/-- **A run is stopped for good exactly if it executes the word `0000`**, in a dialect that stops on
it. -/
theorem signal_run_eq_halt_iff (d : Dialect) (n : Nat) (m : Machine) (s : σ) :
    (run d n m s).signal = .halt ↔ d.haltOnZero = true ∧ 0 ∈ executed d n m s :=
  Run.signal_extend_eq_halt_iff d n m s 0 #[]

end Chip8
