import Chip8.Proofs.Execution.Redraw
import Chip8.Proofs.Execution.Trace
import Chip8.Proofs.Instruction.Naming

/-!
# Painting

Three kinds of words raise the redraw flag: `00E0`, `00EE` and `DXYN`.  The second of them
changes no pixel, so a raised flag does not mean that there is something new to see.  What
has to hold is the converse: as long as the flag is down, the screen is the one it was.

* `redraw_run` says which words a run must have executed for the flag to be up at its end.
* `display_run_of_redraw` says that the screen is unchanged if the flag is down at its end.
-/

namespace Chip8

/-- The words that raise the redraw flag: `00E0`, `00EE` and `DXYN`. -/
def Word.Paints (w : UInt16) : Prop := w = 0x00E0 ∨ w = 0x00EE ∨ Word.family w = 0xD

/-- They are the words of the instructions that raise it. -/
theorem Word.paints_iff (w : UInt16) :
    Word.Paints w ↔ ∃ i, Instruction.decode w = some i ∧ i.paints = true := by
  constructor
  · rintro (rfl | rfl | hfamily)
    · exact ⟨.clear, by decide, rfl⟩
    · exact ⟨.ret, by decide, rfl⟩
    · refine ⟨.draw (x w) (y w) (n w), ?_, rfl⟩
      exact (Instruction.decode_eq_some_iff _ _).mpr ⟨hfamily, rfl, rfl, rfl⟩
  · rintro ⟨i, hi, hpaints⟩
    rw [Instruction.decode_eq_some_iff] at hi
    cases i with
    | clear => exact Or.inl hi
    | ret => exact Or.inr (Or.inl hi)
    | draw r s height => exact Or.inr (Or.inr hi.1)
    | _ => cases hpaints

variable {σ : Type} [ByteSource σ]

/-! ## The flag -/

/-- After an instruction the flag is up if the instruction raises it, or if it was up. -/
theorem redraw_execute (d : Dialect) (i : Instruction) (m : Machine) (s : σ) :
    (execute d i m s).machine.display.redraw = (i.paints || m.display.redraw) := by
  have h := execute_withRedraw d i m s m.display.redraw
  exact congrArg (fun o : Outcome σ => o.machine.display.redraw) h

/-- The same for a word. -/
theorem redraw_executeWord (d : Dialect) (w : UInt16) (m : Machine) (s : σ) :
    (executeWord d w m s).machine.display.redraw = true ↔
      Word.Paints w ∨ m.display.redraw = true := by
  rw [Word.paints_iff]
  rcases executeWord_cases d w m s with ⟨hmachine, -, -, hdecode⟩ | ⟨i, hi, heq⟩
  · simp [hmachine, hdecode]
  · rw [heq, redraw_execute, (Instruction.decode_eq_some_iff w i).mpr hi]
    simp

/-- The same for a step: the word is the one under the program counter. -/
theorem redraw_step (d : Dialect) (m : Machine) (s : σ) :
    (step d m s).machine.display.redraw = true ↔
      Word.Paints (m.memory.readWord m.pc) ∨ m.display.redraw = true :=
  redraw_executeWord d (m.memory.readWord m.pc) { m with pc := m.pc + 2 } s

/-- The flag at the end of a run that is continued. -/
theorem Run.redraw_extend (d : Dialect) (n : Nat) (m : Machine) (s : σ) (k : Nat)
    (notices : Array Notice) :
    (Run.extend d n ⟨m, s, .proceed, k, notices⟩).machine.display.redraw = true ↔
      (∃ w ∈ executed d n m s, Word.Paints w) ∨ m.display.redraw = true := by
  refine Run.visited_induction (P := fun machines r r' => r'.machine.display.redraw = true ↔
    (∃ w ∈ machines.map fun m => m.memory.readWord m.pc, Word.Paints w) ∨
      r.machine.display.redraw = true) d ?_ ?_ n m s k notices
  · intro r
    simp
  · intro m s k notices machines last hlast
    simp only [hlast, redraw_step, List.map_cons, List.mem_cons, exists_eq_or_imp]
    rw [or_left_comm, or_assoc]

/-- **At the end of a run the redraw flag is up** exactly if it was up before, or a word has been
executed that raises it. -/
theorem redraw_run (d : Dialect) (n : Nat) (m : Machine) (s : σ) :
    (run d n m s).machine.display.redraw = true ↔
      (∃ w ∈ executed d n m s, Word.Paints w) ∨ m.display.redraw = true :=
  Run.redraw_extend d n m s 0 #[]

/-! ## The pixels -/

theorem display_skipIf (m : Machine) (c : Bool) : (m.skipIf c).display = m.display := by
  cases c <;> rfl

theorem display_combine (m : Machine) (d : Dialect) (f : Operation) (x y : Register) :
    (m.combine d f x y).display = m.display := by
  rw [Machine.combine]
  rcases f.apply d (m.reg x) (m.reg y) with ⟨value, _ | flag⟩ <;> rfl

/-- An instruction that does not raise the flag leaves the screen alone. -/
theorem display_execute (d : Dialect) {i : Instruction} (hi : i.paints = false) (m : Machine)
    (s : σ) : (execute d i m s).machine.display = m.display := by
  cases i with
  | clear | ret | draw x y height => cases hi
  | awaitKey x =>
      simp only [execute]
      cases m.keys.lowest? <;> rfl
  | combine f x y => exact display_combine m d f x y
  | skipIfValue x v | skipUnlessValue x v | skipIfSame x y | skipUnlessSame x y | skipIfKey x
  | skipUnlessKey x => exact display_skipIf m _
  | _ => rfl

/-- A step after which the flag is down has left the screen alone. -/
theorem display_step_of_redraw (d : Dialect) (m : Machine) (s : σ)
    (h : (step d m s).machine.display.redraw = false) :
    (step d m s).machine.display = m.display := by
  simp only [step, executeWord] at h ⊢
  split
  · rfl
  · rename_i hzero
    rw [if_neg hzero] at h
    cases hdecode : Instruction.decode (m.memory.readWord m.pc) with
    | some i =>
        simp only [hdecode, redraw_execute, Bool.or_eq_false_iff] at h
        exact display_execute d h.1 _ s
    | none => rfl

/-- **A run after which the redraw flag is down has left the screen alone.** -/
theorem display_run_of_redraw (d : Dialect) (n : Nat) (m : Machine) (s : σ)
    (h : (run d n m s).machine.display.redraw = false) :
    (run d n m s).machine.display = m.display := by
  have hinvariant : (run d n m s).machine.display.redraw = false →
      (run d n m s).machine.display = m.display := by
    refine run_invariant (P := fun m' : Machine =>
      m'.display.redraw = false → m'.display = m.display) d ?_ n (fun _ => rfl) s
    intro m' s' hm' hdown
    have hdisplay := display_step_of_redraw d m' s' hdown
    rw [hdisplay]
    exact hm' (hdisplay ▸ hdown)
  exact hinvariant h

end Chip8
