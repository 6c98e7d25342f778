import Chip8.Execution

/-!
# Execution and the redraw flag

The redraw flag is part of a machine, but no instruction looks at it.  Two machines that
differ in the flag alone therefore execute the same words, draw the same random bytes
and stop at the same step; and since no instruction lowers the flag, what an execution
does to it is to leave it as it was or to raise it.

Both facts are one equation.  For every execution there is a Boolean `painted`,
which depends on the machine but not on its flag, such that starting with the flag at
`b` is the same as starting anywhere and putting the flag at `painted || b`
afterwards:

* for an instruction `painted` is read off the instruction (`execute_withRedraw`,
  `Instruction.paints`);
* for a run it is found by induction on the number of steps
  (`Run.exists_extend_withRedraw`).
-/

namespace Chip8
namespace Machine

/-- The machine with the redraw flag as given. -/
def withRedraw (m : Machine) (b : Bool) : Machine :=
  { m with display := { m.display with redraw := b } }

theorem skipIf_withRedraw (m : Machine) (b c : Bool) :
    (m.withRedraw b).skipIf c = (m.skipIf c).withRedraw b := by
  cases c <;> rfl

theorem combine_withRedraw (m : Machine) (b : Bool) (d : Dialect) (f : Operation)
    (x y : Register) :
    (m.withRedraw b).combine d f x y = (m.combine d f x y).withRedraw b := by
  have happly : f.apply d ((m.withRedraw b).reg x) ((m.withRedraw b).reg y) =
      f.apply d (m.reg x) (m.reg y) := rfl
  rw [combine, combine, happly]
  rcases f.apply d (m.reg x) (m.reg y) with ⟨value, _ | flag⟩ <;> rfl

end Machine

variable {σ : Type}

/-- The outcome with the redraw flag of its machine as given. -/
def Outcome.withRedraw (o : Outcome σ) (b : Bool) : Outcome σ :=
  { o with machine := o.machine.withRedraw b }

/-- The run with the redraw flag of its machine as given. -/
def Run.withRedraw (r : Run σ) (b : Bool) : Run σ :=
  { r with machine := r.machine.withRedraw b }

/-- Whether an instruction raises the redraw flag.  A return does, although it changes
no pixel. -/
def Instruction.paints : Instruction → Bool
  | .clear | .ret | .draw .. => true
  | _ => false

section Steps

variable [ByteSource σ]

/-- **No instruction looks at the redraw flag**, and each of them either raises it or
leaves it as it was. -/
theorem execute_withRedraw (d : Dialect) (i : Instruction) (m : Machine) (s : σ) (b : Bool) :
    execute d i (m.withRedraw b) s = (execute d i m s).withRedraw (i.paints || b) := by
  cases i with
  | ret =>
      have hpop : (m.withRedraw b).stack.pop? = m.stack.pop? := rfl
      simp only [execute, hpop]
      cases m.stack.pop? <;> rfl
  | awaitKey x =>
      have hkeys : (m.withRedraw b).keys.lowest? = m.keys.lowest? := rfl
      simp only [execute, hkeys]
      cases m.keys.lowest? <;> rfl
  | combine f x y => exact congrArg (proceed · s) (m.combine_withRedraw b d f x y)
  | skipIfValue x v => exact congrArg (proceed · s) (m.skipIf_withRedraw b _)
  | skipUnlessValue x v => exact congrArg (proceed · s) (m.skipIf_withRedraw b _)
  | skipIfSame x y => exact congrArg (proceed · s) (m.skipIf_withRedraw b _)
  | skipUnlessSame x y => exact congrArg (proceed · s) (m.skipIf_withRedraw b _)
  | skipIfKey x => exact congrArg (proceed · s) (m.skipIf_withRedraw b _)
  | skipUnlessKey x => exact congrArg (proceed · s) (m.skipIf_withRedraw b _)
  | _ => rfl

/-- The same for a word: a word that is no instruction leaves the flag alone. -/
theorem exists_executeWord_withRedraw (d : Dialect) (w : UInt16) (m : Machine) (s : σ) :
    ∃ painted, ∀ b, executeWord d w (m.withRedraw b) s =
      (executeWord d w m s).withRedraw (painted || b) := by
  by_cases hhalt : w = 0 ∧ d.haltOnZero
  · refine ⟨false, fun b => ?_⟩
    rw [executeWord, executeWord, if_pos hhalt, if_pos hhalt]
    rfl
  · cases hdecode : Instruction.decode w with
    | some i =>
        refine ⟨i.paints, fun b => ?_⟩
        simp only [executeWord, if_neg hhalt, hdecode]
        exact execute_withRedraw d i m s b
    | none =>
        refine ⟨false, fun b => ?_⟩
        simp only [executeWord, if_neg hhalt, hdecode]
        rfl

/-- The same for a step: the word is fetched from the same memory. -/
theorem exists_step_withRedraw (d : Dialect) (m : Machine) (s : σ) :
    ∃ painted, ∀ b, step d (m.withRedraw b) s = (step d m s).withRedraw (painted || b) := by
  obtain ⟨painted, h⟩ := exists_executeWord_withRedraw d (m.memory.readWord m.pc)
    { m with pc := m.pc + 2 } s
  refine ⟨painted, fun b => ?_⟩
  exact congrArg (fun o : Outcome σ =>
    { o with notices := .executing m.pc (m.memory.readWord m.pc) :: o.notices }) (h b)

/-- **A run does not depend on the redraw flag**, and at its end the flag is up exactly if it
was up before or has been raised on the way. -/
theorem Run.exists_extend_withRedraw (d : Dialect) (n : Nat) (r : Run σ) :
    ∃ painted, ∀ b, Run.extend d n (r.withRedraw b) =
      (Run.extend d n r).withRedraw (painted || b) := by
  induction n generalizing r with
  | zero => exact ⟨false, fun b => rfl⟩
  | succ n ih =>
      obtain ⟨m, s, signal, k, notices⟩ := r
      cases signal with
      | proceed =>
          obtain ⟨first, hstep⟩ := exists_step_withRedraw d m s
          obtain ⟨later, hrun⟩ := ih ⟨(step d m s).machine, (step d m s).source,
            (step d m s).signal, k + 1, notices ++ (step d m s).notices⟩
          refine ⟨later || first, fun b => ?_⟩
          rw [Bool.or_assoc, Run.extend, ← hrun (first || b)]
          simp only [Run.withRedraw, Run.extend, hstep b, Outcome.withRedraw]
      | halt => exact ⟨false, fun b => rfl⟩
      | awaitKey => exact ⟨false, fun b => rfl⟩

/-- The same for a run from its start. -/
theorem exists_run_withRedraw (d : Dialect) (n : Nat) (m : Machine) (s : σ) :
    ∃ painted, ∀ b, run d n (m.withRedraw b) s =
      (run d n m s).withRedraw (painted || b) :=
  Run.exists_extend_withRedraw d n { machine := m, source := s }

end Steps

end Chip8
