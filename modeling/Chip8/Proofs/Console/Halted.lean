import Chip8.Proofs.Console.Screen
import Chip8.Proofs.Execution.Redraw

/-!
# Consoles that are halted

A console that is halted goes on being asked for frames, and nothing happens in them: no
instruction is executed, no key is looked at and no timer counts.  This file says so in a form
that other statements can build on (`Dormant`), and it says it of what comes out of a frame
rather than of how a frame is computed.

What a frame has executed can be read off its notices, since every step reports its word
before it is taken.  `words_runFrame` shows that nothing is reported besides, and nothing is left
out: the words that a frame reports are those under the program counters from which its steps
were taken.
-/

namespace Chip8

/-- The word that is executed, if that is what is reported. -/
def Notice.word? : Notice → Option UInt16
  | .executing _ word => some word
  | _ => none

/-- The words that a frame reports to have executed, in order. -/
def Frame.words {σ : Type} (f : Frame σ) : List UInt16 := f.notices.toList.filterMap Notice.word?

variable {σ : Type} [ByteSource σ]

/-! ## What is reported -/

/-- What an instruction has to report is never that it is executed. -/
theorem filterMap_word?_execute (d : Dialect) (i : Instruction) (m : Machine) (s : σ) :
    (execute d i m s).notices.filterMap Notice.word? = [] := by
  cases i with
  | ret =>
      simp only [execute]
      cases m.stack.pop? <;> rfl
  | call a =>
      simp only [execute]
      split <;> rfl
  | awaitKey x =>
      simp only [execute]
      cases m.keys.lowest? <;> rfl
  | _ => rfl

/-- A step reports the word that it executes, and no other. -/
theorem filterMap_word?_step (d : Dialect) (m : Machine) (s : σ) :
    (step d m s).notices.filterMap Notice.word? = [m.memory.readWord m.pc] := by
  show m.memory.readWord m.pc :: (executeWord d (m.memory.readWord m.pc) _ s).notices.filterMap
    Notice.word? = _
  congr 1
  unfold executeWord
  split
  · rfl
  · split
    · exact filterMap_word?_execute d _ _ s
    · rfl

theorem Run.filterMap_word?_extend (d : Dialect) (n : Nat) (m : Machine) (s : σ) (k : Nat)
    (notices : Array Notice) :
    (Run.extend d n ⟨m, s, .proceed, k, notices⟩).notices.toList.filterMap Notice.word? =
      notices.toList.filterMap Notice.word? ++ executed d n m s := by
  refine Run.visited_induction (P := fun machines r r' =>
    r'.notices.toList.filterMap Notice.word? = r.notices.toList.filterMap Notice.word? ++
      machines.map fun m => m.memory.readWord m.pc) d ?_ ?_ n m s k notices
  · intro r
    rw [List.map_nil, List.append_nil]
  · intro m s k notices machines last hlast
    rw [hlast, Array.toList_appendList, List.filterMap_append, filterMap_word?_step,
      List.append_assoc, List.singleton_append, List.map_cons]

namespace Console

/-- **A frame reports the words that it executes**, and no others. -/
theorem words_runFrame (c : Console σ) (keys : Keys) (toneOn : Bool) :
    (c.runFrame keys toneOn).words = c.executedIn keys := by
  rw [Frame.words, executedIn, runFrame]
  split
  · rfl
  · have hrun := Run.filterMap_word?_extend c.dialect c.cyclesPerFrame (c.machine.latch keys)
      c.source 0 #[]
    -- that the program has stopped is reported after everything else
    show (Array.toList (_ ++ if _ then _ else _)).filterMap Notice.word? = _
    split
    · rw [Array.toList_append, List.filterMap_append]
      exact (List.append_nil _).trans hrun
    · exact hrun

/-- A frame executes nothing exactly if the console is halted or paused, or if no instructions are
to be executed in a frame. -/
theorem executedIn_eq_nil_iff (c : Console σ) (keys : Keys) :
    c.executedIn keys = [] ↔ c.halted = true ∨ c.paused = true ∨ c.cyclesPerFrame = 0 := by
  rw [executedIn, executed]
  split
  · rename_i hidle
    rw [Bool.or_eq_true] at hidle
    exact iff_of_true rfl (hidle.imp_right Or.inl)
  · rename_i hidle
    rw [Bool.or_eq_true, not_or] at hidle
    cases c.cyclesPerFrame with
    | zero => simp [visited]
    | succ n => simp [visited, hidle]

/-! ## Consoles at rest -/

omit [ByteSource σ] in
theorem status_eq_halted_iff (c : Console σ) : c.status = .halted ↔ c.halted = true := by
  constructor
  · intro h
    by_contra hhalted
    rw [status, if_neg hhalted] at h
    -- the other three are none of them a halt
    split at h
    · cases h
    · split at h <;> cases h
  · intro h
    exact if_pos h

/-- The console is halted, and nothing happens in its frames: they execute nothing, and leave
everything as it is except that the redraw flag is taken. -/
structure Dormant (c : Console σ) : Prop where
  status : c.status = .halted
  words : ∀ keys toneOn, (c.runFrame keys toneOn).words = []
  console : ∀ keys toneOn,
    (c.runFrame keys toneOn).console = { c with machine := c.machine.withRedraw false }

/-- **Nothing happens in the frames of a console that is halted.** -/
theorem dormant_iff (c : Console σ) : c.Dormant ↔ c.halted = true := by
  constructor
  · intro h
    exact (status_eq_halted_iff c).mp h.status
  · intro h
    have hidle : (c.halted || c.paused) = true := by rw [h, Bool.true_or]
    refine ⟨(status_eq_halted_iff c).mpr h, fun keys toneOn => ?_, fun keys toneOn => ?_⟩
    · rw [words_runFrame, executedIn_eq_nil_iff]
      exact Or.inl h
    · rw [console_runFrame, advance_of_idle hidle]
      rfl

end Console
end Chip8
