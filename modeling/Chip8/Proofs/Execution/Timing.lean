import Chip8.Proofs.Execution.Effects
import Chip8.Proofs.Execution.Trace

/-!
# Execution and the timers

A program sets a timer with one word, `FX15` or `FX18`, and no word counts a timer down: that is
left to whoever runs the program.  So while a program runs, each timer is a cell that is written
now and then and holds what it was given last, and the two of them know nothing of each other.

Everything here is stated for a `Timer`, which is one of the two.  What a word gives to it is read
off the machine before the word is executed (`Machine.given?`).
-/

namespace Chip8

/-- One of the two timers. -/
inductive Timer where
  | delay
  | sound
  deriving DecidableEq

namespace Timer

/-- The timer's counter. -/
def value : Timer → Timers → UInt8
  | delay, timers => timers.delay
  | sound, timers => timers.sound

/-- The last two digits of the words that set the timer: `FX15` and `FX18`. -/
def low : Timer → UInt8
  | delay => 0x15
  | sound => 0x18

/-- The instruction that sets the timer to a register. -/
def setter : Timer → Register → Instruction
  | delay => .setDelay
  | sound => .setSound

theorem namedBy_setter (t : Timer) {w : UInt16} (h : Word.IsF w t.low) :
    (t.setter (Word.x w)).NamedBy w := by
  cases t <;> exact ⟨h, rfl⟩

/-- A tick counts each timer down by one, and not below zero. -/
theorem toNat_value_tick (t : Timer) (timers : Timers) :
    (t.value timers.tick).toNat = (t.value timers).toNat - 1 := by
  cases t <;> exact toNat_countDown _

end Timer

/-- What the word under the program counter gives to a timer, if it is the one that sets it. -/
def Machine.given? (t : Timer) (m : Machine) : Option UInt8 :=
  if Word.IsF (m.memory.readWord m.pc) t.low then
    some (m.reg (Word.x (m.memory.readWord m.pc)))
  else none

theorem Machine.Confined.value {d : Dialect} {w : UInt16} {m m' : Machine} (h : m.Confined d w m')
    {t : Timer} (hw : ¬Word.IsF w t.low) : t.value m'.timers = t.value m.timers := by
  cases t with
  | delay => exact Decidable.byContradiction fun hne => hw (h.delay hne)
  | sound => exact Decidable.byContradiction fun hne => hw (h.sound hne)

variable {σ : Type} [ByteSource σ]

theorem Timer.value_execute_setter (t : Timer) (d : Dialect) (x : Register) (m : Machine) (s : σ) :
    t.value (execute d (t.setter x) m s).machine.timers = m.reg x := by
  cases t <;> rfl

/-- A word that sets a timer sets it to the register that the word names. -/
theorem Timer.value_executeWord (t : Timer) (d : Dialect) {w : UInt16} (hw : Word.IsF w t.low)
    (m : Machine) (s : σ) :
    t.value (executeWord d w m s).machine.timers = m.reg (Word.x w) := by
  rw [executeWord_of_namedBy (t.namedBy_setter hw), value_execute_setter]

/-- **After a step** a timer holds what the step has given to it, or what it held before. -/
theorem Timer.value_step (t : Timer) (d : Dialect) (m : Machine) (s : σ) :
    t.value (step d m s).machine.timers = (m.given? t).getD (t.value m.timers) := by
  show t.value (executeWord d (m.memory.readWord m.pc) { m with pc := m.pc + 2 } s).machine.timers =
    _
  by_cases hw : Word.IsF (m.memory.readWord m.pc) t.low
  · rw [t.value_executeWord d hw, Machine.given?, if_pos hw]
    rfl
  · rw [(Machine.Confined.executeWord d _ _ s).value hw, Machine.given?, if_neg hw]
    rfl

theorem Timer.value_extend (t : Timer) (d : Dialect) (n : Nat) (m : Machine) (s : σ) (k : Nat)
    (notices : Array Notice) :
    t.value (Run.extend d n ⟨m, s, .proceed, k, notices⟩).machine.timers =
      ((visited d n m s).filterMap (Machine.given? t)).getLast?.getD (t.value m.timers) := by
  refine Run.visited_induction (P := fun machines r r' => t.value r'.machine.timers =
    (machines.filterMap (Machine.given? t)).getLast?.getD (t.value r.machine.timers)) d ?_ ?_
    n m s k notices
  · intro r
    rfl
  · intro m s k notices machines last hlast
    rw [hlast, t.value_step, List.filterMap_cons]
    -- what a later step has given, or else what this one has
    cases m.given? t with
    | none => rfl
    | some v => rw [List.getLast?_cons, Option.getD_some, Option.getD_some]

/-- **After a run** a timer holds what it was given last, or what it held before. -/
theorem Timer.value_run (t : Timer) (d : Dialect) (n : Nat) (m : Machine) (s : σ) :
    t.value (run d n m s).machine.timers =
      ((visited d n m s).filterMap (Machine.given? t)).getLast?.getD (t.value m.timers) :=
  t.value_extend d n m s 0 #[]

end Chip8
