import Chip8.Execution

/-!
# Steps one after the other

A frame executes a *run*: it takes steps until one of them asks to stop, or until there have
been enough.  This file is about what a run is made of.

* `trace` takes steps whatever they ask for, and keeps the outcome of each.  It is what
  statements about all steps are about.
* `run_invariant` says that what every step preserves is preserved by a run, and
  `exists_last_step` that a run which was stopped ends with the step that stopped it.
* `Run.visited_induction` goes along the machines that a run visits.  What is said of a run in
  terms of them is proved with it, so that no other proof asks whether a step has stopped the run.

A `Recorder` is a source of random bytes that remembers what was drawn from it.  Since every
statement holds for every source, it also holds for recorders, and then it speaks of the
bytes that a program drew and not only of the state in which it left the source.
-/

namespace Chip8

/-! ## Recorded sources -/

/-- A source of random bytes together with the bytes drawn from it so far, in order. -/
structure Recorder (σ : Type) where
  source : σ
  drawn : List UInt8 := []

variable {σ : Type} [ByteSource σ]

instance : ByteSource (Recorder σ) where
  next r := ((ByteSource.next r.source).1,
    ⟨(ByteSource.next r.source).2, r.drawn ++ [(ByteSource.next r.source).1]⟩)

/-! ## Traces -/

/-- The outcomes of a number of steps, each taken whatever the one before asked for. -/
def trace (d : Dialect) : Nat → Machine → σ → List (Outcome σ)
  | 0, _, _ => []
  | n + 1, m, s =>
      let outcome := step d m s
      outcome :: trace d n outcome.machine outcome.source

/-- The words that these steps fetch. -/
def fetched (d : Dialect) : Nat → Machine → σ → List UInt16
  | 0, _, _ => []
  | n + 1, m, s =>
      let outcome := step d m s
      m.memory.readWord m.pc :: fetched d n outcome.machine outcome.source

/-- The machines from which the steps of a run are taken. -/
def visited (d : Dialect) : Nat → Machine → σ → List Machine
  | 0, _, _ => []
  | n + 1, m, s =>
      let outcome := step d m s
      m :: if outcome.signal = .proceed then visited d n outcome.machine outcome.source else []

/-- The words that the steps of a run execute. -/
def executed (d : Dialect) (n : Nat) (m : Machine) (s : σ) : List UInt16 :=
  (visited d n m s).map fun m => m.memory.readWord m.pc

/-! ## Runs -/

/-- A run that was stopped is not continued. -/
theorem Run.extend_of_signal_ne (d : Dialect) (n : Nat) {r : Run σ} (h : r.signal ≠ .proceed) :
    Run.extend d n r = r := by
  obtain ⟨m, s, signal, k, notices⟩ := r
  cases signal with
  | proceed => exact absurd rfl h
  | halt => cases n <;> rfl
  | awaitKey => cases n <;> rfl

/-- **A run is a chain of steps**, one from each machine that it visits.  What holds of a run
without steps, and is carried over to one that begins with a step more, holds of every run. -/
theorem Run.visited_induction (d : Dialect) {P : List Machine → Run σ → Run σ → Prop}
    (nil : ∀ r, P [] r r)
    (cons : ∀ (m : Machine) (s : σ) (k : Nat) (notices : Array Notice) (machines : List Machine)
      (last : Run σ),
      P machines ⟨(step d m s).machine, (step d m s).source, (step d m s).signal, k + 1,
        notices ++ (step d m s).notices⟩ last →
      P (m :: machines) ⟨m, s, .proceed, k, notices⟩ last)
    (n : Nat) (m : Machine) (s : σ) (k : Nat) (notices : Array Notice) :
    P (visited d n m s) ⟨m, s, .proceed, k, notices⟩
      (Run.extend d n ⟨m, s, .proceed, k, notices⟩) := by
  induction n generalizing m s k notices with
  | zero => exact nil _
  | succ n ih =>
      rw [visited, Run.extend]
      apply cons
      by_cases hsignal : (step d m s).signal = .proceed
      · rw [if_pos hsignal, hsignal]
        exact ih _ _ _ _
      · rw [if_neg hsignal, Run.extend_of_signal_ne d n hsignal]
        exact nil _

/-- What every step preserves, the continuation of a run preserves. -/
theorem Run.extend_invariant (d : Dialect) {P : Machine → Prop}
    (hstep : ∀ (m : Machine) (s : σ), P m → P (step d m s).machine) (n : Nat) {r : Run σ}
    (h : P r.machine) : P (Run.extend d n r).machine := by
  induction n generalizing r with
  | zero => exact h
  | succ n ih =>
      obtain ⟨m, s, signal, k, notices⟩ := r
      cases signal with
      | proceed => exact ih (hstep m s h)
      | halt => exact h
      | awaitKey => exact h

/-- **What every step preserves, a run preserves.** -/
theorem run_invariant (d : Dialect) {P : Machine → Prop}
    (hstep : ∀ (m : Machine) (s : σ), P m → P (step d m s).machine) (n : Nat) {m : Machine}
    (h : P m) (s : σ) : P (run d n m s).machine :=
  Run.extend_invariant d hstep n h

/-- A run that was going on before it was continued, and has been stopped since, ends with a
step that asked to stop. -/
theorem Run.exists_last_step (d : Dialect) (n : Nat) {r : Run σ} (hr : r.signal = .proceed)
    (h : (Run.extend d n r).signal ≠ .proceed) :
    ∃ (m : Machine) (s : σ), (Run.extend d n r).machine = (step d m s).machine ∧
      (Run.extend d n r).signal = (step d m s).signal := by
  -- if the next step lets the run go on, the last step is among the later ones
  induction n generalizing r with
  | zero => exact absurd hr h
  | succ n ih =>
      obtain ⟨m, s, signal, k, notices⟩ := r
      cases hr
      simp only [Run.extend] at h ⊢
      by_cases hsignal : (step d m s).signal = .proceed
      · exact ih hsignal h
      · refine ⟨m, s, ?_, ?_⟩ <;> rw [Run.extend_of_signal_ne d n hsignal]

/-- **A run that was stopped ends with the step that stopped it.** -/
theorem exists_last_step (d : Dialect) (n : Nat) (m : Machine) (s : σ)
    (h : (run d n m s).signal ≠ .proceed) :
    ∃ (m' : Machine) (s' : σ), (run d n m s).machine = (step d m' s').machine ∧
      (run d n m s).signal = (step d m' s').signal :=
  Run.exists_last_step d n rfl h

end Chip8
