import Chip8.Proofs.Execution.Trace
import Mathlib.Logic.Function.Iterate

/-!
# Steps by their number

A trace lists the outcomes of steps, and what is said of one of them is said of a member of a list.
Statements about runs often have to speak of two steps at once, of a call and the return that belongs
to it, or of the first step that asks to stop and all those before.  For these it is better to have
the steps by their number, counted from zero: `stateAt` is the machine from which step `k` is taken,
with its source, and `outcomeAt` what the step leads to.

Like a trace, and unlike a run, the steps go on whatever they ask for.  A run is an initial piece of
them, and `exists_run_eq` says which one: all steps that it may take, or those up to the first that
asks to stop.
-/

namespace Chip8

variable {σ : Type} [ByteSource σ]

/-- A machine and its source, a step later. -/
def stepped (d : Dialect) (p : Machine × σ) : Machine × σ :=
  ((step d p.1 p.2).machine, (step d p.1 p.2).source)

/-- The machine from which step `k` is taken, and the source. -/
def stateAt (d : Dialect) (m : Machine) (s : σ) (k : Nat) : Machine × σ := (stepped d)^[k] (m, s)

/-- What step `k` leads to. -/
def outcomeAt (d : Dialect) (m : Machine) (s : σ) (k : Nat) : Outcome σ :=
  step d (stateAt d m s k).1 (stateAt d m s k).2

/-- What the first `n` steps have to report, in order. -/
def reports (d : Dialect) (m : Machine) (s : σ) (n : Nat) : List Notice :=
  (List.range n).flatMap fun k => (outcomeAt d m s k).notices

section

variable (d : Dialect) (m : Machine) (s : σ)

@[simp] theorem stateAt_zero : stateAt d m s 0 = (m, s) := rfl

/-- Each step is taken from where the one before has led. -/
theorem stateAt_succ (k : Nat) :
    stateAt d m s (k + 1) = ((outcomeAt d m s k).machine, (outcomeAt d m s k).source) :=
  Function.iterate_succ_apply' (stepped d) k (m, s)

theorem reports_succ (n : Nat) :
    reports d m s (n + 1) =
      (step d m s).notices ++ reports d (step d m s).machine (step d m s).source n := by
  rw [reports, List.range_succ_eq_map, List.flatMap_cons, List.flatMap_map]
  rfl

end

/-! ## Runs -/

/-- `k` is the number of steps to take out of at most `limit`: all of them if they all ask to go on,
and otherwise those up to the first that does not. -/
structure Due (signal : Nat → Signal) (limit k : Nat) : Prop where
  all : (∀ i < limit, signal i = .proceed) → k = limit
  first : ∀ i < limit, signal i ≠ .proceed → (∀ j < i, signal j = .proceed) → k = i + 1

namespace Due

variable {signal : Nat → Signal} {limit k : Nat}

theorem zero : Due signal 0 0 := ⟨fun _ => rfl, fun i hi => absurd hi (Nat.not_lt_zero i)⟩

/-- No step is due behind one that does not ask to go on. -/
theorem one (h : signal 0 ≠ .proceed) : Due signal (limit + 1) 1 where
  all hall := absurd (hall 0 (Nat.succ_pos limit)) h
  first i _ _ hbefore := by
    cases i with
    | zero => rfl
    | succ i => exact absurd (hbefore 0 (Nat.succ_pos i)) h

/-- Behind a step that asks to go on, those are due that would be without it. -/
theorem succ (h : signal 0 = .proceed) (hdue : Due (fun i => signal (i + 1)) limit k) :
    Due signal (limit + 1) (k + 1) where
  all hall :=
    congrArg Nat.succ (hdue.all fun i hi => hall (i + 1) (Nat.succ_lt_succ hi))
  first i hi hstop hbefore := by
    cases i with
    | zero => exact absurd h hstop
    | succ i =>
        exact congrArg Nat.succ (hdue.first i (Nat.lt_of_succ_lt_succ hi) hstop fun j hj =>
          hbefore (j + 1) (Nat.succ_lt_succ hj))

end Due

/-- What the last of the first `k` steps asks for. -/
def lastSignal (d : Dialect) (m : Machine) (s : σ) : Nat → Signal
  | 0 => .proceed
  | i + 1 => (outcomeAt d m s i).signal

theorem lastSignal_succ (d : Dialect) {m : Machine} {s : σ} (h : (step d m s).signal = .proceed)
    (k : Nat) :
    lastSignal d m s (k + 1) = lastSignal d (step d m s).machine (step d m s).source k := by
  cases k with
  | zero => exact h
  | succ k => rfl

/-- A run that is continued takes exactly the steps that are due. -/
theorem Run.exists_extend_eq (d : Dialect) (n : Nat) (m : Machine) (s : σ) (taken : Nat)
    (notices : Array Notice) :
    ∃ k, Due (fun i => (outcomeAt d m s i).signal) n k ∧
      Run.extend d n ⟨m, s, .proceed, taken, notices⟩ =
        ⟨(stateAt d m s k).1, (stateAt d m s k).2, lastSignal d m s k, taken + k,
          notices ++ reports d m s k⟩ := by
  -- On the recursion of a run, with what has been taken and reported so far left open.
  induction n generalizing m s taken notices with
  | zero =>
      refine ⟨0, Due.zero, ?_⟩
      show _ = Run.mk m s .proceed taken (notices ++ [])
      rw [Array.appendList_nil]
      rfl
  | succ n ih =>
      rw [Run.extend]
      by_cases hsignal : (step d m s).signal = .proceed
      · obtain ⟨k, hdue, heq⟩ := ih (step d m s).machine (step d m s).source (taken + 1)
          (notices ++ (step d m s).notices)
        have hnotices : notices ++ (step d m s).notices ++
            reports d (step d m s).machine (step d m s).source k =
              notices ++ reports d m s (k + 1) := by
          apply Array.toList_inj.mp
          rw [reports_succ, Array.toList_appendList, Array.toList_appendList,
            Array.toList_appendList, List.append_assoc]
        refine ⟨k + 1, Due.succ hsignal hdue, ?_⟩
        rw [hsignal, heq, hnotices, ← lastSignal_succ d hsignal, Nat.add_assoc, Nat.add_comm 1 k]
        rfl
      · have hreports : reports d m s 1 = (step d m s).notices := List.append_nil _
        refine ⟨1, Due.one hsignal, ?_⟩
        rw [Run.extend_of_signal_ne d n hsignal, hreports]
        rfl

/-- **A run takes exactly the steps that are due**, ends where they lead, and reports what they
report. -/
theorem exists_run_eq (d : Dialect) (n : Nat) (m : Machine) (s : σ) :
    ∃ k, Due (fun i => (outcomeAt d m s i).signal) n k ∧
      run d n m s =
        ⟨(stateAt d m s k).1, (stateAt d m s k).2, lastSignal d m s k, k,
          (reports d m s k).toArray⟩ := by
  obtain ⟨k, hdue, heq⟩ := Run.exists_extend_eq d n m s 0 #[]
  have hnotices : #[] ++ reports d m s k = (reports d m s k).toArray :=
    Array.toList_inj.mp (Array.toList_appendList ..)
  rw [Nat.zero_add, hnotices] at heq
  exact ⟨k, hdue, heq⟩

end Chip8
