import Chip8.Proofs.Execution.Stopping
import Chip8.Proofs.Guarded.Mnemonic

/-!
# Words that are no instruction

What an instruction is gets decided in two places: a listing has to spell a word, and the machine
has to execute it.  This file says that the two agree on every word, in every machine and under
every dialect, and which words they agree on.

A word that is spelled `???` is one that fits no pattern of digits of an instruction, and then
the machine warns of it; the one word that it may stop on instead is `0000`.  Any other word is
executed without such a warning.  Warnings are told by their text, since that is what whoever reads
a log has (`warnsOfUnknown_iff`).

Neither place has a table of its own here, since both ask the decoder.  So the statement is also
made of the two readings of `Guarded` that do have one, and take words apart by digits.
-/

namespace Chip8

/-- The notice is a warning that begins with `Unknown instruction`. -/
def Notice.WarnsOfUnknown (n : Notice) : Prop :=
  n.level = .warn ∧ "Unknown instruction".toList <+: n.text.toList

/-- No other warning begins in the same way. -/
theorem Notice.warnsOfUnknown_iff (n : Notice) :
    n.WarnsOfUnknown ↔ ∃ w a, n = .unknownWord w a := by
  constructor
  · rintro ⟨hlevel, rest, hrest⟩
    have hhead : n.text.toList.head? = some 'U' := by
      rw [← hrest]
      rfl
    cases n with
    | unknownWord w a => exact ⟨w, a, rfl⟩
    | returnIgnored | returnReplaced | snapshotRejected =>
        unfold text at hhead
        simp at hhead
    | _ => cases hlevel
  · rintro ⟨w, a, rfl⟩
    refine ⟨rfl, ' ' :: ((Text.word w).toList ++ " at ".toList ++ (Text.address a).toList ++
      ", skipping".toList), ?_⟩
    unfold text
    simp

variable {σ : Type} [ByteSource σ]

/-- An instruction is never reported as unknown. -/
theorem not_warnsOfUnknown_of_mem_execute {d : Dialect} {i : Instruction} {m : Machine} {s : σ}
    {n : Notice} (hn : n ∈ (execute d i m s).notices) : ¬n.WarnsOfUnknown := by
  rw [Notice.warnsOfUnknown_iff]
  rintro ⟨w, a, rfl⟩
  cases i with
  | ret =>
      simp only [execute] at hn
      cases hpop : m.stack.pop? <;> simp [hpop, proceed] at hn
  | call a =>
      simp only [execute] at hn
      split at hn <;> simp at hn
  | awaitKey x =>
      simp only [execute] at hn
      cases hkeys : m.keys.lowest? <;> simp [hkeys, proceed] at hn
  | _ => simp [execute, proceed] at hn

/-- A word that is no instruction stops the machine or is reported, and nothing else happens. -/
theorem executeWord_of_decode_eq_none (d : Dialect) {w : UInt16}
    (h : Instruction.decode w = none) (m : Machine) (s : σ) :
    executeWord d w m s =
      if w = 0 ∧ d.haltOnZero = true then { machine := m, source := s, signal := .halt }
      else { machine := m, source := s, notices := [.unknownWord w (m.pc - 2)] } := by
  rw [executeWord, h]

/-- A word that is an instruction is executed, and never reported as unknown. -/
theorem not_warnsOfUnknown_of_mem_executeWord {d : Dialect} {w : UInt16}
    (h : Instruction.decode w ≠ none) {m : Machine} {s : σ} {n : Notice}
    (hn : n ∈ (executeWord d w m s).notices) : ¬n.WarnsOfUnknown := by
  rcases executeWord_cases d w m s with ⟨-, -, -, hnone⟩ | ⟨i, -, hexecute⟩
  · exact absurd hnone h
  · rw [hexecute] at hn
    exact not_warnsOfUnknown_of_mem_execute hn

omit [ByteSource σ] in
theorem Instruction.decode_eq_none_iff (w : UInt16) :
    decode w = none ↔ ∀ i : Instruction, ¬i.NamedBy w := by
  simp only [Option.eq_none_iff_forall_ne_some, ne_eq, decode_eq_some_iff]

/-- **A listing and the machine agree on what an instruction is.**  Take any word, and execute it in
any machine and under any dialect.

* The word is spelled `???` exactly if there is a warning that the instruction is unknown, or the
  machine stops; and it stops exactly on the word `0000`, in a dialect that stops on it.
* In both cases the machine and the source of random bytes are left as they were.  If there is a
  warning, it is the only thing that is reported, and it names the word and its address.
* There is no such warning for any other word.
* The words that are spelled `???` are those that have the pattern of no instruction.  The table of
  mnemonics by digits spells every word in the same way, and the table that executes words by digits
  comes to the same outcome and reports the same. -/
theorem spelled_unknown_iff_reported (d : Dialect) (w : UInt16) (m : Machine) (s : σ) :
    let o := executeWord d w m s
    let unknown : Prop := Instruction.spell w = "???"
    (unknown ↔ (∃ n ∈ o.notices, n.WarnsOfUnknown) ∨ o.signal = .halt) ∧
      (o.signal = .halt ↔ w = 0 ∧ d.haltOnZero = true) ∧
      (unknown → o.machine = m ∧ o.source = s ∧
        (o.signal ≠ .halt → o.notices = [.unknownWord w (m.pc - 2)])) ∧
      (¬unknown → ∀ n ∈ o.notices, ¬n.WarnsOfUnknown) ∧
      (unknown ↔ ∀ i : Instruction, ¬i.NamedBy w) ∧
      Guarded.spell (.ofWord w) = Instruction.spell w ∧
      Guarded.execute d (.ofWord w) m.bare s = .ok o.bare := by
  intro o unknown
  have hdecode : unknown ↔ Instruction.decode w = none := Instruction.spell_eq_unknown_iff w
  have hhalt : o.signal = .halt ↔ w = 0 ∧ d.haltOnZero = true :=
    signal_executeWord_eq_halt_iff d w m s
  refine ⟨⟨fun h => ?_, ?_⟩, hhalt, fun h => ?_, fun h n hn => ?_, ?_, Guarded.spell_eq w,
    Guarded.execute_bare d w m s⟩
  · have ho : o = _ := executeWord_of_decode_eq_none d (hdecode.mp h) m s
    by_cases hzero : w = 0 ∧ d.haltOnZero = true
    · exact Or.inr (hhalt.mpr hzero)
    · rw [if_neg hzero] at ho
      refine Or.inl ⟨.unknownWord w (m.pc - 2), ?_, ?_⟩
      · rw [ho]
        exact List.mem_cons_self
      · exact (Notice.warnsOfUnknown_iff _).mpr ⟨w, _, rfl⟩
  · rintro (⟨n, hn, hwarns⟩ | hstops)
    · rw [hdecode]
      by_contra hsome
      exact not_warnsOfUnknown_of_mem_executeWord hsome hn hwarns
    · rw [hdecode, (hhalt.mp hstops).1]
      exact Instruction.decode_zero
  · have ho : o = _ := executeWord_of_decode_eq_none d (hdecode.mp h) m s
    split at ho
    · rw [ho]
      exact ⟨rfl, rfl, fun hproceeds => absurd rfl hproceeds⟩
    · rw [ho]
      exact ⟨rfl, rfl, fun _ => rfl⟩
  · exact not_warnsOfUnknown_of_mem_executeWord (fun hnone => h (hdecode.mpr hnone)) hn
  · rw [hdecode, Instruction.decode_eq_none_iff]

end Chip8
