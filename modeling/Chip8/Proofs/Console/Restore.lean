import Chip8.Console
import Chip8.Proofs.Snapshot.RoundTrip

/-!
# What a restore does to a console

A restore is all or nothing.  The bytes are read before anything is replaced, and the
five checks of `Snapshot.defect?` are the only reasons for which they are refused.

Two things are said beyond "accepted or refused".  A refusal leaves the *whole* console
as it was, flags and rom included, and not only its machine.  An acceptance leaves no
freedom: saving the console at once gives back the bytes it was restored from, so no
byte of them was dropped.
-/

namespace Chip8
namespace Snapshot

/-- The sixth byte is the dialect. -/
theorem getElem?_encode_five (s : Snapshot) : s.encode[5]? = some s.dialect.toBits := rfl

/-- The 4096 bytes after the header are the memory. -/
theorem take_drop_encode (s : Snapshot) :
    (s.encode.drop 6).take 4096 = s.machine.memory.cells.toList := by
  have h := splitLengths_encode s
  simp only [sizes, List.splitLengths_cons, List.drop_drop, Nat.reduceAdd] at h
  obtain ⟨-, h⟩ := List.cons.inj h
  obtain ⟨-, h⟩ := List.cons.inj h
  exact (List.cons.inj h).1

/-- The three bytes before the screen are the depth of the call stack and the timers. -/
theorem take_drop_encode_counters (s : Snapshot) :
    (s.encode.drop 4154).take 3 = [UInt8.ofNat s.machine.stack.depth, s.machine.timers.delay,
      s.machine.timers.sound] := by
  have h := congrArg (fun l => l.getD 7 []) (splitLengths_encode s)
  simp only [sizes, List.splitLengths_cons, List.drop_drop, Nat.reduceAdd] at h
  exact h

end Snapshot

namespace Console

variable {σ : Type}

/-- A restore from bytes that fail a check is refused, and nothing changes. -/
theorem restore_of_defect {c : Console σ} {bytes : List UInt8} {e : Refusal}
    (h : Snapshot.defect? bytes = some e) :
    (c.restore bytes).refusal = some e ∧ (c.restore bytes).console = c := by
  rcases Snapshot.decode_cases bytes with ⟨e', he', hdecode⟩ | ⟨s, hsound, -⟩
  · obtain rfl : e = e' := Option.some.inj (h.symm.trans he')
    simp only [restore, hdecode, and_self]
  · rw [h] at hsound
    cases hsound

/-- A restore from bytes that pass every check replaces the machine and the dialect by
those of the one snapshot that is written as these bytes. -/
theorem restore_of_sound {c : Console σ} {bytes : List UInt8}
    (h : Snapshot.defect? bytes = none) :
    ∃ s : Snapshot, s.encode = bytes ∧ (c.restore bytes).refusal = none ∧
      (c.restore bytes).console =
        { c with
          machine := s.machine, dialect := s.dialect, halted := false, awaitingKey := false } := by
  rcases Snapshot.decode_cases bytes with ⟨e, he, -⟩ | ⟨s, -, hdecode, hencode, -⟩
  · rw [h] at he
    cases he
  · refine ⟨s, hencode, ?_, ?_⟩ <;> simp only [restore, hdecode]

/-- What a restore does, in one place: it is refused and nothing has changed, or the machine and
the dialect are those of a snapshot as it is read. -/
theorem restore_cases (c : Console σ) (bytes : List UInt8) :
    (∃ e, (c.restore bytes).refusal = some e ∧ (c.restore bytes).console = c) ∨
      ∃ s : Snapshot, s.recorded = s ∧ (c.restore bytes).refusal = none ∧
        (c.restore bytes).console = { c with
          machine := s.machine, dialect := s.dialect, halted := false, awaitingKey := false } := by
  rcases Snapshot.decode_cases bytes with ⟨e, -, hdecode⟩ | ⟨s, -, hdecode, -, hrecorded⟩
  · refine Or.inl ⟨e, ?_, ?_⟩ <;> simp only [restore, hdecode]
  · refine Or.inr ⟨s, hrecorded, ?_, ?_⟩ <;> simp only [restore, hdecode]

/-- A restore from what a console has saved is never refused, whatever either of the two consoles
holds.  It brings the machine, as far as it is recorded, and the dialect. -/
theorem restore_save (c c' : Console σ) :
    (c'.restore c.save).refusal = none ∧
      (c'.restore c.save).console = { c' with
        machine := c.machine.recorded, dialect := c.dialect
        halted := false, awaitingKey := false } := by
  have hdecode := Snapshot.decode_encode ⟨c.machine, c.dialect⟩
  constructor <;> simp only [restore, save, hdecode, Snapshot.recorded]

/-- What is read back is written in the same way again. -/
theorem save_restore_save (c c' : Console σ) : (c'.restore c.save).console.save = c.save := by
  rw [(restore_save c c').2]
  exact (Snapshot.encode_eq_encode_iff _ _).mpr rfl

/-- **A restore is all or nothing.**  It is refused for the first check that the bytes
fail, and then nothing at all has changed.  If they fail none it succeeds: saving gives
the bytes back, the dialect in force is that of the sixth byte, the halt and the wait for
a key are over, and the rom, the pause, the pace and the source of random bytes are those
from before.  The copy of the 4096 bytes into memory is one of the steps that could be
refused in principle, and never is. -/
theorem restore_all_or_nothing (c : Console σ) (bytes : List UInt8) :
    (c.restore bytes).refusal = Snapshot.defect? bytes ∧
      (∀ e, Snapshot.defect? bytes = some e → (c.restore bytes).console = c) ∧
      (Snapshot.defect? bytes = none →
        ∃ (machine : Machine) (dialect : Dialect),
          (c.restore bytes).console = { c with
            machine := machine, dialect := dialect, halted := false, awaitingKey := false } ∧
          (c.restore bytes).console.save = bytes ∧
          bytes[5]?.bind Dialect.ofBits? = some dialect ∧
          Memory.blank.loadBytes 0 ((bytes.drop 6).take 4096) = .ok machine.memory) := by
  refine ⟨?_, fun e he => (restore_of_defect he).2, ?_⟩
  · cases h : Snapshot.defect? bytes with
    | none =>
        obtain ⟨s, -, hrefusal, -⟩ := restore_of_sound (c := c) h
        exact hrefusal
    | some e => exact (restore_of_defect h).1
  · intro h
    obtain ⟨s, rfl, -, hconsole⟩ := restore_of_sound (c := c) h
    refine ⟨s.machine, s.dialect, hconsole, ?_, ?_, ?_⟩
    · rw [hconsole, save]
    · rw [Snapshot.getElem?_encode_five, Option.bind_some, Dialect.ofBits?_toBits]
    · rw [Snapshot.take_drop_encode, Snapshot.loadBytes_blank_cells]

/-- No bytes are refused by a console that was just switched on, and what another console
has saved is not. -/
theorem restore_all_or_nothing_powerOn :
    ((powerOn {} (Seeded.mk 7)).restore []).console = powerOn {} (Seeded.mk 7) ∧
      ∃ (machine : Machine) (dialect : Dialect),
        ((powerOn {} (Seeded.mk 7)).restore
          (powerOn { dialect := Preset.cosmac.dialect } (Seeded.mk 3)).save).console =
            { powerOn {} (Seeded.mk 7) with
              machine := machine, dialect := dialect, halted := false, awaitingKey := false } := by
  have hempty : Snapshot.defect? [] = some (.snapshotLength 0) := by decide
  have hsaved : Snapshot.defect?
      (powerOn { dialect := Preset.cosmac.dialect } (Seeded.mk 3)).save = none :=
    Snapshot.defect?_encode _
  obtain ⟨-, hrefused, -⟩ := restore_all_or_nothing (powerOn {} (Seeded.mk 7)) []
  obtain ⟨-, -, haccepted⟩ := restore_all_or_nothing (powerOn {} (Seeded.mk 7))
    (powerOn { dialect := Preset.cosmac.dialect } (Seeded.mk 3)).save
  obtain ⟨machine, dialect, hconsole, -⟩ := haccepted hsaved
  exact ⟨hrefused _ hempty, machine, dialect, hconsole⟩

end Console
end Chip8
