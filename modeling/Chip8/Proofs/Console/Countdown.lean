import Chip8.Proofs.Console.Frame
import Chip8.Proofs.Console.Replace
import Chip8.Proofs.Execution.Timing

/-!
# The timers count frames

A timer is given a value from time to time, and counts down by one in every frame in which the
console is neither halted nor paused.  What it holds between two commands is therefore known from
the last value that it was given and the number of such frames since, and from nothing else: not
from what the program did meanwhile, nor from what the other timer was given.

There are three ways to give a timer a value.  The program sets it; the machine is initialized,
which sets it to zero; or the machine is restored, which takes it from the snapshot.
`Console.given?` names the value that a command gives, and `Console.counts` the commands that
count down.  A frame may do both.  It counts down after its last instruction, so what a program
gives to a timer has already been counted down once when the frame ends.
-/

namespace Chip8

/-- Where a timer stands in a snapshot. -/
def Timer.offset : Timer → Nat
  | delay => 4155
  | sound => 4156

theorem Snapshot.getElem?_encode_offset (t : Timer) (s : Snapshot) :
    s.encode[t.offset]? = some (t.value s.machine.timers) := by
  have hcounters := s.take_drop_encode_counters
  have hat : ∀ k < 3, s.encode[4154 + k]? = [UInt8.ofNat s.machine.stack.depth,
      s.machine.timers.delay, s.machine.timers.sound][k]? := by
    intro k hk
    rw [← hcounters, List.getElem?_take_of_lt hk, List.getElem?_drop]
  cases t with
  | delay => exact hat 1 (by decide)
  | sound => exact hat 2 (by decide)

namespace Console

variable {σ : Type} [ByteSource σ]

/-- What a command gives to a timer, if it gives anything to it.  What a frame gives is what the
last of its instructions that sets the timer has given. -/
def given? (t : Timer) (c : Console σ) : Command → Option UInt8
  | .load _ | .loadFile .. | .reset => some 0
  | .frame keys _ =>
      if c.halted || c.paused then none
      else ((visited c.dialect c.cyclesPerFrame (c.machine.latch keys) c.source).filterMap
        (Machine.given? t)).getLast?
  | .restore bytes => if (c.restore bytes).refusal.isNone then bytes[t.offset]? else none
  | .togglePause | .save => none

omit [ByteSource σ] in
/-- Whether the timers count down in the course of a command: it is a frame, and the console is
neither halted nor paused. -/
def counts (c : Console σ) (command : Command) : Bool :=
  command.isFrame && !(c.halted || c.paused)

/-- The number of commands in the course of which the timers count down. -/
def countdowns (c : Console σ) : List Command → Nat
  | [] => 0
  | command :: commands => (c.counts command).toNat + (c.perform command).countdowns commands

/-! ## One command -/

/-- A restored machine has the timers that are written in the snapshot. -/
theorem given?_restore (t : Timer) (c : Console σ) (bytes : List UInt8) :
    t.value (c.restore bytes).console.machine.timers =
      (c.given? t (.restore bytes)).getD (t.value c.machine.timers) := by
  rw [given?]
  cases h : Snapshot.defect? bytes with
  | none =>
      obtain ⟨s, rfl, hrefusal, hrestored⟩ := restore_of_sound (c := c) h
      rw [hrefusal, hrestored, if_pos Option.isNone_none, Snapshot.getElem?_encode_offset]
      rfl
  | some e =>
      obtain ⟨hrefusal, hsame⟩ := restore_of_defect (c := c) h
      rw [hrefusal, hsame]
      rfl

/-- In a frame a timer is given what the program gives to it, and then counts down. -/
theorem toNat_value_advance (t : Timer) (c : Console σ) (keys : Keys) (toneOn : Bool) :
    (t.value (c.advance keys).machine.timers).toNat =
      ((c.given? t (.frame keys toneOn)).getD (t.value c.machine.timers)).toNat -
        (c.counts (.frame keys toneOn)).toNat := by
  cases hidle : c.halted || c.paused with
  | true =>
      rw [advance_of_idle hidle, given?, if_pos hidle, counts, hidle]
      rfl
  | false =>
      have hrun := t.value_run c.dialect c.cyclesPerFrame (c.machine.latch keys) c.source
      rw [advance_of_active hidle, given?, if_neg (by rw [hidle]; decide), counts, hidle]
      show (t.value (run _ _ _ _).machine.timers.tick).toNat = _
      rw [t.toNat_value_tick, hrun]
      rfl

/-- **What a command does to a timer**: it gives it a value or leaves it as it was, and then it
counts it down or does not. -/
theorem toNat_value_perform (t : Timer) (c : Console σ) (command : Command) :
    (t.value (c.perform command).machine.timers).toNat =
      ((c.given? t command).getD (t.value c.machine.timers)).toNat -
        (c.counts command).toNat := by
  cases command with
  | load rom => cases t <;> rfl
  | loadFile path fileName contents =>
      rw [perform]
      rcases loadFile_cases path fileName contents c with ⟨e, -, heject⟩ | ⟨rom, -, -, -, hload⟩
      · rw [heject]
        cases t <;> rfl
      · rw [hload]
        cases t <;> rfl
  | reset =>
      rcases Option.eq_none_or_eq_some c.rom with hrom | ⟨rom, hrom⟩
      · rw [perform_reset_of_rom_eq_none hrom]
        cases t <;> rfl
      · rw [perform, reset_of_rom hrom]
        cases t <;> rfl
  | frame keys toneOn =>
      rw [← toNat_value_advance, perform, console_runFrame]
  | restore bytes =>
      rw [perform, given?_restore]
      rfl
  | togglePause | save => rfl

/-! ## Sessions -/

/-- As long as a timer is given nothing, it counts the frames. -/
theorem toNat_value_foldl (t : Timer) {c : Console σ} {commands : List Command}
    (h : c.Throughout (fun c command => c.given? t command = none) commands) :
    (t.value (commands.foldl perform c).machine.timers).toNat =
      (t.value c.machine.timers).toNat - c.countdowns commands := by
  induction commands generalizing c with
  | nil => rfl
  | cons command commands ih =>
      obtain ⟨hcommand, hcommands⟩ := h
      have hstep := c.toNat_value_perform t command
      rw [hcommand, Option.getD_none] at hstep
      rw [List.foldl_cons, ih hcommands, hstep, countdowns, Nat.sub_sub]

/-- **The timers count frames, each for itself.**  Take either timer and any session.  If no command
has given anything to the timer, it is zero, as it was when the console was switched on.  If some
have, and `v` is what the last of them gave, then the timer is at `v` less the number of frames
from that command on that found the console neither halted nor paused; or at zero, if there are
more of them.

If it was a frame that gave the last value, that frame is counted as well. -/
theorem toNat_value_session (t : Timer) (settings : Settings) (source : σ)
    (commands : List Command) :
    let timer := t.value (session settings source commands).machine.timers
    ((powerOn settings source).Throughout (fun c command => c.given? t command = none) commands ∧
        timer = 0) ∨
      ∃ before command after v, commands = before ++ command :: after ∧
        (session settings source before).given? t command = some v ∧
        (session settings source (before ++ [command])).Throughout
          (fun c command => c.given? t command = none) after ∧
        timer.toNat = v.toNat - (session settings source before).countdowns (command :: after) := by
  intro timer
  rcases throughout_or_exists_last (fun c command => c.given? t command = none)
    (powerOn settings source) commands with hnone | ⟨before, command, after, rfl, hlast, hafter⟩
  · refine Or.inl ⟨hnone, UInt8.toNat_inj.mp ?_⟩
    have hstart : (t.value (powerOn settings source).machine.timers).toNat = 0 := by
      cases t <;> rfl
    exact (toNat_value_foldl t hnone).trans (by rw [hstart, Nat.zero_sub]; rfl)
  · obtain ⟨v, hv⟩ := Option.ne_none_iff_exists'.mp hlast
    refine Or.inr ⟨before, command, after, v, rfl, hv, ?_, ?_⟩
    · rw [session_concat]
      exact hafter
    · have hgiven := (before.foldl perform (powerOn settings source)).toNat_value_perform t command
      rw [hv, Option.getD_some] at hgiven
      have hcount := toNat_value_foldl t hafter
      rw [hgiven, Nat.sub_sub] at hcount
      simp only [timer, session_append, List.foldl_cons]
      exact hcount

end Console
end Chip8
