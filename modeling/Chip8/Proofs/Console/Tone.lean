import Chip8.Proofs.Console.Frame
import Mathlib.Data.List.Chain
import Mathlib.Data.List.Induction

/-!
# The tone follows the sound timer

A console does not remember whether the tone is on.  It is told in every frame, and asks for a
switch if one is needed.  Here the two are put together: a `Sounding` is a console with a tone
that obeys it and nobody else, so what the console is told is what its own switches have come
to.

Nothing but a frame switches the tone.  Between two frames the sound timer may change behind
its back: a reset clears it, a restore replaces it, and a pause or a halt is to silence the
tone although the timer has not run out.  All of this is made up for in the next frame,
because a frame does not go by the change but compares the tone as it is with the tone as it
should be (`isOn_switch_between?`).  For the same reason no switch is ever asked for twice.
-/

namespace Chip8

/-- Whether the tone is on after a switch. -/
def ToneSwitch.leavesOn : ToneSwitch → Bool
  | .start => true
  | .stop => false

/-- A tone, which is on or off, with the switches that have reached it in order. -/
structure Tone where
  isOn : Bool
  switches : List ToneSwitch := []

namespace Tone

/-- The tone after a switch, or as it was if there is none. -/
def switch (t : Tone) : Option ToneSwitch → Tone
  | none => t
  | some s => ⟨s.leavesOn, t.switches ++ [s]⟩

theorem switches_switch (t : Tone) (change : Option ToneSwitch) :
    (t.switch change).switches = t.switches ++ change.toList := by
  cases change with
  | none => rw [switch, Option.toList_none, List.append_nil]
  | some s => rfl

/-- The switch that is needed is none, or the one that the tone has not had last. -/
theorem between?_cases (isOn wanted : Bool) :
    ToneSwitch.between? isOn wanted = none ∨
      ToneSwitch.between? isOn wanted = some (if isOn then .stop else .start) := by
  cases isOn <;> cases wanted <;> decide

/-- With the switch that is needed, the tone comes to be as it should. -/
theorem isOn_switch_between? (t : Tone) (wanted : Bool) :
    (t.switch (ToneSwitch.between? t.isOn wanted)).isOn = wanted := by
  obtain ⟨isOn, switches⟩ := t
  cases isOn <;> cases wanted <;> rfl

/-- No switch follows one of its own kind, and the last one has left the tone as it is. -/
structure Alternates (t : Tone) : Prop where
  chain : t.switches.IsChain (· ≠ ·)
  last : ∀ s ∈ t.switches.getLast?, s.leavesOn = t.isOn

/-- The switch that is needed keeps it so. -/
theorem Alternates.switch_between? {t : Tone} (h : t.Alternates) (wanted : Bool) :
    (t.switch (ToneSwitch.between? t.isOn wanted)).Alternates := by
  rcases between?_cases t.isOn wanted with hnone | hsome
  · rw [hnone]
    exact h
  · rw [hsome]
    refine ⟨List.isChain_append.mpr ⟨h.chain, List.isChain_singleton _, ?_⟩, ?_⟩
    · -- the last switch has left the tone as it is, and the one that is needed would not
      intro s hs s' hs' heq
      have hlast := h.last s hs
      obtain rfl : (if t.isOn then .stop else .start) = s' := by simpa using hs'
      rw [heq] at hlast
      cases hon : t.isOn <;> simp [hon, ToneSwitch.leavesOn] at hlast
    · intro s hs
      rw [switch, List.getLast?_concat] at hs
      rw [switch, Option.some.inj hs]

end Tone

/-- A console, with a tone that it alone switches. -/
structure Sounding (σ : Type) where
  console : Console σ
  tone : Tone

namespace Sounding

variable {σ : Type} [ByteSource σ]

/-- The console and the tone after a command.  In a frame the console is told whether the tone is
on, whatever the command says about it, and the tone is switched as the console asks. -/
def perform (s : Sounding σ) : Command → Sounding σ
  | .frame keys _ =>
      let f := s.console.runFrame keys s.tone.isOn
      ⟨f.console, s.tone.switch f.tone⟩
  | command => ⟨s.console.perform command, s.tone⟩

theorem perform_of_isFrame (s : Sounding σ) {command : Command} (h : command.isFrame = false) :
    s.perform command = ⟨s.console.perform command, s.tone⟩ := by
  cases command with
  | frame keys toneOn => cases h
  | _ => rfl

/-- The console and the tone at the end of a session, of which the tone may have been on at the
start. -/
def session (settings : Settings) (source : σ) (on : Bool) (commands : List Command) :
    Sounding σ :=
  commands.foldl perform ⟨.powerOn settings source, { isOn := on }⟩

/-- The tone makes no difference to the console. -/
theorem console_perform (s : Sounding σ) (command : Command) :
    (s.perform command).console = s.console.perform command := by
  cases command with
  | frame keys toneOn =>
      -- the two frames are told different things of the tone, and advance alike
      simp only [perform, Console.perform, Console.console_runFrame]
  | _ => rw [perform_of_isFrame s rfl]

theorem console_session (settings : Settings) (source : σ) (on : Bool) (commands : List Command) :
    (session settings source on commands).console = Console.session settings source commands := by
  induction commands using List.reverseRecOn with
  | nil => rfl
  | append_singleton commands command ih =>
      rw [Console.session_concat, ← ih, ← console_perform, session, List.foldl_append]
      rfl

/-- No command asks for a switch that the tone has just had. -/
theorem alternates_perform {s : Sounding σ} (h : s.tone.Alternates) (command : Command) :
    (s.perform command).tone.Alternates := by
  cases command with
  | frame keys toneOn =>
      simp only [perform, Console.tone_runFrame]
      exact h.switch_between? _
  | _ =>
      rw [perform_of_isFrame s rfl]
      exact h

theorem alternates_session (settings : Settings) (source : σ) (on : Bool)
    (commands : List Command) : (session settings source on commands).tone.Alternates := by
  have hstart : Tone.Alternates { isOn := on } := ⟨List.isChain_nil, by simp⟩
  exact List.foldlRecOn (motive := fun s : Sounding σ => s.tone.Alternates) commands perform hstart
    fun s h command _ => alternates_perform h command

/-- **The tone follows the sound timer.**  Take any session of a console with a tone that it alone
switches, and run a frame.

* Afterwards the tone is on exactly if the console was neither halted nor paused when the frame
  began, and the sound timer has not run out with the tick of the frame.
* The frame asks for one switch at most.  It is a stop if the tone was on, and a start if it was
  off.
* Over the whole session starts and stops alternate. -/
theorem tone_follows_sound_timer (settings : Settings) (source : σ) (on : Bool)
    (commands : List Command) (keys : Keys) (toneOn : Bool) :
    let s := session settings source on commands
    let f := s.console.runFrame keys s.tone.isOn
    let s' := session settings source on (commands ++ [.frame keys toneOn])
    s.console = Console.session settings source commands ∧
      s'.console = f.console ∧
      (s'.tone.isOn = true ↔
        s.console.halted = false ∧ s.console.paused = false ∧
          f.console.machine.timers.sound ≠ 0) ∧
      s'.tone.switches = s.tone.switches ++ f.tone.toList ∧
      (f.tone = none ∨ f.tone = some (if s.tone.isOn then .stop else .start)) ∧
      s'.tone.switches.IsChain (· ≠ ·) := by
  intro s f s'
  have hs' : s' = ⟨f.console, s.tone.switch f.tone⟩ := by
    simp only [s', session, List.foldl_append]
    rfl
  have htone : f.tone = ToneSwitch.between? s.tone.isOn
      (!(s.console.halted || s.console.paused) && f.console.machine.timers.isSounding) := by
    simp only [f, Console.tone_runFrame, Console.console_runFrame]
  refine ⟨console_session settings source on commands, ?_, ?_, ?_, ?_,
    (alternates_session settings source on _).chain⟩
  · rw [hs']
  · rw [hs', htone, Tone.isOn_switch_between?]
    simp [Timers.isSounding, and_assoc]
  · rw [hs', Tone.switches_switch]
  · rw [htone]
    exact Tone.between?_cases _ _

end Sounding
end Chip8
