import Chip8.Host.Program
import Chip8.Proofs.Console.Command
import Chip8.Proofs.Pacing.Conservation
import Mathlib.Logic.ExistsUnique

/-!
# Who may change what

A session is told of one event after the other, and every event is meant for somebody: for the
keypad, for the console, for a device, or for nobody.  This file is about who is reached by which
events, and about what is left alone.

The keypad is the part with a memory.  Whether one of its keys is down is settled by the last
event that was meant for that key, however many others have come since; `Event.decides?` says
which events those are, and what each of them settles.  The rest is said turn by turn, and
`turn_cases` is all that a turn can be: what is meant for the keypad reaches nothing else
(`turn_of_decides`), nothing else reaches the keypad (`keys_get_turn`), and the console is reached
by three commands and by the frames that have fallen due (`exists_of_console_turn_ne`,
`console_turn_idle`).

An `Occurrence` is an event with the moment at which it comes and the disk that is found then.
Nothing is required of either, so whatever else writes to the disk, or whatever the clock does, is
covered.  A session in the program is a special case (`Program.drive_eq_turns`).
-/

namespace Chip8

/-! ## The names of keys -/

namespace Keyboard

/-- Every key of the keypad has one name and no other. -/
theorem padKey?_eq_some_iff (name : String) (k : Fin 16) :
    padKey? name = some k ↔ name = padNames.get k := by
  constructor
  · intro h
    have hname := List.find?_some h
    exact (eq_of_beq hname).symm
  · rintro rfl
    exact padKey?_padName k

theorem existsUnique_padKey? (k : Fin 16) : ∃! name, padKey? name = some k :=
  ⟨padNames.get k, padKey?_padName k, fun name h => (padKey?_eq_some_iff name k).mp h⟩

theorem binding?_of_padKey? {name : String} {k : Fin 16} (h : padKey? name = some k) :
    binding? name = some (.pad k) := by
  rw [binding?, h]

theorem binding?_of_padKey?_eq_none {name : String} (h : padKey? name = none) :
    binding? name = (command? name).map .command := by
  rw [binding?, h]

theorem mem_commandNames_of_command? {name : String} {c : Command} (h : command? name = some c) :
    (name, c) ∈ commandNames := by
  obtain ⟨before, after, hsplit, -⟩ := List.lookup_eq_some_iff.mp h
  rw [hsplit]
  exact List.mem_append_right before List.mem_cons_self

/-- A name that is none of the five stands for no command. -/
theorem command?_eq_none {name : String} (h : name ∉ ["Escape", "P", "Back", "F5", "F9"]) :
    command? name = none := by
  cases hc : command? name with
  | none => rfl
  | some c =>
      have hname : name ∈ commandNames.map Prod.fst :=
        List.mem_map_of_mem (mem_commandNames_of_command? hc)
      exact absurd hname h

end Keyboard

/-! ## Events and what they are meant for -/

/-- What an event settles about a key of the keypad: that it is down, that it is up, or nothing.
A loss of focus settles that every key is up. -/
def Event.decides? (k : Fin 16) : Event → Option Bool
  | .focused false => some false
  | .key (some name) pressed => if Keyboard.padKey? name = some k then some pressed else none
  | _ => none

/-- An event of the keyboard that is meant for nobody: its key has no name, or the name stands for
nothing, or for a command but the key is released. -/
def Event.MeansNothing : Event → Prop
  | .key none _ => True
  | .key (some name) pressed => Keyboard.padKey? name = none ∧
      (pressed = false ∨ name ∉ ["Escape", "P", "Back", "F5", "F9"])
  | _ => False

/-- An event, with the moment at which it comes and the disk that is found then. -/
structure Occurrence where
  now : Nat
  disk : Disk
  event : Event

namespace Session

variable {σ : Type} [ByteSource σ] (v : Devices)

/-- What an occurrence leads to. -/
def turn (s : Session σ) (o : Occurrence) : Turn σ := s.handle v o.now o.disk o.event

/-- The session after some occurrences. -/
def after (s : Session σ) (past : List Occurrence) : Session σ :=
  past.foldl (fun s o => (s.turn v o).session) s

/-- What each of some occurrences leads to. -/
def turns (s : Session σ) : List Occurrence → List (Turn σ)
  | [] => []
  | o :: later => s.turn v o :: (s.turn v o).session.turns later

/-- Each of some occurrences finds the disk as the one before it has left it. -/
def Undisturbed (s : Session σ) (disk : Disk) : List Occurrence → Prop
  | [] => True
  | o :: later => o.disk = disk ∧ (s.turn v o).session.Undisturbed (s.turn v o).disk later

/-! ## Commands -/

omit [ByteSource σ] in
theorem session_save (s : Session σ) (disk : Disk) : (s.save disk).session = s := by
  unfold save
  split <;> rfl

omit [ByteSource σ] in
/-- Of a session, a command reaches the console at most. -/
theorem session_command (s : Session σ) (disk : Disk) (c : Keyboard.Command) :
    (s.command disk c).session = { s with console := (s.command disk c).session.console } := by
  cases c with
  | quit | pause | reset => rfl
  | save =>
      show (s.save disk).session = { s with console := (s.save disk).session.console }
      rw [session_save]
  | restore =>
      show (s.restore disk).session = { s with console := (s.restore disk).session.console }
      unfold restore
      split <;> rfl

omit [ByteSource σ] in
/-- Three of the five commands reach the console. -/
theorem console_command {s : Session σ} {disk : Disk} {c : Keyboard.Command}
    (h : (s.command disk c).session.console ≠ s.console) :
    c = .pause ∨ c = .reset ∨ c = .restore := by
  cases c with
  | quit => exact absurd rfl h
  | save => exact absurd (congrArg Session.console (s.session_save disk)) h
  | pause => exact Or.inl rfl
  | reset => exact Or.inr (Or.inl rfl)
  | restore => exact Or.inr (Or.inr rfl)

/-! ## Keys of the keyboard -/

omit [ByteSource σ] in
theorem key_of_padKey? {name : String} {k : Fin 16} (h : Keyboard.padKey? name = some k)
    (s : Session σ) (disk : Disk) (pressed : Bool) :
    s.key disk name pressed =
      { session := { s with keys := s.keys.put k pressed }, disk := disk } := by
  rw [key, Keyboard.binding?_of_padKey? h]

omit [ByteSource σ] in
theorem key_of_padKey?_eq_none {name : String} (h : Keyboard.padKey? name = none)
    (s : Session σ) (disk : Disk) (pressed : Bool) :
    s.key disk name pressed = { session := s, disk := disk } ∨
      pressed = true ∧ ∃ c, Keyboard.command? name = some c ∧
        s.key disk name pressed = s.command disk c := by
  rw [key, Keyboard.binding?_of_padKey?_eq_none h]
  cases hc : Keyboard.command? name with
  | none => exact Or.inl rfl
  | some c =>
      cases pressed with
      | false => exact Or.inl rfl
      | true => exact Or.inr ⟨rfl, c, rfl, rfl⟩

/-! ## Frames -/

/-- Of a session, a frame reaches the console, the loudspeaker and the picture at most. -/
theorem session_frame (s : Session σ) : ∃ beeper canvas, (s.frame v).1 =
    { s with
      console := (s.console.runFrame s.keys s.beeper.isOn).console
      beeper := beeper, canvas := canvas } := by
  unfold frame
  dsimp only
  split <;> exact ⟨_, _, rfl⟩

/-- So do any number of frames.  Every one of them is run by the console, with the keys of the
keypad. -/
theorem session_frames (n : Nat) (s : Session σ) :
    ∃ (tones : List Bool) (beeper : Beeper) (canvas : Canvas), tones.length = n ∧
      (frames v n s).1 =
        { s with
          console := (tones.map (Command.frame s.keys)).foldl Console.perform s.console
          beeper := beeper, canvas := canvas } := by
  induction n generalizing s with
  | zero => exact ⟨[], s.beeper, s.canvas, rfl, rfl⟩
  | succ n ih =>
      obtain ⟨beeper, canvas, hframe⟩ := s.session_frame v
      obtain ⟨tones, beeper', canvas', hlength, hframes⟩ := ih (s.frame v).1
      rw [hframe] at hframes
      refine ⟨s.beeper.isOn :: tones, beeper', canvas', congrArg Nat.succ hlength, ?_⟩
      show (frames v n (s.frame v).1).1 = _
      rw [hframe, hframes]
      rfl

/-! ## One turn -/

/-- What a key of the keypad becomes when a key of the keyboard is pressed or released. -/
theorem get_put_eq_decides? {name : String} {key : Fin 16} (h : Keyboard.padKey? name = some key)
    (keys : Keys) (pressed : Bool) (k : Fin 16) :
    (keys.put key pressed).get k =
      ((Event.key (some name) pressed).decides? k).getD (keys.get k) := by
  have hput : (keys.put key pressed).get k = if key = k then pressed else keys.get k :=
    Keys.getElem_put keys key pressed k
  rw [hput, Event.decides?, h]
  by_cases hkey : key = k
  · rw [if_pos hkey, if_pos (congrArg some hkey), Option.getD_some]
  · rw [if_neg hkey, if_neg (fun h => hkey (Option.some.inj h)), Option.getD_none]

/-- **What a turn can be.**  An event is meant for the keypad and changes nothing else; or it
settles nothing about the keypad.  Then it gives a command; or else the disk is left alone, and as
many frames are run as are due or the session stays as it is. -/
theorem turn_cases (s : Session σ) (o : Occurrence) :
    (∃ keys : Keys, s.turn v o = { session := { s with keys := keys }, disk := o.disk } ∧
      ∀ k, keys.get k = (o.event.decides? k).getD (s.keys.get k)) ∨
    (∀ k, o.event.decides? k = none) ∧
      ((∃ name c, o.event = .key (some name) true ∧ Keyboard.command? name = some c ∧
          s.turn v o = s.command o.disk c) ∨
        (s.turn v o).disk = o.disk ∧
          ((o.event = .idle ∧ ∃ (tones : List Bool) (beeper : Beeper) (canvas : Canvas),
              tones.length = (s.pacer.poll o.now).1.getD 0 ∧ (s.turn v o).session =
                { s with
                  console := (tones.map (Command.frame s.keys)).foldl Console.perform s.console
                  beeper := beeper, canvas := canvas, pacer := (s.pacer.poll o.now).2 }) ∨
            (s.turn v o).session = s)) := by
  obtain ⟨now, disk, event⟩ := o
  cases event with
  | closeRequested | resized | redrawRequested | other =>
      exact Or.inr ⟨fun _ => rfl, Or.inr ⟨rfl, Or.inr rfl⟩⟩
  | focused gained =>
      cases gained with
      | true => exact Or.inr ⟨fun _ => rfl, Or.inr ⟨rfl, Or.inr rfl⟩⟩
      | false => exact Or.inl ⟨.released, rfl, Keys.getElem_released⟩
  | idle =>
      have hframes := session_frames v ((s.pacer.poll now).1.getD 0)
        { s with pacer := (s.pacer.poll now).2 }
      exact Or.inr ⟨fun _ => rfl, Or.inr ⟨rfl, Or.inl ⟨rfl, hframes⟩⟩⟩
  | key name pressed =>
      cases name with
      | none => exact Or.inr ⟨fun _ => rfl, Or.inr ⟨rfl, Or.inr rfl⟩⟩
      | some name =>
          cases hpad : Keyboard.padKey? name with
          | some key =>
              exact Or.inl ⟨_, key_of_padKey? hpad s disk pressed,
                get_put_eq_decides? hpad s.keys pressed⟩
          | none =>
              refine Or.inr ⟨fun k => ?_, ?_⟩
              · rw [Event.decides?, hpad]
                exact if_neg (Option.some_ne_none k).symm
              · rcases key_of_padKey?_eq_none hpad s disk pressed with h | ⟨rfl, c, hc, h⟩
                · exact Or.inr ⟨congrArg Turn.disk h, Or.inr (congrArg Turn.session h)⟩
                · exact Or.inl ⟨name, c, rfl, hc, h⟩

/-- **What an event does to a key of the keypad** is what it settles about it, if anything. -/
theorem keys_get_turn (s : Session σ) (o : Occurrence) (k : Fin 16) :
    (s.turn v o).session.keys.get k = (o.event.decides? k).getD (s.keys.get k) := by
  rcases s.turn_cases v o with ⟨keys, hturn, hkeys⟩ | ⟨hnone, hother⟩
  · rw [hturn]
    exact hkeys k
  · rw [hnone, Option.getD_none]
    rcases hother with
      ⟨name, c, -, -, hturn⟩ | ⟨-, ⟨-, tones, beeper, canvas, -, hsession⟩ | hsession⟩
    · rw [hturn, session_command]
    · rw [hsession]
    · rw [hsession]

theorem keys_turn_of_decides_eq_none (s : Session σ) {o : Occurrence}
    (h : ∀ k, o.event.decides? k = none) : (s.turn v o).session.keys = s.keys := by
  refine Vector.ext fun i hi => ?_
  have hkey := s.keys_get_turn v o ⟨i, hi⟩
  rw [h, Option.getD_none] at hkey
  exact hkey

/-- A turn does not change how long a frame lasts. -/
theorem frameTime_turn (s : Session σ) (o : Occurrence) :
    (s.turn v o).session.pacer.frameTime = s.pacer.frameTime := by
  rcases s.turn_cases v o with
    ⟨keys, hturn, -⟩ | ⟨-, ⟨name, c, -, -, hturn⟩ |
      ⟨-, ⟨-, tones, beeper, canvas, -, hsession⟩ | hsession⟩⟩
  · rw [hturn]
  · rw [hturn, session_command]
  · rw [hsession]
    exact Pacer.frameTime_poll _ _
  · rw [hsession]

/-- What is meant for the keypad reaches nothing else: not the console, no device, and not the
course of the session. -/
theorem turn_of_decides (s : Session σ) {o : Occurrence} {k : Fin 16}
    (h : o.event.decides? k ≠ none) :
    s.turn v o =
      { session := { s with keys := (s.turn v o).session.keys }, disk := o.disk } := by
  rcases s.turn_cases v o with ⟨keys, hturn, -⟩ | ⟨hnone, -⟩
  · rw [hturn]
  · exact absurd (hnone k) h

theorem turn_of_meansNothing (s : Session σ) {o : Occurrence} (h : o.event.MeansNothing) :
    s.turn v o = { session := s, disk := o.disk } := by
  obtain ⟨now, disk, event⟩ := o
  cases event with
  | closeRequested | resized | focused | idle | redrawRequested | other => exact False.elim h
  | key name pressed =>
      cases name with
      | none => rfl
      | some name =>
          obtain ⟨hpad, hvoid⟩ := h
          rcases key_of_padKey?_eq_none hpad s disk pressed with hturn | ⟨hpressed, c, hc, -⟩
          · exact hturn
          · -- pressed, and so the name of no command
            rcases hvoid with hreleased | hname
            · exact absurd (hpressed.symm.trans hreleased) (by decide)
            · exact absurd (hc.symm.trans (Keyboard.command?_eq_none hname)) (Option.some_ne_none c)

/-- The console is reached by three commands, when their keys are pressed, and by frames. -/
theorem exists_of_console_turn_ne {s : Session σ} {o : Occurrence}
    (h : (s.turn v o).session.console ≠ s.console) :
    o.event = .idle ∨ ∃ name ∈ ["P", "Back", "F9"], o.event = .key (some name) true := by
  rcases s.turn_cases v o with
    ⟨keys, hturn, -⟩ | ⟨-, ⟨name, c, hevent, hc, hturn⟩ | ⟨-, ⟨hidle, -⟩ | hsession⟩⟩
  · rw [hturn] at h
    exact absurd rfl h
  · rw [hturn] at h
    have hname := Keyboard.mem_commandNames_of_command? hc
    refine Or.inr ⟨name, ?_, hevent⟩
    rcases console_command h with rfl | rfl | rfl <;>
      simp [Keyboard.commandNames] at hname <;> simp [hname]
  · exact Or.inl hidle
  · rw [hsession] at h
    exact absurd rfl h

/-- When there is nothing else to do, as many frames are run as have fallen due. -/
theorem console_turn_idle {s : Session σ} {o : Occurrence} (h : o.event = .idle)
    (hframe : s.pacer.frameTime ≠ 0) :
    ∃ n, ∃ tones : List Bool, (s.pacer.poll o.now).1 = some n ∧ tones.length = n ∧
      (s.turn v o).session.console =
        (tones.map (Command.frame s.keys)).foldl Console.perform s.console := by
  obtain ⟨now, disk, event⟩ := o
  subst h
  have hpoll := Pacer.answer_poll hframe now
  obtain ⟨tones, beeper, canvas, hlength, hframes⟩ :=
    session_frames v ((s.pacer.poll now).1.getD 0) { s with pacer := (s.pacer.poll now).2 }
  refine ⟨_, tones, hpoll, by rw [hlength, hpoll, Option.getD_some], ?_⟩
  exact congrArg console hframes

/-! ## Many turns -/

/-- **The last event that is meant for a key settles whether it is down.**  If there has been none,
the key is as it was. -/
theorem keys_get_after (s : Session σ) (past : List Occurrence) (k : Fin 16) :
    (s.after v past).keys.get k =
      (past.filterMap fun o => o.event.decides? k).getLast?.getD (s.keys.get k) := by
  induction past generalizing s with
  | nil => rfl
  | cons o past ih =>
      show ((s.turn v o).session.after v past).keys.get k = _
      rw [ih, keys_get_turn]
      cases hdecides : o.event.decides? k with
      | none =>
          rw [List.filterMap_cons_none (by exact hdecides), Option.getD_none]
      | some down =>
          rw [List.filterMap_cons_some (by exact hdecides), List.getLast?_cons, Option.getD_some,
            Option.getD_some]

theorem frameTime_after (s : Session σ) (past : List Occurrence) :
    (s.after v past).pacer.frameTime = s.pacer.frameTime := by
  induction past generalizing s with
  | nil => rfl
  | cons o past ih =>
      show ((s.turn v o).session.after v past).pacer.frameTime = _
      rw [ih, frameTime_turn]

end Session

/-! ## Sessions in the program -/

namespace Program

variable {σ : Type} [ByteSource σ]

/-- **The turns that the program takes.**  It handles the events that it is given up to the first
one that ends the session, and nobody else writes to its disk; what it does and reports, and the
disk that it leaves, are what the session does and reports in these turns and the disk after the
last of them. -/
theorem drive_eq_turns (v : Devices) (now : Nat) (disk : Disk) (s : Session σ)
    (events : List (Nat × Event)) :
    ∃ past : List Occurrence,
      past.map Occurrence.event <+: events.map Prod.snd ∧
      (past.length = events.length ∨
        ∃ t, (s.turns v past).getLast? = some t ∧ t.flow = some .exit) ∧
      s.Undisturbed v disk past ∧
      drive v now disk s events =
        ((s.turns v past).map fun t => (t.calls, t.flow), (s.turns v past).flatMap Turn.reports,
          ((s.turns v past).getLast?.map Turn.disk).getD disk) := by
  induction events generalizing now disk s with
  | nil => exact ⟨[], List.prefix_rfl, Or.inl rfl, trivial, rfl⟩
  | cons next events ih =>
      obtain ⟨elapsed, event⟩ := next
      let o : Occurrence := ⟨now + elapsed, disk, event⟩
      by_cases hexit : (s.turn v o).flow = some .exit
      · refine ⟨[o], List.cons_prefix_cons.mpr ⟨rfl, List.nil_prefix⟩,
          Or.inr ⟨s.turn v o, rfl, hexit⟩, ⟨rfl, trivial⟩, ?_⟩
        rw [drive]
        exact (if_pos hexit).trans (by simp [Session.turns, Session.turn, o])
      · obtain ⟨past, hprefix, hend, hdisk, hdrive⟩ :=
          ih (now + elapsed) (s.turn v o).disk (s.turn v o).session
        refine ⟨o :: past, List.cons_prefix_cons.mpr ⟨rfl, hprefix⟩, ?_, ⟨rfl, hdisk⟩, ?_⟩
        · refine hend.imp (congrArg Nat.succ) fun ⟨t, hlast, hflow⟩ => ⟨t, ?_, hflow⟩
          rw [Session.turns, List.getLast?_cons, hlast, Option.getD_some]
        · rw [drive]
          refine (if_neg hexit).trans ?_
          let later := drive v (now + elapsed) (s.turn v o).disk (s.turn v o).session events
          show (((s.turn v o).calls, (s.turn v o).flow) :: later.1,
            (s.turn v o).reports ++ later.2.1, later.2.2) = _
          rw [show later = _ from hdrive, Session.turns, List.getLast?_cons]
          cases (Session.turns v (s.turn v o).session past).getLast? <;> rfl

omit [ByteSource σ] in
theorem openSession_eq_ok {v : Devices} {c : CommandLine.Configuration} {console : Console σ}
    {opened : Session σ} {calls : List DeviceCall} {reports : List Report}
    (h : openSession v c console = .ok (opened, calls, reports)) :
    opened.keys = .released ∧ opened.pacer.frameTime ≠ 0 ∧ opened.console = console ∧
      opened.snapshotPath = snapshotPath c.path := by
  unfold openSession at h
  dsimp only at h
  split at h
  · cases h
  · cases h
  · cases h
    exact ⟨rfl, (Pacer.frameTime_eq_zero_iff standardRate).not.mpr (by decide), rfl, rfl⟩

end Program

/-! ## All of it -/

namespace Session

variable {σ : Type} [ByteSource σ]

/-- **Every event reaches those whom it is meant for, and nobody else.**  Open a session at a
window, and let any events come, each at any moment and with any disk.

* Every key of the keypad has one name on the keyboard.  It is down exactly if there has been an
  event that settles it, which is a press or a release of the key with that name or a loss of
  focus, and the last of them was a press.
* An event that settles a key of the keypad changes nothing but the keypad: the console and the
  disk are as they were, no device is called, nothing is reported, and the session goes on as it
  would have gone on.  Every other event leaves the keypad alone.
* The keys without a name, the keys that stand for nothing and the releases of keys that do not
  belong to the keypad change nothing at all.
* The console is changed by a press of the keys for pause, reset and restore, and by the frames
  that are run when there is nothing else to do.  Of those there are as many as the clock says
  have fallen due, and each of them is shown the keys of the keypad. -/
theorem events_routed {v : Devices} {c : CommandLine.Configuration} {console : Console σ}
    {opened : Session σ} {calls : List DeviceCall} {reports : List Report}
    (h : Program.openSession v c console = .ok (opened, calls, reports))
    (past : List Occurrence) :
    let s := opened.after v past
    (∀ k : Fin 16, (∃! name, Keyboard.padKey? name = some k) ∧
      (s.keys.get k = true ↔
        (past.filterMap fun o => o.event.decides? k).getLast? = some true)) ∧
    ∀ o : Occurrence,
      let turn := s.turn v o
      ((∃ k, o.event.decides? k ≠ none) →
        turn = { session := { s with keys := turn.session.keys }, disk := o.disk }) ∧
      ((∀ k, o.event.decides? k = none) → turn.session.keys = s.keys) ∧
      (o.event.MeansNothing → turn = { session := s, disk := o.disk }) ∧
      (turn.session.console ≠ s.console →
        o.event = .idle ∨ ∃ name ∈ ["P", "Back", "F9"], o.event = .key (some name) true) ∧
      (o.event = .idle → ∃ n, ∃ tones : List Bool,
        (s.pacer.poll o.now).1 = some n ∧ tones.length = n ∧
          turn.session.console =
            (tones.map (Command.frame s.keys)).foldl Console.perform s.console) := by
  intro s
  obtain ⟨hreleased, hframe, -, -⟩ := Program.openSession_eq_ok h
  refine ⟨fun k => ⟨Keyboard.existsUnique_padKey? k, ?_⟩, fun o => ?_⟩
  · have hkey : s.keys.get k =
        (past.filterMap fun o => o.event.decides? k).getLast?.getD false := by
      rw [keys_get_after, hreleased]
      exact congrArg _ (Keys.getElem_released k)
    rw [hkey]
    cases (past.filterMap fun o => o.event.decides? k).getLast? with
    | none => simp
    | some down => simp
  · intro turn
    refine ⟨fun ⟨k, hk⟩ => s.turn_of_decides v hk, s.keys_turn_of_decides_eq_none v,
      s.turn_of_meansNothing v, exists_of_console_turn_ne v, fun hidle => ?_⟩
    exact console_turn_idle v hidle (by rw [frameTime_after]; exact hframe)

/-- A key that is held down when the focus is lost is up afterwards.  A key that is pressed later
is down, and it stays down while the console is paused.  Two frames fall due in 40 milliseconds. -/
theorem events_routed_focus_lost :
    let v : Devices := {}
    let disk : Disk := ⟨[], []⟩
    let past : List Occurrence :=
      [⟨3, disk, .key (some "Q") true⟩, ⟨8, disk, .focused false⟩,
        ⟨9, disk, .key (some "W") true⟩, ⟨12, disk, .key (some "P") true⟩]
    ∃ (opened : Session Seeded) (calls : List DeviceCall) (reports : List Report),
      Program.openSession v ⟨"pong", {}, 10, false⟩ (Console.powerOn {} ⟨7⟩) =
        .ok (opened, calls, reports) ∧
      let s := opened.after v past
      s.keys.get (Keys.ofByte 4) = false ∧ s.keys.get (Keys.ofByte 5) = true ∧
      s.turn v ⟨20, disk, .key (some "P") false⟩ = { session := s, disk } ∧
      ∃ tones : List Bool, tones.length = 2 ∧
        (s.turn v ⟨40000000, disk, .idle⟩).session.console =
          (tones.map (Command.frame s.keys)).foldl Console.perform s.console := by
  intro v disk past
  have hopened : ∃ opened calls reports,
      Program.openSession v ⟨"pong", {}, 10, false⟩ (Console.powerOn {} (⟨7⟩ : Seeded)) =
        .ok (opened, calls, reports) ∧
      ((opened.after v past).pacer.poll 40000000).1 = some 2 :=
    ⟨_, _, _, rfl, by decide +kernel⟩
  obtain ⟨opened, calls, reports, hopened, hpoll⟩ := hopened
  obtain ⟨hkeys, hturns⟩ := events_routed hopened past
  have hdown := (hkeys (Keys.ofByte 5)).2.mpr (by decide +kernel)
  have hup := (hkeys (Keys.ofByte 4)).2.not.mpr (by decide +kernel)
  obtain ⟨-, -, hnothing, -, -⟩ := hturns ⟨20, disk, .key (some "P") false⟩
  obtain ⟨-, -, -, -, hidle⟩ := hturns ⟨40000000, disk, .idle⟩
  obtain ⟨n, tones, hdue, hlength, hconsole⟩ := hidle rfl
  have htwo : n = 2 := Option.some.inj (hdue.symm.trans hpoll)
  exact ⟨opened, calls, reports, hopened, Bool.eq_false_iff.mpr hup, hdown,
    hnothing ⟨by decide +kernel, Or.inl rfl⟩, tones, hlength.trans htwo, hconsole⟩

end Session
end Chip8
