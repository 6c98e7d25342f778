/-!
# Pacing

A console runs in frames, and whoever drives it has a clock.  A `Pacer` turns
the time that has passed into a number of frames to run now.  Time is counted in
whole nanoseconds.

Elapsed time is saved up in a *backlog*, from which every frame takes the duration
of one frame.  The remainder is kept, so no time is lost however often the pacer is
asked.  There is one exception: when more than `catchUpLimit` frames have fallen
due at once, because the window was being dragged, say, the limit is all that is run
and the rest of the backlog is forgotten.

A frame rate above one per nanosecond leaves a frame no duration at all, and the
number of frames that are due is then not defined; `poll` answers `none`.
-/

namespace Chip8

/-- The rate at which the timers of a console count. -/
def standardRate : Nat := 60

/-- The most frames that fall due at once. -/
def catchUpLimit : Nat := 4

/-- The state of a clock that paces frames. -/
structure Pacer where
  /-- How long a frame lasts. -/
  frameTime : Nat
  /-- When the pacer was last asked. -/
  lastPoll : Nat
  /-- Time that has passed and has not been spent on a frame. -/
  backlog : Nat
  deriving DecidableEq

namespace Pacer

/-- A pacer for a number of frames a second, started at a moment.  Zero frames a
second count as one. -/
def start (framesPerSecond now : Nat) : Pacer :=
  ⟨1000000000 / max framesPerSecond 1, now, 0⟩

/-- The number of frames that have fallen due, and the pacer afterwards. -/
def poll (p : Pacer) (now : Nat) : Option Nat × Pacer :=
  let backlog := p.backlog + (now - p.lastPoll)
  if p.frameTime = 0 then (none, { p with lastPoll := now, backlog })
  else
    let due := backlog / p.frameTime
    if due > catchUpLimit then (some catchUpLimit, { p with lastPoll := now, backlog := 0 })
    else (some due, { p with lastPoll := now, backlog := backlog - p.frameTime * due })

/-- How long it is, as of the last time the pacer was asked, until the next frame
falls due. -/
def untilNext (p : Pacer) : Nat := p.frameTime - p.backlog

/-- After a poll, less than a frame is saved up. -/
theorem backlog_poll_lt (p : Pacer) (now : Nat) (h : p.frameTime ≠ 0) :
    (p.poll now).2.backlog < p.frameTime := by
  have hpos : 0 < p.frameTime := Nat.pos_of_ne_zero h
  simp only [poll, h, if_false]
  split
  · exact hpos
  · rw [← Nat.mod_eq_sub_mul_div]
    exact Nat.mod_lt _ hpos

end Pacer
end Chip8
