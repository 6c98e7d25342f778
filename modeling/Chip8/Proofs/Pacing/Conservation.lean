import Chip8.Pacing
import Mathlib.Data.List.Chain

/-!
# Pacing neither loses nor invents frames

A pacer is asked at irregular moments how many frames have fallen due.  Whether it keeps time
cannot be seen from one answer, because what an answer leaves over is kept for the next.  So
this file is about *sequences* of polls, and about the sum of their answers.

What holds it together is an equation for one poll (`conserved_poll`):

    frames * frameTime + backlog afterwards = backlog before + time that has passed

as long as no more frames have fallen due than the limit allows.  Past the limit the right-hand
side is the larger one, since the rest of the backlog is forgotten.  Summed over a sequence of
polls, the backlogs in between cancel, and the time that has passed is the time from the start to
the last poll, however it was split up (`conserved_after`).  Since less than a frame is ever saved
up, the number of frames is then a quotient and the backlog a remainder.

A poll past the limit leaves the pacer that would be started at that moment.  So nothing more
needs to be said about what comes after it.
-/

namespace Chip8
namespace Pacer

/-- How many frames have fallen due at a moment, before the limit is put on them. -/
def due (p : Pacer) (now : Nat) : Nat := (p.backlog + (now - p.lastPoll)) / p.frameTime

/-- The pacer after it was asked at each of the moments. -/
def after (p : Pacer) (moments : List Nat) : Pacer :=
  moments.foldl (fun p now => (p.poll now).2) p

/-- What it answered, in order. -/
def answers (p : Pacer) : List Nat → List (Option Nat)
  | [] => []
  | now :: moments => (p.poll now).1 :: (p.poll now).2.answers moments

/-- How many frames it has asked for in all. -/
def frames (p : Pacer) (moments : List Nat) : Nat :=
  (p.answers moments).foldr (fun answer total => answer.getD 0 + total) 0

/-- At none of the moments have more frames fallen due than the limit allows. -/
def KeepsUp (p : Pacer) : List Nat → Prop
  | [] => True
  | now :: moments => p.due now ≤ catchUpLimit ∧ (p.poll now).2.KeepsUp moments

instance decidableKeepsUp : (p : Pacer) → (moments : List Nat) → Decidable (p.KeepsUp moments)
  | _, [] => inferInstanceAs (Decidable True)
  | p, now :: moments =>
      have := decidableKeepsUp (p.poll now).2 moments
      inferInstanceAs (Decidable (_ ∧ _))

/-! ## One poll -/

/-- Without a duration of a frame there is no answer. -/
theorem poll_of_frameTime_eq_zero {p : Pacer} (h : p.frameTime = 0) (now : Nat) :
    (p.poll now).1 = none := by
  rw [poll, if_pos h]

/-- Up to the limit, all frames that are due are run, and the remainder is kept. -/
theorem poll_of_due_le {p : Pacer} {now : Nat} (h : p.frameTime ≠ 0)
    (hdue : p.due now ≤ catchUpLimit) :
    p.poll now = (some (p.due now), { p with
      lastPoll := now, backlog := (p.backlog + (now - p.lastPoll)) % p.frameTime }) := by
  have hlimit : ¬(p.backlog + (now - p.lastPoll)) / p.frameTime > catchUpLimit :=
    Nat.not_lt.mpr hdue
  simp only [poll, if_neg h, if_neg hlimit, ← Nat.mod_eq_sub_mul_div]
  rfl

/-- Past the limit, as many frames as it allows are run, and the rest is forgotten. -/
theorem poll_of_lt_due {p : Pacer} {now : Nat} (h : p.frameTime ≠ 0)
    (hdue : catchUpLimit < p.due now) :
    p.poll now = (some catchUpLimit, { p with lastPoll := now, backlog := 0 }) := by
  have hlimit : (p.backlog + (now - p.lastPoll)) / p.frameTime > catchUpLimit := hdue
  simp only [poll, if_neg h, if_pos hlimit]

theorem frameTime_poll (p : Pacer) (now : Nat) : (p.poll now).2.frameTime = p.frameTime := by
  unfold poll
  split
  · rfl
  · dsimp only
    split <;> rfl

theorem lastPoll_poll (p : Pacer) (now : Nat) : (p.poll now).2.lastPoll = now := by
  unfold poll
  split
  · rfl
  · dsimp only
    split <;> rfl

theorem answer_poll {p : Pacer} (h : p.frameTime ≠ 0) (now : Nat) :
    (p.poll now).1 = some (min catchUpLimit (p.due now)) := by
  rcases Nat.lt_or_ge catchUpLimit (p.due now) with hlt | hle
  · rw [poll_of_lt_due h hlt, Nat.min_eq_left hlt.le]
  · rw [poll_of_due_le h hle, Nat.min_eq_right hle]

/-- There is no answer exactly if a frame has no duration. -/
theorem answer_poll_eq_none_iff (p : Pacer) (now : Nat) :
    (p.poll now).1 = none ↔ p.frameTime = 0 := by
  constructor
  · intro hnone
    by_contra h
    rw [answer_poll h] at hnone
    cases hnone
  · intro h
    exact poll_of_frameTime_eq_zero h now

/-- With less than a frame saved up, the next frame is still to come, and within a frame. -/
theorem untilNext_of_backlog_lt {p : Pacer} (h : p.backlog < p.frameTime) :
    0 < p.untilNext ∧ p.untilNext ≤ p.frameTime :=
  ⟨Nat.sub_pos_of_lt h, Nat.sub_le _ _⟩

/-- **No time is lost in a poll**, and up to the limit none is invented. -/
theorem conserved_poll {p : Pacer} (h : p.frameTime ≠ 0) (now : Nat) :
    (p.poll now).1.getD 0 * p.frameTime + (p.poll now).2.backlog ≤
        p.backlog + (now - p.lastPoll) ∧
      (p.due now ≤ catchUpLimit →
        (p.poll now).1.getD 0 * p.frameTime + (p.poll now).2.backlog =
          p.backlog + (now - p.lastPoll)) := by
  have hdivision : p.due now * p.frameTime + (p.backlog + (now - p.lastPoll)) % p.frameTime =
      p.backlog + (now - p.lastPoll) := Nat.div_add_mod' _ _
  rcases Nat.lt_or_ge catchUpLimit (p.due now) with hlt | hle
  · have hless : catchUpLimit * p.frameTime ≤ p.due now * p.frameTime :=
      Nat.mul_le_mul_right _ hlt.le
    rw [poll_of_lt_due h hlt]
    refine ⟨?_, fun hle => absurd hlt (Nat.not_lt.mpr hle)⟩
    show catchUpLimit * p.frameTime + 0 ≤ _
    omega
  · rw [poll_of_due_le h hle]
    exact ⟨hdivision.le, fun _ => hdivision⟩

/-! ## Sequences of polls -/

theorem frameTime_after (p : Pacer) (moments : List Nat) :
    (p.after moments).frameTime = p.frameTime := by
  induction moments generalizing p with
  | nil => rfl
  | cons now moments ih =>
      show ((p.poll now).2.after moments).frameTime = _
      rw [ih, frameTime_poll]

theorem lastPoll_after (p : Pacer) (moments : List Nat) :
    (p.after moments).lastPoll = moments.getLastD p.lastPoll := by
  induction moments generalizing p with
  | nil => rfl
  | cons now moments ih =>
      show ((p.poll now).2.after moments).lastPoll = _
      rw [ih, lastPoll_poll, List.getLastD_cons]

theorem backlog_after_lt {p : Pacer} (h : p.backlog < p.frameTime) (moments : List Nat) :
    (p.after moments).backlog < p.frameTime := by
  induction moments generalizing p with
  | nil => exact h
  | cons now moments ih =>
      have hpoll := p.backlog_poll_lt now (Nat.ne_zero_of_lt h)
      rw [← frameTime_poll p now] at hpoll ⊢
      exact ih hpoll

theorem after_append (p : Pacer) (before later : List Nat) :
    p.after (before ++ later) = (p.after before).after later :=
  List.foldl_append

theorem answers_append (p : Pacer) (before later : List Nat) :
    p.answers (before ++ later) = p.answers before ++ (p.after before).answers later := by
  induction before generalizing p with
  | nil => rfl
  | cons now before ih =>
      show _ :: (p.poll now).2.answers (before ++ later) = _
      rw [ih]
      rfl

theorem frames_cons (p : Pacer) (now : Nat) (moments : List Nat) :
    p.frames (now :: moments) = (p.poll now).1.getD 0 + (p.poll now).2.frames moments := rfl

/-- In a sequence of moments that does not go back, the last is the latest. -/
theorem le_getLastD_of_isChain {start : Nat} {moments : List Nat}
    (h : (start :: moments).IsChain (· ≤ ·)) : start ≤ moments.getLastD start := by
  induction moments generalizing start with
  | nil => exact Nat.le_refl _
  | cons now moments ih =>
      obtain ⟨hle, hchain⟩ := List.isChain_cons_cons.mp h
      rw [List.getLastD_cons]
      exact hle.trans (ih hchain)

/-- **No time is lost between polls**, and if the limit is never passed none is invented: the
backlogs cancel, and what remains is the time from the first moment to the last. -/
theorem conserved_after {p : Pacer} (h : p.frameTime ≠ 0) {moments : List Nat}
    (hchain : (p.lastPoll :: moments).IsChain (· ≤ ·)) :
    p.frames moments * p.frameTime + (p.after moments).backlog ≤
        p.backlog + (moments.getLastD p.lastPoll - p.lastPoll) ∧
      (p.KeepsUp moments →
        p.frames moments * p.frameTime + (p.after moments).backlog =
          p.backlog + (moments.getLastD p.lastPoll - p.lastPoll)) := by
  induction moments generalizing p with
  | nil =>
      have hzero : p.frames [] = 0 := rfl
      rw [hzero, Nat.zero_mul, Nat.zero_add, List.getLastD_nil, Nat.sub_self]
      exact ⟨Nat.le_refl _, fun _ => rfl⟩
  | cons now moments ih =>
      obtain ⟨hle, htail⟩ := List.isChain_cons_cons.mp hchain
      have htime := frameTime_poll p now
      have hlast := lastPoll_poll p now
      have hend := le_getLastD_of_isChain htail
      obtain ⟨hpoll, hpoll'⟩ := conserved_poll h now
      obtain ⟨hrest, hrest'⟩ := @ih (p.poll now).2 (htime ▸ h) (hlast.symm ▸ htail)
      rw [htime, hlast] at hrest hrest'
      rw [frames_cons, Nat.add_mul, List.getLastD_cons]
      show _ + ((p.poll now).2.after moments).backlog ≤ _ ∧ (_ →
        _ + ((p.poll now).2.after moments).backlog = _)
      refine ⟨by omega, fun ⟨hdue, hkeeps⟩ => ?_⟩
      have hpoll'' := hpoll' hdue
      have hrest'' := hrest' hkeeps
      omega

/-! ## A pacer from its start on -/

theorem frameTime_eq_zero_iff (framesPerSecond : Nat) :
    1000000000 / max framesPerSecond 1 = 0 ↔ 1000000000 < framesPerSecond := by
  rw [Nat.div_eq_zero_iff]
  omega

/-- A poll past the limit leaves the pacer that would be started at that moment. -/
theorem poll_start_of_lt_due {framesPerSecond begin : Nat} {moments : List Nat} {now : Nat}
    (h : framesPerSecond ≤ 1000000000)
    (hdue : catchUpLimit < ((start framesPerSecond begin).after moments).due now) :
    ((start framesPerSecond begin).after moments).poll now =
      (some catchUpLimit, start framesPerSecond now) := by
  have hframeTime := frameTime_after (start framesPerSecond begin) moments
  have hpos : (start framesPerSecond begin).frameTime ≠ 0 :=
    (frameTime_eq_zero_iff framesPerSecond).not.mpr (Nat.not_lt.mpr h)
  rw [poll_of_lt_due (hframeTime ▸ hpos) hdue, hframeTime]
  rfl

/-- **The frames of a pacer that keeps up are the quotient, and its backlog the remainder**, of the
time since it was started; of one that does not there are no more. -/
theorem frames_start {framesPerSecond begin : Nat} {moments : List Nat}
    (h : framesPerSecond ≤ 1000000000) (hchain : (begin :: moments).IsChain (· ≤ ·)) :
    let p := start framesPerSecond begin
    let elapsed := moments.getLastD begin - begin
    p.frames moments ≤ elapsed / p.frameTime ∧
      (p.KeepsUp moments → p.frames moments = elapsed / p.frameTime ∧
        (p.after moments).backlog = elapsed % p.frameTime) := by
  intro p elapsed
  have hpos : 0 < p.frameTime :=
    Nat.pos_of_ne_zero ((frameTime_eq_zero_iff framesPerSecond).not.mpr (Nat.not_lt.mpr h))
  obtain ⟨hle, heq⟩ := conserved_after hpos.ne' (p := p) hchain
  have hbacklog : (p.after moments).backlog < p.frameTime := backlog_after_lt hpos moments
  have hstart : p.backlog + elapsed = elapsed := Nat.zero_add _
  rw [show p.backlog + (moments.getLastD p.lastPoll - p.lastPoll) = elapsed from hstart] at hle heq
  refine ⟨?_, fun hkeeps => ?_⟩
  · rw [Nat.le_div_iff_mul_le hpos]
    exact (Nat.le_add_right _ _).trans hle
  · have hdivision : (p.after moments).backlog + p.frameTime * p.frames moments = elapsed := by
      rw [Nat.add_comm, Nat.mul_comm]
      exact heq hkeeps
    obtain ⟨hquotient, hremainder⟩ := (Nat.div_mod_unique hpos).mpr ⟨hdivision, hbacklog⟩
    exact ⟨hquotient.symm, hremainder.symm⟩

/-- **Pacing neither loses nor invents frames.**  Start a pacer for any number of frames a second,
and ask it at any moments that do not go back.

* There is no answer exactly if the rate is above one frame per nanosecond, which is when a frame
  has no duration.
* Otherwise a poll answers with the number of frames that are due, or with four if there are more.
  It leaves less than a frame saved up, so the next frame is still to come and is due within the
  duration of a frame.
* The answers add up to no more than the frames that there is time for between the start and the
  last poll.
* If there have never been more than four frames due at once, they add up to exactly that, and the
  next frame falls due when the time that is left over has become a whole frame.  How the
  time is split up into polls makes no difference.
* If there are more than four frames due at a poll, the answer is four.  From then on the pacer
  answers like one that was started at that moment, and is one. -/
theorem frames_of_elapsed (framesPerSecond begin : Nat) (moments : List Nat)
    (hchain : (begin :: moments).IsChain (· ≤ ·)) :
    let p : Pacer := start framesPerSecond begin
    let frameTime := 1000000000 / max framesPerSecond 1
    let last := moments.getLastD begin
    let elapsed := last - begin
    (frameTime = 0 ↔ 1000000000 < framesPerSecond) ∧
      (∀ now, ((p.after moments).poll now).1 = none ↔ 1000000000 < framesPerSecond) ∧
      (framesPerSecond ≤ 1000000000 →
        (∀ now, let q := (p.after moments).poll now
          q.1 = some (min 4 (((p.after moments).backlog + (now - last)) / frameTime)) ∧
            q.2.backlog < frameTime ∧ 0 < q.2.untilNext ∧ q.2.untilNext ≤ frameTime) ∧
          p.frames moments ≤ elapsed / frameTime ∧
          (p.KeepsUp moments → p.frames moments = elapsed / frameTime ∧
            (p.after moments).untilNext = frameTime - elapsed % frameTime) ∧
          ∀ now later, 4 < (p.after moments).due now →
            p.answers (moments ++ now :: later) =
                p.answers moments ++ some 4 :: (start framesPerSecond now).answers later ∧
              p.after (moments ++ now :: later) = (start framesPerSecond now).after later) := by
  intro p frameTime last elapsed
  have hframeTime : (p.after moments).frameTime = frameTime := frameTime_after p moments
  have hlast : (p.after moments).lastPoll = last := lastPoll_after p moments
  have hzero : frameTime = 0 ↔ 1000000000 < framesPerSecond := frameTime_eq_zero_iff framesPerSecond
  refine ⟨hzero, fun now => ?_, fun hrate => ⟨fun now => ?_, ?_, fun hkeeps => ?_, ?_⟩⟩
  · rw [answer_poll_eq_none_iff, hframeTime, hzero]
  · intro q
    have hpos : (p.after moments).frameTime ≠ 0 :=
      hframeTime ▸ hzero.not.mpr (Nat.not_lt.mpr hrate)
    have hanswer := answer_poll hpos now
    have hbacklog := (p.after moments).backlog_poll_lt now hpos
    have huntil := untilNext_of_backlog_lt (p := q.2) (by rw [frameTime_poll]; exact hbacklog)
    rw [due, hframeTime, hlast] at hanswer
    rw [frameTime_poll, hframeTime] at huntil
    rw [hframeTime] at hbacklog
    exact ⟨hanswer, hbacklog, huntil⟩
  · exact (frames_start hrate hchain).1
  · obtain ⟨hframes, hbacklog⟩ := (frames_start hrate hchain).2 hkeeps
    refine ⟨hframes, ?_⟩
    rw [untilNext, hframeTime, hbacklog]
    rfl
  · intro now later hdue
    have hpoll := poll_start_of_lt_due hrate hdue
    constructor
    · rw [answers_append, answers, hpoll]
      rfl
    · rw [after_append]
      show ((p.after moments).poll now).2.after later = _
      rw [hpoll]

/-- Fifty frames a second, at moments between which no frame, one frame and two frames fall due;
then five seconds in which nobody asks. -/
theorem frames_of_elapsed_fifty :
    let moments := [0, 15000000, 25000000, 65000000]
    let p := start 50 0
    (0 :: moments).IsChain (· ≤ ·) ∧ p.KeepsUp moments ∧ p.frames moments = 3 ∧
      (p.after moments).untilNext = 15000000 ∧ 4 < (p.after moments).due 5065000000 ∧
      p.answers (moments ++ [5065000000, 5084000000, 5085000000]) =
        [some 0, some 0, some 1, some 2, some 4, some 0, some 1] := by
  intro moments p
  have hchain : (0 :: moments).IsChain (· ≤ ·) := by decide
  have hkeeps : p.KeepsUp moments := by decide
  have hdue : 4 < (p.after moments).due 5065000000 := by decide
  obtain ⟨-, -, hpaced⟩ := frames_of_elapsed 50 0 moments hchain
  obtain ⟨-, -, htotal, hanswers⟩ := hpaced (by decide)
  obtain ⟨hframes, huntil⟩ := htotal hkeeps
  obtain ⟨hlater, -⟩ := hanswers 5065000000 [5084000000, 5085000000] hdue
  exact ⟨hchain, hkeeps, hframes.trans (by decide), huntil.trans (by decide), hdue,
    hlater.trans (by decide)⟩

end Pacer
end Chip8
