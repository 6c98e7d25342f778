/-!
# The timers

Two counters that count down once per frame and stop at zero.  The delay timer is
read back by programs; the sound timer sounds a tone for as long as it is not
zero.
-/

namespace Chip8

/-- One tick of a counter. -/
def countDown (t : UInt8) : UInt8 := if t = 0 then 0 else t - 1

@[simp] theorem toNat_countDown (t : UInt8) : (countDown t).toNat = t.toNat - 1 := by
  unfold countDown
  split
  · rename_i h
    subst h
    rfl
  · rename_i h
    have hpos : 1 ≤ t := by
      have : t.toNat ≠ 0 := fun e => h (UInt8.toNat_inj.1 e)
      apply UInt8.le_iff_toNat_le.2
      exact Nat.one_le_iff_ne_zero.2 this
    rw [UInt8.toNat_sub_of_le t 1 hpos]
    rfl

/-- The delay timer and the sound timer. -/
structure Timers where
  delay : UInt8 := 0
  sound : UInt8 := 0
  deriving DecidableEq

namespace Timers

/-- Both timers count down. -/
def tick (t : Timers) : Timers := ⟨countDown t.delay, countDown t.sound⟩

/-- Whether the tone is to sound. -/
def isSounding (t : Timers) : Bool := t.sound != 0

/-- The timers written out. -/
def describe (t : Timers) : String :=
  s!"Timers \x7b delay: {t.delay.toNat}, sound: {t.sound.toNat} \x7d"

end Timers
end Chip8
