import Chip8.Text

/-!
# The call stack

Sixteen slots for return addresses and a depth.  The slots at and above the depth
are *stale*: they keep what was last written there, no instruction reads them, but
a saved machine records them.  What the stack means is therefore the list of the
slots below the depth, `live`, and each operation has one lemma about it.

That the depth is at most sixteen is part of the type, so neither operation can
step outside the slots.

A call on a full stack is not refused.  The new return address takes the place of
the one on top, so the matching return comes back to the right place and only the
call before it is lost.  `isFull` says beforehand whether that will happen.
-/

namespace Chip8

/-- The return addresses of the calls in progress. -/
structure CallStack where
  /-- All slots, the stale ones included. -/
  slots : Vector UInt16 16
  /-- How many slots are in use, from the first. -/
  depth : Nat
  /-- No more slots are in use than there are. -/
  depth_le : depth ≤ 16
  deriving DecidableEq

namespace CallStack

/-- The empty stack, with every slot zero. -/
def empty : CallStack := ⟨Vector.replicate 16 0, 0, by decide⟩

/-- A stack with given slots and depth, if there are that many slots. -/
def ofSlots? (slots : Vector UInt16 16) (depth : Nat) : Option CallStack :=
  if h : depth ≤ 16 then some ⟨slots, depth, h⟩ else none

/-- The return addresses held, the outermost call first. -/
def live (s : CallStack) : List UInt16 := s.slots.toList.take s.depth

/-- Whether every slot is in use. -/
def isFull (s : CallStack) : Bool := s.depth == 16

/-- Push a return address.  On a full stack it replaces the one on top. -/
def push (s : CallStack) (address : UInt16) : CallStack :=
  if h : s.depth < 16 then
    ⟨s.slots.set s.depth address, s.depth + 1, h⟩
  else
    ⟨s.slots.set 15 address, s.depth, s.depth_le⟩

/-- Pop the return address on top, if there is one.  Its slot becomes stale and
keeps the address. -/
def pop? (s : CallStack) : Option (UInt16 × CallStack) :=
  if h : s.depth = 0 then none
  else
    have := s.depth_le
    some (s.slots[s.depth - 1], ⟨s.slots, s.depth - 1, by omega⟩)

/-! ## The operations on the list of live addresses -/

@[simp] theorem live_empty : empty.live = [] := by simp [empty, live]

@[simp] theorem length_live (s : CallStack) : s.live.length = s.depth := by
  have := s.depth_le
  simp only [live, List.length_take, Vector.length_toList]
  omega

/-- Below capacity, a push appends. -/
theorem live_push_of_lt (s : CallStack) (a : UInt16) (h : s.depth < 16) :
    (s.push a).live = s.live ++ [a] := by
  simp only [push, h, dif_pos, live, Vector.toList_set]
  rw [List.take_add_one, List.take_set_of_le (by omega)]
  simp [h]

/-- At capacity, a push replaces the last address. -/
theorem live_push_of_full (s : CallStack) (a : UInt16) (h : s.depth = 16) :
    (s.push a).live = s.live.dropLast ++ [a] := by
  have hlen : s.slots.toList.length = 16 := by simp
  simp only [push, h, live, Nat.lt_irrefl, dif_neg, not_false_eq_true, Vector.toList_set]
  rw [List.take_of_length_le (by simp), List.take_of_length_le (by simp)]
  apply List.ext_getElem
  · simp [hlen]
  · intro i h₁ h₂
    have hi16 : i < 16 := by simpa using h₁
    rw [List.getElem_set, List.getElem_append]
    simp only [List.length_dropLast, hlen, List.getElem_dropLast]
    split <;> rename_i hi
    · subst hi
      simp
    · have hi15 : i ≠ 15 := fun e => hi e.symm
      rw [dif_pos (by omega)]

/-- A pop fails exactly on a stack that holds nothing. -/
theorem pop?_eq_none_iff (s : CallStack) : s.pop? = none ↔ s.live = [] := by
  rw [← List.length_eq_zero_iff, length_live]
  unfold pop?
  split <;> simp_all

/-- A pop takes the last address off. -/
theorem live_eq_of_pop? {s t : CallStack} {a : UInt16} (h : s.pop? = some (a, t)) :
    s.live = t.live ++ [a] := by
  have hle := s.depth_le
  unfold pop? at h
  split at h
  · cases h
  · rename_i h0
    simp only [Option.some.injEq, Prod.mk.injEq] at h
    obtain ⟨rfl, rfl⟩ := h
    have hlt : s.depth - 1 < s.slots.toList.length := by
      simp only [Vector.length_toList]
      omega
    have e : s.depth = s.depth - 1 + 1 := by omega
    simp only [live]
    conv => lhs; rw [e]
    rw [List.take_add_one, List.getElem?_eq_getElem hlt]
    simp

/-- The stack written out, stale slots included. -/
def describe (s : CallStack) : String :=
  "CallStack \x7b slots: " ++ Text.bracketed (s.slots.toList.map fun a => toString a.toNat)
    ++ s!", sp: {s.depth} \x7d"

end CallStack
end Chip8
