/-!
# Shared cells

A host often reads a keypad in one place and writes it in another, and the same is
true of the switch of a tone.  `Shared` models such things without any notion of
time or concurrency: there are cells, and there are *handles* that stand for cells.
Several handles may stand for the same cell, and then a change through one of them
is seen through all of them; handles of different cells do not affect each other.

Both cells and handles are numbered in the order in which they were made, and
neither is ever taken away.
-/

namespace Chip8

/-- Cells, and the handles that stand for them. -/
structure Shared (α : Type) where
  /-- What the cells hold. -/
  cells : List α
  /-- The cell that each handle stands for. -/
  handles : List Nat

namespace Shared

variable {α : Type}

/-- One cell with one handle. -/
def single (a : α) : Shared α := ⟨[a], [0]⟩

/-- The number of handles, which is also the number of the next one. -/
def size (s : Shared α) : Nat := s.handles.length

/-- Make a new cell with a handle of its own. -/
def fresh (s : Shared α) (a : α) : Shared α :=
  ⟨s.cells ++ [a], s.handles ++ [s.cells.length]⟩

/-- Make another handle for the cell of handle `h`, if there is such a handle. -/
def clone (s : Shared α) (h : Nat) : Shared α :=
  ⟨s.cells, s.handles ++ s.handles[h]?.toList⟩

/-- What is read through a handle. -/
def read? (s : Shared α) (h : Nat) : Option α :=
  s.handles[h]?.bind fun c => s.cells[c]?

/-- Change the cell of a handle. -/
def modify (s : Shared α) (h : Nat) (f : α → α) : Shared α :=
  match s.handles[h]? with
  | some c => ⟨s.cells.modify c f, s.handles⟩
  | none => s

/-- What is read through each handle, in order. -/
def values (s : Shared α) : List α := s.handles.filterMap fun c => s.cells[c]?

/-- A change through one handle is read through every handle of the same cell, and
through no other. -/
theorem read?_modify (s : Shared α) {h c : Nat} (hc : s.handles[h]? = some c) (f : α → α)
    (h' : Nat) :
    (s.modify h f).read? h' =
      if s.handles[h']? = some c then (s.read? h').map f else s.read? h' := by
  simp only [modify, hc, read?]
  cases hh : s.handles[h']? with
  | none => simp
  | some c' =>
      simp only [Option.bind_some, Option.some.injEq, List.getElem?_modify]
      by_cases e : c' = c
      · simp [e]
      · have e' : ¬ c = c' := fun q => e q.symm
        simp [e, e']

end Shared
end Chip8
