import Chip8.Host.Disk

/-!
# Reading back what was written

A path is followed through directories only, one name after the other, and the disk is asked on the
way what it finds.  So writing a file might change where its own path leads.  It does not: the
location that is written is no directory, and every location on the way is one
(`walk_put_of_walk`).

Two kinds of locations are left out.  What is written to a device is gone, and a link that is written
to becomes a file, so that a path that went through it before ends there.
-/

namespace Chip8
namespace Disk

/-- A path that leads neither to a device nor to a link. -/
def Keeps (d : Disk) (path : String) : Prop :=
  ∀ l, d.locate path = .ok l → d.node? l ≠ some .device ∧ ∀ target, d.node? l ≠ some (.link target)

/-! ## One location -/

/-- Replacing what is found at a location in a list of what is found where. -/
theorem lookup_map_replace (nodes : List (Location × Node)) (l l' : Location) (n : Node) :
    (nodes.map fun entry => if entry.1 = l then (l, n) else entry).lookup l' =
      if l' = l then (nodes.lookup l).map fun _ => n else nodes.lookup l' := by
  induction nodes with
  | nil => exact (ite_self _).symm
  | cons entry nodes ih =>
      obtain ⟨k, found⟩ := entry
      rw [List.map_cons]
      by_cases hk : k = l
      · subst hk
        by_cases hl : l' = k
        · subst hl
          rw [if_pos rfl, if_pos rfl, List.lookup_cons_self, List.lookup_cons_self]
          rfl
        · have hne : (l' == k) = false := beq_false_of_ne hl
          rw [if_neg hl] at ih ⊢
          rw [if_pos rfl, List.lookup_cons, hne, List.lookup_cons, hne]
          exact ih
      · rw [if_neg hk]
        by_cases hl : l' = k
        · subst hl
          rw [if_neg hk, List.lookup_cons_self, List.lookup_cons_self]
        · have hne : (l' == k) = false := beq_false_of_ne hl
          have hne' : (l == k) = false := beq_false_of_ne (Ne.symm hk)
          rw [List.lookup_cons, hne, List.lookup_cons, hne', List.lookup_cons, hne]
          exact ih

/-- A location holds what was put there, and every other one what it held. -/
theorem node?_put (d : Disk) (l l' : Location) (n : Node) :
    (d.put l n).node? l' = if l' = l then some n else d.node? l' := by
  unfold put node?
  cases hl : d.nodes.lookup l with
  | some found =>
      rw [if_pos Option.isSome_some]
      refine (lookup_map_replace d.nodes l l' n).trans ?_
      rw [hl]
      rfl
  | none =>
      rw [if_neg (by simp)]
      show (d.nodes ++ [(l, n)]).lookup l' = _
      rw [List.lookup_append]
      by_cases h : l' = l
      · subst h
        rw [hl, if_pos rfl, List.lookup_cons_self]
        rfl
      · have hne : (l' == l) = false := beq_false_of_ne h
        rw [if_neg h, List.lookup_cons, hne, List.lookup_nil, Option.or_none]

/-! ## One path -/

/-- **A path leads to the same location after a file was written there.** -/
theorem walk_put_of_walk (d : Disk) {l : Location} (bytes : List UInt8)
    (hdirectory : d.node? l ≠ some .directory) (hlink : ∀ target, d.node? l ≠ some (.link target))
    {here : Location} {pieces : List String} (h : d.walk here pieces = .ok l) :
    (d.put l (.file bytes)).walk here pieces = .ok l := by
  induction pieces generalizing here with
  | nil => exact h
  | cons piece pieces ih =>
      have hfollow : (d.put l (.file bytes)).follow (here ++ [piece]) = d.follow (here ++ [piece]) := by
        unfold follow
        rw [node?_put]
        by_cases hl : here ++ [piece] = l
        · -- neither a link before nor a link now
          rw [if_pos hl, hl]
          cases hnode : d.node? l with
          | none => rfl
          | some n =>
              cases n with
              | link target => exact absurd hnode (hlink target)
              | file | device | directory => rfl
        · rw [if_neg hl]
      rw [walk] at h ⊢
      cases hnode : d.node? here with
      | none =>
          rw [hnode] at h
          cases h
      | some n =>
          cases n with
          | file | device | link =>
              rw [hnode] at h
              cases h
          | directory =>
              have hhere : here ≠ l := fun hl => hdirectory (hl ▸ hnode)
              rw [hnode] at h
              rw [node?_put, if_neg hhere, hnode, hfollow]
              dsimp only at h ⊢
              by_cases hstay : piece = "" ∨ piece = "."
              · rw [if_pos hstay] at h ⊢
                exact ih h
              rw [if_neg hstay] at h ⊢
              by_cases hup : piece = ".."
              · rw [if_pos hup] at h ⊢
                exact ih h
              rw [if_neg hup] at h ⊢
              by_cases hlong : piece.utf8ByteSize > nameLimit
              · rw [if_pos hlong] at h
                cases h
              · rw [if_neg hlong] at h ⊢
                exact ih h

theorem home_put (d : Disk) (l : Location) (n : Node) : (d.put l n).home = d.home := by
  unfold put
  split <;> rfl

theorem locate_put_of_locate (d : Disk) {path : String} {l : Location} (bytes : List UInt8)
    (hdirectory : d.node? l ≠ some .directory) (hlink : ∀ target, d.node? l ≠ some (.link target))
    (h : d.locate path = .ok l) : (d.put l (.file bytes)).locate path = .ok l := by
  unfold locate at h ⊢
  rw [home_put]
  split at h
  · cases h
  · split at h
    · cases h
    · split at h
      · cases h
      · rw [if_neg ‹_›, if_neg ‹_›, if_neg ‹_›]
        exact d.walk_put_of_walk bytes hdirectory hlink h

/-- **What was written is read back.** -/
theorem read_of_write {d d' : Disk} {path : String} {bytes : List UInt8} (hkeeps : d.Keeps path)
    (h : d.write path bytes = .ok d') : d'.read path = .ok bytes := by
  unfold write at h
  cases hl : d.locate path with
  | error e =>
      rw [hl] at h
      cases h
  | ok l =>
      obtain ⟨hdevice, hlink⟩ := hkeeps l hl
      have hput : d.node? l ≠ some .directory ∧ d' = d.put l (.file bytes) := by
        rw [hl] at h
        dsimp only at h
        cases hnode : d.node? l with
        | none =>
            rw [hnode] at h
            exact ⟨(Option.some_ne_none _).symm, (Except.ok.inj h).symm⟩
        | some n =>
            rw [hnode] at h
            cases n with
            | file old => exact ⟨by simp, (Except.ok.inj h).symm⟩
            | device => exact absurd hnode hdevice
            | link target => exact absurd hnode (hlink target)
            | directory => cases h
      obtain ⟨hdirectory, rfl⟩ := hput
      rw [read, d.locate_put_of_locate bytes hdirectory hlink hl]
      dsimp only
      rw [node?_put, if_pos rfl]

end Disk
end Chip8
