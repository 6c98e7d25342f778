import Chip8.Proofs.Keys.Latch
import Chip8.Shared

/-!
# No update of a shared keypad is lost

Several handles may stand for one keypad, and each of them may be in other hands.  Every operation
through a handle is a single step, so whatever those who hold the handles do, it happens in some
order, and a list of operations is that order.  Nothing else is known of it: this file is about
all lists.

What holds of them is that the keys do not get into each other's way.  Whether a key of a pad is
down is decided by the last operation that concerns this key of this pad, through whichever handle
it was done; `Keypad.decisions` lists what the operations decide.  One operation is
`pressed_perform`, and all of them are `pressed_foldl`.

How a pad keeps its keys makes no difference.  `Keypad` is what a way of keeping them has to
provide, and there are two: a key for itself each, and all of them in one word.  Read off the
word, the pads are the same (`after_latch`).
-/

namespace Chip8

/-! ## Cells -/

namespace Shared

variable {α β : Type}

/-- The same handles, and something else in the cells. -/
def map (f : α → β) (s : Shared α) : Shared β := ⟨s.cells.map f, s.handles⟩

/-- Every handle stands for a cell. -/
def Sound (s : Shared α) : Prop := ∀ c ∈ s.handles, c < s.cells.length

theorem sound_nil : Sound (⟨[], []⟩ : Shared α) := by
  intro c hc
  cases hc

theorem Sound.exists_cell {s : Shared α} (hs : s.Sound) {h c : Nat}
    (hc : s.handles[h]? = some c) : ∃ a, s.cells[c]? = some a :=
  ⟨_, List.getElem?_eq_getElem (hs c (List.mem_of_getElem? hc))⟩

theorem eq_of_cells {s t : Shared α} (hhandles : s.handles = t.handles)
    (hcells : ∀ c : Nat, s.cells[c]? = t.cells[c]?) : s = t := by
  cases s
  cases t
  exact (Shared.mk.injEq ..).mpr ⟨List.ext_getElem? hcells, hhandles⟩

/-- A new cell comes with a new handle. -/
theorem handle_fresh (s : Shared α) (a : α) :
    (s.fresh a).handles[s.size]? = some s.cells.length := by
  show (s.handles ++ [s.cells.length])[s.handles.length]? = _
  rw [List.getElem?_append_right (Nat.le_refl _), Nat.sub_self]
  rfl

/-- A handle that is made from another stands for the same cell. -/
theorem handle_clone (s : Shared α) (h : Nat) :
    (s.clone h).handles[s.size]? = s.handles[h]? := by
  show (s.handles ++ s.handles[h]?.toList)[s.handles.length]? = _
  rw [List.getElem?_append_right (Nat.le_refl _), Nat.sub_self]
  cases s.handles[h]? <;> rfl

@[simp] theorem handles_modify (s : Shared α) (h : Nat) (f : α → α) :
    (s.modify h f).handles = s.handles := by
  unfold modify
  split <;> rfl

/-- A change reaches one cell, the cell of the handle. -/
theorem cells_modify (s : Shared α) (h c : Nat) (f : α → α) :
    (s.modify h f).cells[c]? =
      if s.handles[h]? = some c then s.cells[c]?.map f else s.cells[c]? := by
  unfold modify
  cases s.handles[h]? with
  | none => simp
  | some c' =>
      simp only [List.getElem?_modify, Option.some.injEq]
      by_cases hc : c' = c <;> simp [hc]

theorem length_cells_modify (s : Shared α) (h : Nat) (f : α → α) :
    (s.modify h f).cells.length = s.cells.length := by
  unfold modify
  split
  · exact List.length_modify ..
  · rfl

/-- What is changed through a handle of another cell is not seen. -/
theorem read?_modify_of_ne (s : Shared α) {h h' : Nat}
    (hh : s.handles[h']? ≠ s.handles[h]?) (f : α → α) : (s.modify h' f).read? h = s.read? h := by
  cases hc : s.handles[h']? with
  | none =>
      unfold modify
      rw [hc]
  | some c =>
      rw [s.read?_modify hc, if_neg (fun h => hh (hc.trans h.symm))]

/-- Changes that commute can be made in either order, through any two handles. -/
theorem modify_comm {f g : α → α} (hfg : ∀ a, f (g a) = g (f a)) (s : Shared α) (h h' : Nat) :
    (s.modify h f).modify h' g = (s.modify h' g).modify h f := by
  refine eq_of_cells (by simp) fun c => ?_
  simp only [cells_modify, handles_modify]
  by_cases hc : s.handles[h]? = some c <;> by_cases hc' : s.handles[h']? = some c <;>
    simp [hc, hc', Function.comp_def, hfg]

/-- A change that changes nothing when it is repeated can be repeated through any handle of the
same cell. -/
theorem modify_repeat {f : α → α} (hf : ∀ a, f (f a) = f a) (s : Shared α) {h h' : Nat}
    (hh : s.handles[h']? = s.handles[h]?) : (s.modify h f).modify h' f = s.modify h f := by
  refine eq_of_cells (by simp) fun c => ?_
  simp only [cells_modify, handles_modify, hh]
  by_cases hc : s.handles[h]? = some c <;> simp [hc, Function.comp_def, hf]

theorem map_fresh (f : α → β) (s : Shared α) (a : α) :
    (s.fresh a).map f = (s.map f).fresh (f a) := by
  unfold fresh map
  simp only [List.map_append, List.map_cons, List.map_nil, List.length_map]

theorem map_modify {f : α → β} {g : α → α} {g' : β → β} (hg : ∀ a, f (g a) = g' (f a))
    (s : Shared α) (h : Nat) : (s.modify h g).map f = (s.map f).modify h g' := by
  refine eq_of_cells ?_ fun c => ?_
  · rw [handles_modify]
    exact handles_modify s h g
  · rw [cells_modify]
    show ((s.modify h g).cells.map f)[c]? =
      if s.handles[h]? = some c then (s.cells.map f)[c]?.map g' else (s.cells.map f)[c]?
    rw [List.getElem?_map, cells_modify, List.getElem?_map]
    by_cases hc : s.handles[h]? = some c <;> simp [hc, Function.comp_def, hg]

theorem read?_map (f : α → β) (s : Shared α) (h : Nat) : (s.map f).read? h = (s.read? h).map f := by
  unfold read? map
  cases s.handles[h]? with
  | none => rfl
  | some c => exact List.getElem?_map

end Shared

/-! ## Pads -/

/-- What can be done with pads and their handles. -/
inductive PadOperation where
  /-- Make a pad, and a handle for it. -/
  | make
  /-- Make another handle for the pad of a handle. -/
  | clone (h : Nat)
  | set (h : Nat) (key : UInt8) (pressed : Bool)
  | releaseAll (h : Nat)

/-- What an operation decides about a key of a pad: that it is down, that it is up, or nothing. -/
def PadOperation.decides? {α : Type} (s : Shared α) (c : Nat) (k : Fin 16) :
    PadOperation → Option Bool
  | .set h key pressed =>
      if s.handles[h]? = some c ∧ Keys.ofByte key = k then some pressed else none
  | .releaseAll h => if s.handles[h]? = some c then some false else none
  | .make | .clone _ => none

/-- A way of keeping sixteen keys. -/
structure Keypad (α : Type) where
  /-- No key is down. -/
  blank : α
  /-- Press or release a key. -/
  set : α → UInt8 → Bool → α

namespace Keypad

variable {α β : Type}

/-- Every key for itself. -/
def separate : Keypad Keys :=
  ⟨.released, fun keys key pressed => keys.put (Keys.ofByte key) pressed⟩

/-- All keys in one word. -/
def latch : Keypad Latch := ⟨.blank, .set⟩

/-- Do something with the pads. -/
def perform (p : Keypad α) (s : Shared α) : PadOperation → Shared α
  | .make => s.fresh p.blank
  | .clone h => s.clone h
  | .set h key pressed => s.modify h (p.set · key pressed)
  | .releaseAll h => s.modify h fun _ => p.blank

/-- The pads after some operations.  At first there are none. -/
def after (p : Keypad α) (ops : List PadOperation) : Shared α := ops.foldl p.perform ⟨[], []⟩

/-- **Two ways of keeping the keys lead to the same pads**, if one can be read off the other. -/
theorem map_after {p : Keypad α} {q : Keypad β} {f : α → β} (hblank : f p.blank = q.blank)
    (hset : ∀ a key pressed, f (p.set a key pressed) = q.set (f a) key pressed)
    (ops : List PadOperation) : (p.after ops).map f = q.after ops := by
  have hperform (s : Shared α) (op : PadOperation) :
      (p.perform s op).map f = q.perform (s.map f) op := by
    cases op with
    | make => exact (Shared.map_fresh f s p.blank).trans (congrArg _ hblank)
    | clone h => rfl
    | set h key pressed => exact Shared.map_modify (fun a => hset a key pressed) s h
    | releaseAll h => exact Shared.map_modify (fun _ => hblank) s h
  have hfoldl (s : Shared α) :
      (ops.foldl p.perform s).map f = ops.foldl q.perform (s.map f) := by
    induction ops generalizing s with
    | nil => rfl
    | cons op ops ih => rw [List.foldl_cons, ih, hperform, List.foldl_cons]
  exact hfoldl ⟨[], []⟩

/-- Read off their words, the pads that are kept in words are the pads. -/
theorem after_latch (ops : List PadOperation) :
    (latch.after ops).map Latch.keys = separate.after ops :=
  map_after Latch.keys_blank Latch.keys_set ops

/-! ## Handles -/

theorem after_concat (p : Keypad α) (ops : List PadOperation) (op : PadOperation) :
    p.after (ops ++ [op]) = p.perform (p.after ops) op := by
  rw [after, List.foldl_append]
  rfl

theorem sound_perform (p : Keypad α) {s : Shared α} (hs : s.Sound) (op : PadOperation) :
    (p.perform s op).Sound := by
  intro c hc
  cases op with
  | make =>
      have hlength : (s.fresh p.blank).cells.length = s.cells.length + 1 := List.length_append
      show c < (s.fresh p.blank).cells.length
      rcases List.mem_append.mp hc with hold | hnew
      · exact hlength ▸ Nat.lt_succ_of_lt (hs c hold)
      · exact hlength ▸ List.mem_singleton.mp hnew ▸ Nat.lt_succ_self _
  | clone h =>
      rcases List.mem_append.mp hc with hold | hnew
      · exact hs c hold
      · exact hs c (List.mem_of_getElem? (Option.mem_toList.mp hnew))
  | set h key pressed =>
      show c < (s.modify h _).cells.length
      rw [Shared.length_cells_modify]
      exact hs c (by rwa [← s.handles_modify])
  | releaseAll h =>
      show c < (s.modify h _).cells.length
      rw [Shared.length_cells_modify]
      exact hs c (by rwa [← s.handles_modify])

theorem sound_after (p : Keypad α) (ops : List PadOperation) : (p.after ops).Sound :=
  List.foldlRecOn ops p.perform Shared.sound_nil fun _ hs op _ => p.sound_perform hs op

/-- No operation takes a handle away, or gives it to another pad. -/
theorem handles_perform (p : Keypad α) (s : Shared α) (op : PadOperation) :
    s.handles <+: (p.perform s op).handles := by
  cases op with
  | make | clone h => exact List.prefix_append _ _
  | set h key pressed => exact (s.handles_modify h _) ▸ List.prefix_rfl
  | releaseAll h => exact (s.handles_modify h _) ▸ List.prefix_rfl

/-! ## Keys -/

/-- What each of some operations decides about a key of a pad, if it decides anything about it. -/
def decisions (p : Keypad α) (s : Shared α) (c : Nat) (k : Fin 16) : List PadOperation → List Bool
  | [] => []
  | op :: ops => (op.decides? s c k).toList ++ p.decisions (p.perform s op) c k ops

/-- Whether a key of a pad is down.  If there is no such pad, it is not. -/
def pressed (s : Shared Keys) (c : Nat) (k : Fin 16) : Bool :=
  (s.cells[c]?.map (·.get k)).getD false

/-- A new pad has no key down. -/
theorem pressed_fresh (s : Shared Keys) (c : Nat) (k : Fin 16) :
    pressed (s.fresh .released) c k = pressed s c k := by
  show ((s.cells ++ [Keys.released])[c]?.map (·.get k)).getD false = pressed s c k
  rcases Nat.lt_or_ge c s.cells.length with hold | hnew
  · rw [List.getElem?_append_left hold]
    rfl
  · rw [List.getElem?_append_right hnew, pressed, List.getElem?_eq_none hnew]
    cases c - s.cells.length with
    | zero => exact Keys.getElem_released k
    | succ n => rfl

/-- A change of a pad does to a key what it does to this key of any pad. -/
theorem pressed_modify {s : Shared Keys} (hs : s.Sound) (h c : Nat) (k : Fin 16)
    (f : Keys → Keys) (down : Bool → Bool) (hf : ∀ keys, (f keys).get k = down (keys.get k)) :
    pressed (s.modify h f) c k =
      if s.handles[h]? = some c then down (pressed s c k) else pressed s c k := by
  unfold pressed
  rw [Shared.cells_modify]
  by_cases hc : s.handles[h]? = some c
  · obtain ⟨keys, hkeys⟩ := hs.exists_cell hc
    rw [if_pos hc, if_pos hc, hkeys]
    exact hf keys
  · rw [if_neg hc, if_neg hc]

/-- **What an operation does to a key of a pad** is what it decides about it, if anything. -/
theorem pressed_perform {s : Shared Keys} (hs : s.Sound) (c : Nat) (k : Fin 16)
    (op : PadOperation) :
    pressed (separate.perform s op) c k = (op.decides? s c k).getD (pressed s c k) := by
  cases op with
  | make => exact pressed_fresh s c k
  | clone h => rfl
  | set h key down =>
      have hput (keys : Keys) : (keys.put (Keys.ofByte key) down).get k =
          if Keys.ofByte key = k then down else keys.get k := Keys.getElem_put keys _ down k
      refine (pressed_modify hs h c k _ (fun b => if Keys.ofByte key = k then down else b)
        hput).trans ?_
      rw [PadOperation.decides?]
      by_cases hc : s.handles[h]? = some c <;> by_cases hkey : Keys.ofByte key = k <;>
        simp [hc, hkey]
  | releaseAll h =>
      refine (pressed_modify hs h c k (fun _ => .released) (fun _ => false)
        fun _ => Keys.getElem_released k).trans ?_
      rw [PadOperation.decides?]
      by_cases hc : s.handles[h]? = some c <;> simp [hc]

/-- **The last operation that concerns a key of a pad decides whether it is down.** -/
theorem pressed_foldl {s : Shared Keys} (hs : s.Sound) (c : Nat) (k : Fin 16)
    (ops : List PadOperation) :
    pressed (ops.foldl separate.perform s) c k =
      (separate.decisions s c k ops).getLast?.getD (pressed s c k) := by
  induction ops generalizing s with
  | nil => rfl
  | cons op ops ih =>
      rw [List.foldl_cons, ih (separate.sound_perform hs op), pressed_perform hs, decisions]
      cases op.decides? s c k with
      | none => rfl
      | some down =>
          rw [Option.toList_some, List.singleton_append, List.getLast?_cons, Option.getD_some,
            Option.getD_some]

/-- What is read through a handle are the keys of its pad. -/
theorem read?_eq_of_handle {s : Shared Keys} (hs : s.Sound) {h c : Nat}
    (hc : s.handles[h]? = some c) :
    ∃ keys, s.read? h = some keys ∧ ∀ k, keys.get k = pressed s c k := by
  obtain ⟨keys, hkeys⟩ := hs.exists_cell hc
  refine ⟨keys, ?_, fun k => ?_⟩
  · rw [Shared.read?, hc]
    exact hkeys
  · rw [pressed, hkeys]
    rfl

/-! ## Two operations -/

/-- Operations on different keys can be done in either order, through any two handles. -/
theorem set_comm {key key' : UInt8} (hkey : Keys.ofByte key ≠ Keys.ofByte key') (s : Shared Keys)
    (h h' : Nat) (down down' : Bool) :
    separate.perform (separate.perform s (.set h key down)) (.set h' key' down') =
      separate.perform (separate.perform s (.set h' key' down')) (.set h key down) := by
  have hkeys (keys : Keys) := Keys.put_comm hkey keys down down'
  exact Shared.modify_comm (fun keys => (hkeys keys).symm) s h h'

/-- An operation on a key can be repeated, through any handle of the same pad. -/
theorem set_repeat (s : Shared Keys) {h h' : Nat} (hh : s.handles[h']? = s.handles[h]?)
    (key : UInt8) (down : Bool) :
    separate.perform (separate.perform s (.set h key down)) (.set h' key down) =
      separate.perform s (.set h key down) :=
  Shared.modify_repeat (fun keys => Keys.put_put keys _ down down) s hh

/-- **No update of a shared keypad is lost.**  Make pads and handles, press and release keys, all
of it in any order and through any of the handles.

* Whatever handle is read, a key is down exactly if there has been an operation that concerns this
  key of this pad, and the last of them pressed it.  The same is read if all keys of a pad are kept
  in one word.
* Operations on different keys can be done in either order, through any two handles.
* An operation on a key can be repeated, through the same handle or another one of the same pad.
* What is done through a handle of another pad is not seen.
* A handle that is made from another stands for the same pad, and a new pad is not the pad of any
  handle before.  A handle never comes to stand for another pad. -/
theorem no_update_lost (ops : List PadOperation) :
    let pads := separate.after ops
    (∀ h c : Nat, pads.handles[h]? = some c → ∃ keys, pads.read? h = some keys ∧
      ((latch.after ops).read? h).map Latch.keys = some keys ∧
      ∀ k, keys.get k = true ↔ (separate.decisions ⟨[], []⟩ c k ops).getLast? = some true) ∧
    (∀ (h h' : Nat) key key' down down', Keys.ofByte key ≠ Keys.ofByte key' →
      separate.after (ops ++ [.set h key down, .set h' key' down']) =
        separate.after (ops ++ [.set h' key' down', .set h key down])) ∧
    (∀ (h h' : Nat) key down, pads.handles[h']? = pads.handles[h]? →
      separate.after (ops ++ [.set h key down, .set h' key down]) =
        separate.after (ops ++ [.set h key down])) ∧
    (∀ (h h' : Nat) key down, pads.handles[h']? ≠ pads.handles[h]? →
      (separate.after (ops ++ [.set h' key down])).read? h = pads.read? h ∧
        (separate.after (ops ++ [.releaseAll h'])).read? h = pads.read? h) ∧
    (∀ h : Nat, (separate.after (ops ++ [.clone h])).handles[pads.size]? = pads.handles[h]?) ∧
    (∀ h c : Nat, pads.handles[h]? = some c →
      (separate.after (ops ++ [.make])).handles[pads.size]? ≠ some c) ∧
    ∀ op, pads.handles <+: (separate.after (ops ++ [op])).handles := by
  intro pads
  have htwo (op op' : PadOperation) : separate.after (ops ++ [op, op']) =
      separate.perform (separate.perform pads op) op' := by
    rw [List.append_cons, after_concat, after_concat]
  have hsound : pads.Sound := separate.sound_after ops
  refine ⟨fun h c hc => ?_, fun h h' key key' down down' hkey => ?_,
    fun h h' key down hh => ?_, fun h h' key down hh => ?_, fun h => ?_, fun h c hc => ?_,
    fun op => ?_⟩
  · obtain ⟨keys, hread, hkeys⟩ := read?_eq_of_handle hsound hc
    refine ⟨keys, hread, ?_, fun k => ?_⟩
    · rw [← Shared.read?_map, after_latch]
      exact hread
    · have hstart : pressed ⟨[], []⟩ c k = false := rfl
      have hlast : pressed pads c k = _ := pressed_foldl Shared.sound_nil c k ops
      rw [hkeys, hlast, hstart]
      cases (separate.decisions ⟨[], []⟩ c k ops).getLast? with
      | none => simp
      | some down => simp
  · rw [htwo, htwo]
    exact set_comm hkey pads h h' down down'
  · rw [htwo, after_concat]
    exact set_repeat pads hh key down
  · rw [after_concat, after_concat]
    exact ⟨pads.read?_modify_of_ne hh _, pads.read?_modify_of_ne hh _⟩
  · rw [after_concat]
    exact pads.handle_clone h
  · rw [after_concat]
    intro hnew
    have hlt : c < pads.cells.length := hsound c (List.mem_of_getElem? hc)
    have heq : pads.cells.length = c :=
      Option.some.inj ((pads.handle_fresh _).symm.trans hnew)
    exact absurd heq (Nat.ne_of_gt hlt)
  · rw [after_concat]
    exact separate.handles_perform pads op

/-- Two handles of one pad and one of another.  The keys `13` and `23` are the key `3`. -/
theorem no_update_lost_two_writers :
    let ops : List PadOperation :=
      [.make, .clone 0, .make, .set 0 0x13 true, .set 1 0xF true, .set 2 3 false, .releaseAll 2,
        .set 1 0x23 true, .set 0 0xF false]
    let pads := separate.after ops
    pads.handles = [0, 0, 1] ∧
      (∃ keys, pads.read? 1 = some keys ∧ keys.get (Keys.ofByte 3) = true ∧
        keys.get (Keys.ofByte 0xF) = false) ∧
      separate.after (ops ++ [.set 0 4 true, .set 1 0x15 true]) =
        separate.after (ops ++ [.set 1 0x15 true, .set 0 4 true]) ∧
      separate.after (ops ++ [.set 0 4 true, .set 1 4 true]) =
        separate.after (ops ++ [.set 0 4 true]) ∧
      (separate.after (ops ++ [.set 0 4 true])).read? 2 = pads.read? 2 := by
  intro ops pads
  obtain ⟨hread, hcomm, hrepeat, hother, -⟩ := no_update_lost ops
  have hhandles : pads.handles = [0, 0, 1] := by decide
  obtain ⟨keys, hkeys, -, hlast⟩ := hread 1 0 (by decide)
  refine ⟨hhandles, ⟨keys, hkeys, (hlast _).mpr (by decide), ?_⟩,
    hcomm 0 1 4 0x15 true true (by decide), hrepeat 0 1 4 true (by decide),
    (hother 2 0 4 true (by decide)).1⟩
  exact Bool.eq_false_iff.mpr ((not_congr (hlast _)).mpr (by decide))

end Keypad
end Chip8
