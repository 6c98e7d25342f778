/-!
# The keypad

Sixteen keys, named by the hexadecimal digits, each up or down.  `Keys` is the
state of all of them at one moment.

The machine does not look at a keypad while it runs.  It is given the state of the
keys at the start of a frame and keeps it until the next, so a program sees every
key steady for a whole frame.
-/

namespace Chip8

/-- Which keys are down. -/
abbrev Keys := Vector Bool 16

namespace Keys

/-- No key is down. -/
def released : Keys := Vector.replicate 16 false

/-- The key that a byte names: only its low half counts. -/
def ofByte (b : UInt8) : Fin 16 := ⟨b.toNat % 16, Nat.mod_lt _ (by decide)⟩

/-- Press or release a key. -/
def put (keys : Keys) (key : Fin 16) (down : Bool) : Keys := keys.set key down

/-- The keys that are down, the lowest first. -/
def down (keys : Keys) : List (Fin 16) := (List.finRange 16).filter fun k => keys[k]

/-- The lowest key that is down, if one is. -/
def lowest? (keys : Keys) : Option (Fin 16) := (List.finRange 16).find? fun k => keys[k]

/-- The keys of a list are down and no others. -/
def ofList (ks : List (Fin 16)) : Keys := Vector.ofFn fun k => decide (k ∈ ks)

/-- Pressing or releasing a key changes that key alone. -/
@[simp] theorem getElem_put (keys : Keys) (key : Fin 16) (b : Bool) (k : Fin 16) :
    (keys.put key b)[k] = if key = k then b else keys[k] := by
  simp only [put, Fin.getElem_fin, Vector.getElem_set, Fin.ext_iff]

/-- The last word on a key counts. -/
@[simp] theorem put_put (keys : Keys) (key : Fin 16) (a b : Bool) :
    (keys.put key a).put key b = keys.put key b :=
  Vector.set_set ..

/-- Different keys do not get into each other's way. -/
theorem put_comm {key key' : Fin 16} (h : key ≠ key') (keys : Keys) (a b : Bool) :
    (keys.put key a).put key' b = (keys.put key' b).put key a :=
  Vector.set_comm _ _ fun hval => h (Fin.ext hval)

@[simp] theorem getElem_released (k : Fin 16) : released[k] = false := by
  simp [released]

theorem mem_down (keys : Keys) (k : Fin 16) : k ∈ keys.down ↔ keys[k] = true := by
  simp [down]

/-- There is no lowest key exactly when all keys are up. -/
theorem lowest?_eq_none_iff (keys : Keys) : keys.lowest? = none ↔ ∀ k : Fin 16, keys[k] = false := by
  simp [lowest?]

end Keys
end Chip8
