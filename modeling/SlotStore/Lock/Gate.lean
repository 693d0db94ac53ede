import SlotStore.Lock

/-!
# The gate of a store

Operations on single entities pass the gate together, and those on the whole file pass it alone.
Every entry that is not cancelled ends with a release, also one that timed out: such a release takes
a hold of its mode away from somebody else, or changes nothing if there is none.

* `Gate.arrive`, `Gate.look?`, `Gate.depart` : the steps of an entry;
* `Gate.leave` : its end;
* `Gate.close` : nobody may enter any more.
-/

namespace SlotStore

/-- The gate of a store. -/
structure Gate where
  lock : Lock
  closed : Bool
deriving DecidableEq, Repr

namespace Gate

/-- A gate that nobody has passed. -/
def opened : Gate := ⟨.free, false⟩

instance : Inhabited Gate := ⟨opened⟩

/-- A party comes to the gate. -/
def arrive (mode : LockMode) (g : Gate) : Except Error Gate :=
  if g.closed then .error .closed else .ok { g with lock := g.lock.arrive mode }

/-- What a party that waits at the gate finds. -/
def look? (mode : LockMode) (cancelled expired : Bool) (g : Gate) : Option WaitEnd :=
  g.lock.look? mode cancelled expired

/-- A party leaves; it is no error if no hold of its mode is left. -/
def leave (mode : LockMode) (g : Gate) : Gate := { g with lock := (g.lock.release mode).2 }

/-- A party ends its wait. -/
def depart (mode : LockMode) (result : WaitEnd) (g : Gate) : Gate :=
  let g := { g with lock := g.lock.depart mode result }
  match result with
  | .timedOut => g.leave mode
  | _ => g

/-- Lets nobody enter any more; those inside leave as before. -/
def close (g : Gate) : Gate := { g with closed := true }

end Gate

end SlotStore
