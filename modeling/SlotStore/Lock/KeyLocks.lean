import SlotStore.Keyed
import SlotStore.Lock

/-!
# Locks by key

Each key has a lock of its own while somebody holds it or waits for it.  A lock counts those
parties, and is forgotten with the last of them.

* `KeyLocks.arrive`, `KeyLocks.look?`, `KeyLocks.depart` : the steps of a wait;
* `KeyLocks.leave` : the end of a hold;
* `KeyLocks.close` : nobody may arrive any more.
-/

namespace SlotStore

/-- The lock of a key. -/
structure KeySlot where
  key : Key
  /-- Parties that hold the lock or wait for it. -/
  parties : Nat
  lock : Lock
deriving DecidableEq, Repr, Inhabited

/-- The locks of all keys that are held or waited for. -/
structure KeyLocks where
  slots : Keyed KeySlot.key
  closed : Bool

namespace KeyLocks

/-- No key is locked. -/
def empty : KeyLocks := ⟨.empty, false⟩

instance : Inhabited KeyLocks := ⟨empty⟩

/-- The lock of a key, free if there is none. -/
def slot (k : Key) (m : KeyLocks) : KeySlot := (m.slots.get? k).getD ⟨k, 0, .free⟩

/-- Changes the lock of a key. -/
def onLock (k : Key) (change : Lock → Lock) (m : KeyLocks) : KeyLocks :=
  let s := m.slot k
  { m with slots := m.slots.put { s with key := k, lock := change s.lock } }

/-- One party less for a key. -/
def giveBack (k : Key) (m : KeyLocks) : KeyLocks :=
  let s := m.slot k
  if s.parties ≤ 1 then { m with slots := m.slots.erase k }
  else { m with slots := m.slots.put { s with key := k, parties := s.parties - 1 } }

/-- A party begins to wait for a key. -/
def arrive (k : Key) (mode : LockMode) (m : KeyLocks) : Except Error KeyLocks :=
  if m.closed then .error (.concurrency .managerClosed)
  else
    let s := m.slot k
    let slot := { s with key := k, parties := s.parties + 1, lock := s.lock.arrive mode }
    .ok { m with slots := m.slots.put slot }

/-- What a party that waits for a key finds. -/
def look? (k : Key) (mode : LockMode) (cancelled expired : Bool) (m : KeyLocks) : Option WaitEnd :=
  (m.slot k).lock.look? mode cancelled expired

/-- A party ends its wait for a key. -/
def depart (k : Key) (mode : LockMode) (result : WaitEnd) (m : KeyLocks) : KeyLocks :=
  let m := m.onLock k (·.depart mode result)
  match result with
  | .entered => m
  | _ => m.giveBack k

/-- A party gives up its hold of a key. -/
def leave (k : Key) (mode : LockMode) (m : KeyLocks) : Except Error Unit × KeyLocks :=
  let (result, lock) := (m.slot k).lock.release mode
  (result, (m.onLock k fun _ => lock).giveBack k)

/-- The number of keys that are held or waited for. -/
def contended (m : KeyLocks) : Nat := m.slots.size

/-- Lets nobody arrive any more; those who hold a lock leave as before. -/
def close (m : KeyLocks) : KeyLocks := { m with closed := true }

end KeyLocks

end SlotStore
