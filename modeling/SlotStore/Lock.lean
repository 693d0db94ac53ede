import SlotStore.Error

/-!
# A lock for many readers or one writer

A party that wants a lock arrives, looks until its wait ends, and departs with the outcome.  A
writer that waits keeps new readers out.  A party that does not wait does all three at once.

* `Lock.arrive`, `Lock.look?`, `Lock.depart` : the steps of a wait;
* `Lock.attempt` : the three steps at once;
* `Lock.release` : gives up a hold.
-/

namespace SlotStore

/-- How a lock is held. -/
inductive LockMode
  | shared
  | exclusive
deriving DecidableEq, Repr, Inhabited

/-- How a wait for a lock ended. -/
inductive WaitEnd
  | entered
  | timedOut
  | cancelled
deriving DecidableEq, Repr, Inhabited

/-- A lock for many readers or one writer. -/
structure Lock where
  readers : Nat
  writer : Bool
  /-- Parties that wait to hold the lock exclusively. -/
  waitingWriters : Nat
deriving DecidableEq, Repr

namespace Lock

/-- A lock that nobody holds. -/
def free : Lock := ⟨0, false, 0⟩

instance : Inhabited Lock := ⟨free⟩

/-- Whether a party could enter now. -/
def admits (l : Lock) : LockMode → Bool
  | .shared => !l.writer && l.waitingWriters == 0
  | .exclusive => !l.writer && l.readers == 0

/-- A party begins to wait. -/
def arrive (mode : LockMode) (l : Lock) : Lock :=
  match mode with
  | .shared => l
  | .exclusive => { l with waitingWriters := l.waitingWriters + 1 }

/-- What a waiting party finds: a cancelled wait ends even if the lock is free, and a free lock is
entered even if the time is over. -/
def look? (mode : LockMode) (cancelled expired : Bool) (l : Lock) : Option WaitEnd :=
  if cancelled then some .cancelled
  else if l.admits mode then some .entered
  else if expired then some .timedOut
  else none

/-- A party ends its wait, and holds the lock if it entered. -/
def depart (mode : LockMode) (result : WaitEnd) (l : Lock) : Lock :=
  match mode, result with
  | .shared, .entered => { l with readers := l.readers + 1 }
  | .shared, _ => l
  | .exclusive, .entered => { l with waitingWriters := l.waitingWriters - 1, writer := true }
  | .exclusive, _ => { l with waitingWriters := l.waitingWriters - 1 }

/-- A party that does not wait. -/
def attempt (mode : LockMode) (cancelled : Bool) (l : Lock) : WaitEnd × Lock :=
  let l := l.arrive mode
  let result := (l.look? mode cancelled true).getD .timedOut
  (result, l.depart mode result)

/-- Gives up a hold.  Without one nothing changes. -/
def release (mode : LockMode) (l : Lock) : Except Error Unit × Lock :=
  match mode with
  | .shared =>
    if l.readers = 0 then (.error (.concurrency .sharedRelease), l)
    else (.ok (), { l with readers := l.readers - 1 })
  | .exclusive =>
    if l.writer then (.ok (), { l with writer := false })
    else (.error (.concurrency .exclusiveRelease), l)

end Lock

end SlotStore
