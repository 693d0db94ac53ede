import SlotStore.Codec
import SlotStore.Config
import SlotStore.FieldIndex
import SlotStore.Lock.Waiting
import SlotStore.Scheduler
import SlotStore.Volume

/-!
# Stores

A store keeps entities under keys in a record file.  An operation passes the gate, takes the lock of
its key, and then works on the file, the table of contents and the indexes.

* `Store`, `StoreM` : a store and the actions on it;
* `Store.enterGate`, `Store.lockKey`, `Store.finish` : passing the gate and holding the lock of a
  key;
* `Store.awaitReady`, `Store.waitReady` : waiting for the table of contents;
* `Store.stats` : counts.

Nobody else acts while an operation runs, so a wait that could only be ended by somebody else is
over at once.
-/

namespace SlotStore

/-- An open store. -/
structure Store where
  config : Config
  volume : Volume
  gate : Gate
  locks : KeyLocks
  /-- Indexes in the order they were attached. -/
  indexes : List FieldIndex
  /-- Whether the token of the store was cancelled. -/
  cancelled : Bool
  closed : Bool
  /-- The scheduler of a store that rebuilds its table in the background. -/
  scheduler : Option Scheduler
  /-- What stands at the path of the shadow file. -/
  shadow : RecordFile.ShadowNode

/-- An action on a store.  It may have changed the store also when it fails. -/
abbrev StoreM := EStateM Error Store

/-- How long a party waits for locks. -/
structure Patience where
  /-- Milliseconds, if the party says. -/
  timeout : Option Nat
  /-- Whether the token of the party was cancelled, if it has one. -/
  cancelled : Option Bool
deriving DecidableEq, Repr

namespace Store

/-! ## Parts of a store -/

def toc (s : Store) : Toc := s.volume.toc

def file (s : Store) : RecordFile := s.volume.file

/-- An action on the file and its table. -/
def onVolume {α : Type} (act : VolumeM α) : StoreM α := fun s =>
  match act s.volume with
  | .ok x v => .ok x { s with volume := v }
  | .error e v => .error e { s with volume := v }

/-- A change of the table. -/
def onToc (change : Toc → Toc) : StoreM Unit := onVolume (Volume.onToc change)

/-- An action on the file. -/
def onFile {α : Type} (act : FileM α) : StoreM α := onVolume (Volume.onFile act)

/-- The action that fails where a computation does. -/
def orFail {α : Type} : Except Error α → StoreM α
  | .ok x => pure x
  | .error e => throw e

/-- An action with something that happens after it, also if it fails. -/
def ensuring {α : Type} (after : Store → Store) (act : StoreM α) : StoreM α := fun s =>
  match act s with
  | .ok x s => .ok x (after s)
  | .error e s => .error e (after s)

/-- An action with something that happens after it only if it fails. -/
def recovering {α : Type} (after : Store → Store) (act : StoreM α) : StoreM α := fun s =>
  match act s with
  | .ok x s => .ok x s
  | .error e s => .error e (after s)

/-- Changes the bytes of the file behind the back of the store. -/
def setContent (c : Content) (s : Store) : Store :=
  { s with volume := { s.volume with file := { s.file with content := c } } }

/-! ## Waiting -/

/-- The bound of a wait: what the party says, or else what the configuration does. -/
def effective (s : Store) (p : Patience) : Patience where
  timeout := p.timeout <|> s.config.lockTimeout
  cancelled := p.cancelled <|> some s.cancelled

/-- The wait of an operation that names no bound. -/
def unbounded (s : Store) : Patience := ⟨none, some s.cancelled⟩

/-- Waits for the table of contents; tells whether the time was enough. -/
def awaitReady (p : Patience) : StoreM Bool := do
  let s ← get
  if s.toc.ready then return true
  if p.cancelled = some true then throw .cancelled
  if p.timeout = some 0 then return false
  match s.toc.signal.outcome? with
  | none => return false
  | some outcome =>
    orFail outcome
    return true

/-- Waits for the table of contents as long as it takes. -/
def waitReady (s : Store) : Except Error Unit := s.toc.signal.outcome?.getD (.ok ())

/-! ## Gate and locks -/

def ensureOpen : StoreM Unit := do
  if (← get).closed then throw .closed

/-- Passes the gate; tells whether the time was enough. -/
def enterGate (mode : LockMode) (p : Patience) : StoreM Bool := do
  let s ← get
  let (result, gate) := Door.gate.attempt Key.reserved mode (p.cancelled = some true) s.gate
  set { s with gate }
  match ← orFail result with
  | .cancelled => throw .cancelled
  | .timedOut => return false
  | .entered => return true

/-- Leaves the gate. -/
def leaveGate (mode : LockMode) (s : Store) : Store := { s with gate := s.gate.leave mode }

/-- Takes the lock of a key; tells whether the time was enough. -/
def lockKey (k : Key) (mode : LockMode) (p : Patience) : StoreM Bool := do
  let s ← get
  let (result, locks) := Door.keyLocks.attempt k mode (p.cancelled = some true) s.locks
  set { s with locks }
  match ← orFail result with
  | .cancelled => throw .cancelled
  | .timedOut => return false
  | .entered => return true

/-- Gives up the lock of a key and leaves the gate. -/
def finish (k : Key) (mode : LockMode) (s : Store) : Store :=
  leaveGate .shared { s with locks := (s.locks.leave k mode).2 }

/-- Passes the gate for an action, without bound.  A closed store lets nobody pass. -/
def throughGate {α : Type} (mode : LockMode) (act : StoreM α) : StoreM α := do
  if ← enterGate mode (← get).unbounded then
    ensuring (leaveGate mode) do
      ensureOpen
      act
  else throw .closed

/-! ## Counts -/

/-- Counts of a store. -/
structure Stats where
  slots : Toc.Stats
  /-- Where the region of slots ends. -/
  dataEnd : Nat
  /-- The length of the file, the sealed tail included. -/
  fileLength : Nat
  ready : Bool
  isSealed : Bool
deriving DecidableEq, Repr

def stats (s : Store) : Stats where
  slots := s.toc.stats
  dataEnd := s.file.cursor
  fileLength := s.file.fileLength
  ready := s.toc.ready
  isSealed := s.file.isSealed

/-- The number of live entities. -/
def size (s : Store) : Except Error Nat := do
  s.waitReady
  return s.toc.stats.live

/-- The keys of the live entities in the order of the file. -/
def keys (s : Store) : Except Error (List Key) := do
  s.waitReady
  return s.toc.activeEntries.map (·.key)

end Store

end SlotStore
