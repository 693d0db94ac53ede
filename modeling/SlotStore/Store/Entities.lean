import SlotStore.Store

/-!
# Operations on entities

* `Store.add`, `Store.get?`, `Store.update`, `Store.delete`, `Store.contains` : an entity and its
  key;
* `Store.find`, `Store.hold` : what most of them begin with;
* `Store.decode?` : an entity as queries and indexes see it;
* `Store.attach`, `Store.reindex` : indexes.

An operation with a bound gives `none` if its time was not enough.
-/

namespace SlotStore.Store

variable {α : Type}

/-! ## Looking up -/

/-- The live entry of a key, or `none` if the time was not enough.  Only a key without an entry
waits for the table of contents. -/
def lookup (k : Key) (p : Patience) : StoreM (Option (Option Entry)) := do
  let live (t : Toc) : Option Entry := (t.find? k).filter fun e => !e.isFree
  let t := (← get).toc
  if k.isReserved then return some none
  else if (t.find? k).isSome ∨ t.ready then return some (live t)
  else if ← awaitReady p then return some (live (← get).toc)
  else return none

/-- What the search for an entity came to. -/
inductive Found
  | timedOut
  | absent
  /-- The entity is alive; the gate is passed and the lock of its key is held. -/
  | held (e : Entry)
deriving DecidableEq, Repr

/-- Passes the gate, takes the lock of a key, and looks for its entity.  Both are given up unless
the entity is alive. -/
def find (k : Key) (mode : LockMode) (p : Patience) : StoreM Found := do
  if ← enterGate .shared p then
    recovering (leaveGate .shared) ensureOpen
    if ← recovering (leaveGate .shared) (lockKey k mode p) then
      match ← recovering (finish k mode) (lookup k p) with
      | some (some e) => return .held e
      | some none =>
        modify (finish k mode)
        return .absent
      | none =>
        modify (finish k mode)
        return .timedOut
    else
      modify (leaveGate .shared)
      return .timedOut
  else return .timedOut

/-- Begins an operation on the entity of a key, which then is held until the operation finishes.
Gives the entry and what the beginning found, `some none` if the entity is not alive. -/
def hold (k : Key) (mode : LockMode) (begins : Entry → StoreM α) (p : Patience) :
    StoreM (Option (Option (Entry × α))) := do
  match ← find k mode p with
  | .timedOut => return none
  | .absent => return some none
  | .held e => recovering (finish k mode) do return some (some (e, ← begins e))

/-- The payload that an entry points at. -/
def payloadOf (e : Entry) : StoreM Bytes := do
  let (_, payload) ← orFail (Volume.readEntry (← get).file e)
  return payload

/-! ## Reading -/

/-- The entity of a key, with a bound on the wait. -/
def getWithin (c : Coding α) (k : Key) (p : Patience) : StoreM (Option (Option α)) := do
  match ← hold k .shared payloadOf p with
  | none => return none
  | some none => return some none
  | some (some (_, payload)) =>
    ensuring (finish k .shared) do
      let x ← orFail (c.decode payload)
      return some (some x)

/-- The result of an operation that waits as long as it takes. -/
def patiently (act : Patience → StoreM (Option α)) : StoreM α := do
  match ← act (← get).unbounded with
  | some x => return x
  | none => throw (.concurrency .waitEnded)

/-- The entity of a key. -/
def get? (c : Coding α) (k : Key) : StoreM (Option α) := patiently (getWithin c k)

/-- Whether a key has an entity. -/
def contains (k : Key) : StoreM Bool :=
  throughGate .shared do
    match ← lookup k (← get).unbounded with
    | some (some _) => return true
    | _ => return false

/-! ## Writing -/

/-- Puts an entity into all indexes. -/
def indexEntity (k : Key) (doc : Document) (s : Store) : Store :=
  { s with indexes := s.indexes.map (·.upsert k doc) }

/-- Hands out a version. -/
def allocateVersion : StoreM UInt32 := do
  let s ← get
  let (v, toc) := s.toc.allocateVersion
  set { s with volume := { s.volume with toc } }
  return v

/-- Puts a payload into a slot of its own and makes it the slot of a key. -/
def placeEntity (k : Key) (payload : Bytes) : StoreM Unit := do
  let version ← allocateVersion
  let (offset, size) ← onVolume (Volume.place ⟨k, version⟩ payload)
  onToc (Toc.upsertEntry { key := k, offset, size, isFree := false, version })

/-- Stores an entity under a key that nobody has used. -/
def add (c : Coding α) (k : Key) (x : α) : StoreM Unit :=
  throughGate .shared do
    orFail (← get).waitReady
    let payload ← orFail (c.encode x)
    placeEntity k payload
    modify (indexEntity k (c.document x))

/-- Replaces the entity of a held entry: in its slot if the payload fits, else in another one, and
the old slot is retired. -/
def replace (c : Coding α) (k : Key) (e : Entry) (p : Patience) (x : α) : StoreM (Option Unit) := do
  let payload ← orFail (c.encode x)
  if payload.length ≤ e.capacity then
    let version ← allocateVersion
    let _ ← onFile (RecordFile.writePayload e.offset ⟨k, version⟩ payload e.capacity)
    onToc (Toc.upsertEntry { e with version })
  else if ← awaitReady p then
    placeEntity k payload
    onFile (RecordFile.markUnused e.offset)
    onToc (Toc.retire e)
  else return none
  modify (indexEntity k (c.document x))
  return some ()

/-- Replaces the entity of a key, with a bound on the wait. -/
def updateWithin (c : Coding α) (k : Key) (x : α) (p : Patience) : StoreM (Option Unit) := do
  match ← find k .exclusive p with
  | .timedOut => return none
  | .absent => throw (.entityNotFound k)
  | .held e => ensuring (finish k .exclusive) (replace c k e p x)

/-- Replaces the entity of a key. -/
def update (c : Coding α) (k : Key) (x : α) : StoreM Unit := patiently (updateWithin c k x)

/-- Deletes the entity of a key, with a bound on the wait. -/
def deleteWithin (k : Key) (p : Patience) : StoreM (Option Unit) := do
  match ← find k .exclusive p with
  | .timedOut => return none
  | .absent => throw (.entityNotFound k)
  | .held e =>
    ensuring (finish k .exclusive) do
      onFile (RecordFile.markUnused e.offset)
      onToc (Toc.markFree k)
      modify fun s => { s with indexes := s.indexes.map (·.remove k) }
      return some ()

/-- Deletes the entity of a key. -/
def delete (k : Key) : StoreM Unit := patiently (deleteWithin k)

/-! ## Indexes -/

/-- The entity of a key as a reader finds it that passes the gate and takes the lock of the key;
none if it is not alive. -/
def decode? (c : Coding α) (s : Store) (k : Key) : Except Error (Option α) := do
  match ← (Door.gate.attempt Key.reserved .shared s.cancelled s.gate).1 with
  | .cancelled => throw .cancelled
  | .timedOut => throw .closed
  | .entered =>
    match ← (Door.keyLocks.attempt k .shared false s.locks).1 with
    | .entered =>
      match s.toc.find? k with
      | none => return none
      | some e =>
        if e.isFree then return none
        else
          let (_, payload) ← Volume.readEntry s.file e
          let x ← c.decode payload
          return some x
    | _ => throw (.concurrency .readWaitEnded)

/-- Attaches an index, which is kept up to date from now on. -/
def attach (x : FieldIndex) : StoreM Unit := modify fun s => { s with indexes := s.indexes ++ [x] }

/-- Puts the entities of some keys into all indexes, up to the first that cannot be decoded, and
counts them. -/
def indexAll (c : Coding α) : List Key → StoreM Nat
  | [] => return 0
  | k :: ks => do
    match ← orFail (decode? c (← get) k) with
    | none => indexAll c ks
    | some x =>
      modify (indexEntity k (c.document x))
      return (← indexAll c ks) + 1

/-- Rebuilds all indexes from the live entities and counts these. -/
def reindex (c : Coding α) : StoreM Nat := do
  orFail (← get).waitReady
  modify fun s => { s with indexes := s.indexes.map (·.clear) }
  indexAll c ((← get).toc.activeEntries.map (·.key))

end SlotStore.Store
