import SlotStore.Record.Scan
import SlotStore.Toc.Snapshot

/-!
# A record file with its table of contents

Operations that keep a record file and its table of contents together.  When a file is opened its
table comes from the sealed tail, or else from a scan of the slots that runs as a task of its own.

* `Volume.load` : the table that a sealed tail holds;
* `Volume.mount` : the table of an opened file, and the scan that is due;
* `Volume.rebuild`, `Volume.runRebuild` : that scan;
* `Volume.persist` : seals the file with the table;
* `Volume.place` : a payload put into a reused or a new slot;
* `Volume.readEntry` : the payload that an entry points at.
-/

namespace SlotStore

/-- A record file with its table of contents. -/
structure Volume where
  file : RecordFile
  toc : Toc
deriving Inhabited

/-- An action on a volume.  It may have changed the volume also when it fails. -/
abbrev VolumeM := EStateM Error Volume

namespace Volume

/-- An action on the file alone. -/
def onFile {α : Type} (act : FileM α) : VolumeM α := fun v =>
  match act v.file with
  | .ok x f => .ok x { v with file := f }
  | .error e f => .error e { v with file := f }

/-- A change of the table alone. -/
def onToc (change : Toc → Toc) : VolumeM Unit :=
  modify fun v => { v with toc := change v.toc }

/-! ## Loading -/

/-- The snapshot in the sealed tail that begins at an offset. -/
def snapshotAt (f : RecordFile) (start : Nat) : Except Error Snapshot := do
  let (header, payload) ← f.readSealed start
  if ¬ header.key.isReserved ∨ ¬ header.inUse then throw (.corruption start .footerTarget)
  match Snapshot.read? payload with
  | none => throw (.serialization "malformed table of contents")
  | some s =>
    if s.format ≠ Snapshot.currentFormat then
      throw (.corruption start (.tocFormat s.format.toNat))
    if s.dataEnd ≠ start then throw (.corruption start (.tocExtent s.dataEnd start))
    return s

/-- The volume of a file whose sealed tail holds a table. -/
def load (f : RecordFile) : Except Error (Option Volume) := do
  match f.footer? with
  | none => return none
  | some start =>
    let s ← snapshotAt f start
    return some {
      file := { f with cursor := start, sealedAt := some start }
      toc := (s.restore .unfinished).finish (.ok ()) }

/-- The volume of an opened file.  If its tail gives no table, the slots below the returned limit
have to be scanned before the table is ready. -/
def mount (f : RecordFile) : Volume × Option Nat :=
  match load f with
  | .ok (some v) => (v, none)
  | _ => (⟨f, .unfinished⟩, some f.cursor)

/-! ## Rebuilding -/

/-- Takes in one scanned slot, and keeps the highest version seen. -/
def scanned (offset : Nat) (h : Header) : Toc × UInt32 → Except Error (Toc × UInt32)
  | (t, highest) => .ok (t.merge (.ofHeader offset h), max highest h.version)

/-- Merges the slots below a limit into the table and cuts a torn tail off the file. -/
def rebuild (limit : Nat) : VolumeM ScanSummary := do
  let v ← get
  let (result, toc, highest) := v.file.scan 0 limit scanned (v.toc, 0)
  set { v with toc }
  let summary ← onFile (RecordFile.orFail result)
  onToc (Toc.observeVersion highest)
  if summary.torn then onFile (RecordFile.truncate summary.stop)
  return summary

/-- The outcome that a rebuild reports to those who wait for the table. -/
def reported : Except Error ScanSummary → Except Error Unit
  | .ok _ => .ok ()
  | .error e => .error (.background e.message)

/-- Rebuilds the table and reports how that ended. -/
def runRebuild (limit : Nat) : VolumeM Unit := do
  let result ← Error.observe (rebuild limit)
  onToc (Toc.finish (reported result))
  match result with
  | .ok _ => pure ()
  | .error e => throw e

/-! ## Persisting -/

/-- Seals the file with the table and gives where the table was written. -/
def persist : VolumeM Nat := do
  let v ← get
  if ¬ v.toc.ready then throw (.concurrency .tocUnfinished)
  let s := Snapshot.ofToc v.file.cursor v.toc
  onFile (RecordFile.sealWith ⟨Key.reserved, s.nextVersion⟩ s.write)

/-! ## Entities -/

/-- The payload that an entry points at.  Fails if the slot there is not the entry's. -/
def readEntry (f : RecordFile) (e : Entry) : Except Error (Header × Bytes) := do
  let (header, payload) ← f.read e.offset
  if header.key ≠ e.key ∨ ¬ header.inUse then
    throw (.corruption e.offset (.foreignSlot e.key header.key))
  return (header, payload)

/-- Puts a payload into a reused slot or else into a new one, and gives the offset and size of that
slot.  A slot that could not be written is retired. -/
def place (stamp : Stamp) (payload : Bytes) : VolumeM (Nat × Nat) := do
  let v ← get
  let (found, toc) := v.toc.takeFreeSlot? (Header.size + payload.length)
  set { v with toc }
  let (offset, size) ← match found with
    | some e => pure (e.offset, e.size)
    | none => do
      let size := Header.size + payload.length
      pure (← onFile (RecordFile.reserve size), size)
  tryCatch
    (do
      let _ ← onFile (RecordFile.writePayload offset stamp payload (size - Header.size))
      return (offset, size))
    fun e => do
      onToc (Toc.retire { key := Key.reserved, offset, size, isFree := true, version := 0 })
      throw e

end Volume

end SlotStore
