import SlotStore.Store

/-!
# Opening and closing a store

A store takes its table of contents from the sealed tail of its file.  If there is none it scans the
file, while it is opened or as a task of its scheduler.

* `Store.openFile` : a store on the content of a file;
* `Store.checkpoint` : seals the file with the table of contents;
* `Store.close` : ends the use of a store.
-/

namespace SlotStore.Store

/-- How many tasks a store lets wait. -/
def queueDepth : Nat := 1024

/-- A store on a file with the given content.  A scan that fails while the store is opened keeps it
from opening; one that fails in the background leaves a store whose table never gets ready. -/
def openFile (config : Config) (content : Except FileFault Content)
    (shadow : RecordFile.ShadowNode) : Except Error Store := do
  config.validate
  let content ← content.mapError Error.file
  let (mounted, due) := Volume.mount (.ofContent content)
  let scheduler := if config.backgroundRebuild
    then some (Scheduler.create config.schedulerThreads queueDepth) else none
  let store (volume : Volume) (scheduler : Option Scheduler) : Store :=
    { config, volume, gate := .opened, locks := .empty, indexes := [], cancelled := false,
      closed := false, scheduler, shadow }
  match due with
  | none => return store mounted scheduler
  | some limit =>
    let (outcome, volume) := match Volume.runRebuild limit mounted with
      | .ok () v => (Except.ok (), v)
      | .error e v => (.error e, v)
    let s := store volume (scheduler.map fun x => x.schedule "rebuild" (.returns outcome))
    if ¬ config.backgroundRebuild then s.waitReady
    return s

/-- Seals the file with the table of contents, so that it need not be scanned when it is opened. -/
def checkpoint : StoreM Unit :=
  throughGate .exclusive do
    orFail (← get).waitReady
    let _ ← onVolume Volume.persist

/-- Writes out what a closed store leaves behind. -/
def flush : StoreM Unit := do
  let s ← get
  if s.config.persistOnClose then
    match s.waitReady with
    | .ok () => let _ ← onVolume Volume.persist
    | .error _ => pure ()

/-- Closes the store: nobody may pass the gate or take a lock any more.  The store stays closed also
if its table could not be written. -/
def close : StoreM Unit := do
  let s ← get
  if s.closed then return
  let passed ← enterGate .exclusive ⟨none, none⟩
  modify fun s =>
    { s with gate := s.gate.close, locks := s.locks.close, cancelled := true, closed := true }
  ensuring (fun s => if passed then leaveGate .exclusive s else s) flush

/-- Cancels the token of the store. -/
def cancel : StoreM Unit := modify fun s => { s with cancelled := true }

end SlotStore.Store
