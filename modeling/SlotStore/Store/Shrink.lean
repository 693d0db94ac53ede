import SlotStore.Store

/-!
# Shrinking a store

The live entities are copied in the order of the file into a shadow file, slot after slot and
without slack, and the shadow then takes the place of the file.  Until then the file is left alone.

* `Store.copyLive` : the copy;
* `Store.shrinkUnder`, `Store.shrink` : the copy put in place, by a system that may refuse to;
* `ShrinkReport` : what that came to.
-/

namespace SlotStore

/-- What a shrink achieved. -/
structure ShrinkReport where
  /-- The length of the file before, the sealed tail included. -/
  bytesBefore : Nat
  bytesAfter : Nat
  recordsKept : Nat
  /-- Free and retired slots that are gone. -/
  slotsReclaimed : Nat
deriving DecidableEq, Repr

/-- Bytes given back. -/
def ShrinkReport.bytesReclaimed (r : ShrinkReport) : Nat := r.bytesBefore - r.bytesAfter

namespace Store

/-- Appends the entity of an entry to a shadow file, in a slot that it fills. -/
def copyEntry (f : RecordFile) (e : Entry) : FileM Entry := do
  let (header, payload) ← RecordFile.orFail (Volume.readEntry f e)
  let offset ← RecordFile.append ⟨header.key, header.version⟩ payload payload.length
  return {
    key := header.key
    offset
    size := Header.size + payload.length
    isFree := false
    version := header.version }

/-- A shadow of a file with the entities of some entries. -/
def copyLive (f : RecordFile) (es : List Entry) : Except Error (RecordFile × List Entry) :=
  match (es.mapM (copyEntry f)).run (.ofContent .empty) with
  | .ok copied shadow => .ok (shadow, copied)
  | .error e _ => .error e

/-- The copy, unless a directory stands where the shadow belongs. -/
def makeShadow (s : Store) : Except Error (RecordFile × List Entry) :=
  match s.shadow with
  | .directory => .error (.file .isDirectory)
  | _ => copyLive s.file s.toc.activeEntries

/-- The file of a store, in whose place the file at some node is to be put. -/
def site (s : Store) (node : RecordFile.ShadowNode) : RecordFile.Site :=
  ⟨s.file, s.file.content, node⟩

/-- The store with the file, and with what stands at the path of the shadow, of a site. -/
def onSite (s : Store) (site : RecordFile.Site) : Store :=
  { s with volume := { s.volume with file := site.file }, shadow := site.shadow }

/-- Puts a copy in the place of the file, where `node` stands at the path of the shadow. -/
def installCopy (r : RecordFile.Refusals) (copy : RecordFile) (node : RecordFile.ShadowNode) :
    StoreM Unit := fun s =>
  match RecordFile.install r copy (s.site node) with
  | .ok _ site => .ok () (s.onSite site)
  | .error e site => .error e (s.onSite site)

/-- Puts a copy without free slots, retired slots and slack in place.  Once the copy was made,
`node` tells what stands at the path of the shadow; and the system may refuse to put it in place. -/
def shrinkUnder (r : RecordFile.Refusals) (node : RecordFile → RecordFile.ShadowNode) :
    StoreM ShrinkReport :=
  throughGate .exclusive do
    let s ← get
    orFail s.waitReady
    match s.makeShadow with
    | .error e =>
      set { s with shadow := s.shadow.cleared }
      throw e
    | .ok (shadow, copied) =>
      installCopy r shadow (node shadow)
      onToc (Toc.replaceAll copied)
      return {
        bytesBefore := s.file.fileLength
        bytesAfter := (← get).file.fileLength
        recordsKept := copied.length
        slotsReclaimed := s.toc.stats.free + s.toc.stats.retired }

/-- A shrink by a system that refuses nothing, while nobody else gets at the shadow. -/
def shrink : StoreM ShrinkReport := shrinkUnder {} .file

end Store

end SlotStore
