import SlotStore.Completion
import SlotStore.Keyed
import SlotStore.Record.Header

/-!
# The table of contents

The table of contents knows where the slot of every entity is, which slots are free because their
entity was deleted, and which are retired: slots that no entity has any more.  Free and retired
slots are given out again.  The table also hands out versions, which grow from write to write.

* `Toc.find?` : the entry of a key, the view through which the other operations are stated;
* `Toc.merge` : takes in what a scan found, where the newer version of a key counts;
* `Toc.takeFreeSlot?` : the smallest reusable slot that is large enough;
* `Toc.allocateVersion`, `Toc.observeVersion` : versions.
-/

namespace SlotStore

/-- Where the slot of an entity is. -/
structure Entry where
  key : Key
  offset : Nat
  /-- Bytes in the slot, header included. -/
  size : Nat
  isFree : Bool
  version : UInt32
deriving DecidableEq, Repr, Inhabited

namespace Entry

/-- Payload bytes the slot can hold. -/
def capacity (e : Entry) : Nat := e.size - Header.size

/-- Where the slot ends. -/
def stop (e : Entry) : Nat := e.offset + e.size

/-- The entry that a scanned header gives. -/
def ofHeader (offset : Nat) (h : Header) : Entry := {
  key := h.key
  offset
  size := h.slotSize
  isFree := !h.inUse
  version := h.version }

/-- Whether the slot of `a` is the better one to give out: the smaller, and of two alike the one
nearer to the beginning. -/
def preferred (a b : Entry) : Bool :=
  a.size < b.size || (a.size == b.size && a.offset < b.offset)

/-- The preferred slot of several. -/
def best? : List Entry → Option Entry
  | [] => none
  | e :: es =>
    match best? es with
    | none => some e
    | some b => if preferred b e then some b else some e

end Entry

/-- The table of contents of a record file. -/
structure Toc where
  /-- Live and free slots by the key of their entity. -/
  entries : Keyed Entry.key
  /-- Slots without an entity by their offset. -/
  retired : Keyed Entry.offset
  nextVersion : UInt32
  /-- Whether the table describes the whole file. -/
  ready : Bool
  /-- Tells when the table is ready. -/
  signal : Completion

namespace Toc

/-- A table that does not describe its file yet. -/
def unfinished : Toc := ⟨.empty, .empty, 1, false, .pending⟩

/-- Reports how the making of the table ended. -/
def finish (outcome : Except Error Unit) (t : Toc) : Toc :=
  { t with
    ready := t.ready || outcome.toBool
    signal := t.signal.complete outcome }

/-- The table of an empty file. -/
def empty : Toc := unfinished.finish (.ok ())

instance : Inhabited Toc := ⟨empty⟩

/-! ## Versions -/

/-- A version one higher, or the highest there is. -/
def bump (v : UInt32) : UInt32 := if v = 0xFFFFFFFF then v else v + 1

/-- Makes sure that later versions exceed this one. -/
def observeVersion (v : UInt32) (t : Toc) : Toc :=
  { t with nextVersion := max t.nextVersion (bump v) }

/-- The next version.  After the highest one comes zero. -/
def allocateVersion (t : Toc) : UInt32 × Toc :=
  (t.nextVersion, { t with nextVersion := t.nextVersion + 1 })

/-- The highest version that was handed out or observed. -/
def maxVersion (t : Toc) : UInt32 :=
  if t.nextVersion = 0 then 0 else t.nextVersion - 1

/-! ## Entries -/

/-- The entry of a key, free or not. -/
def find? (t : Toc) (k : Key) : Option Entry := t.entries.get? k

/-- Keeps a slot that no entity has any more until it is given out. -/
def retire (e : Entry) (t : Toc) : Toc :=
  { t with retired := t.retired.put { e with isFree := true } }

/-- Sets the entry of a key. -/
def putEntry (e : Entry) (t : Toc) : Toc := { t with entries := t.entries.put e }

/-- Takes in a slot as a scan finds it.  Of two slots of one key the one with the higher version
counts and the other is retired; a slot with the reserved key belongs to nobody. -/
def merge (e : Entry) (t : Toc) : Toc :=
  if e.key.isReserved then t.retire e
  else
    match t.find? e.key with
    | none => t.putEntry e
    | some old =>
      if old.offset = e.offset then t
      else if old.version < e.version then (t.putEntry e).retire old
      else t.retire e

/-- Sets the entry of a key and observes its version; nothing for the reserved key. -/
def upsertEntry (e : Entry) (t : Toc) : Toc :=
  if e.key.isReserved then t else (t.observeVersion e.version).putEntry e

/-- Moves a key to a slot; the version stays. -/
def upsert (k : Key) (offset size : Nat) (isFree : Bool) (t : Toc) : Toc :=
  t.upsertEntry {
    key := k
    offset
    size
    isFree
    version := ((t.find? k).map (·.version)).getD 0 }

/-- Observes a version and takes the entry in as a scan would. -/
def upsertIfNewer (e : Entry) (t : Toc) : Toc := (t.observeVersion e.version).merge e

/-- Takes the entry of a key away. -/
def remove (k : Key) (t : Toc) : Toc := { t with entries := t.entries.erase k }

/-- Marks the slot of a key free. -/
def markFree (k : Key) (t : Toc) : Toc :=
  match t.find? k with
  | none => t
  | some e => t.putEntry { e with isFree := true }

/-- All entries are replaced, the later of two with one key counts, and no slot stays retired. -/
def replaceAll (es : List Entry) (t : Toc) : Toc :=
  { t with entries := .ofList es, retired := .empty }

/-- A ready table of some entries and retired slots. -/
def ofEntries (es retired : List Entry) : Toc :=
  retired.foldl (fun t e => t.retire e) (es.foldl (fun t e => t.upsertEntry e) empty)

/-- Entries in the order of their offsets. -/
def byOffset (es : List Entry) : List Entry :=
  es.mergeSort fun a b => a.offset ≤ b.offset

/-- The live entries in the order of the file. -/
def activeEntries (t : Toc) : List Entry :=
  byOffset (t.entries.items.filter fun e => !e.isFree && !e.key.isReserved)

/-! ## Giving slots out -/

/-- The reusable slot that is preferred among those of at least `size` bytes.  A free slot goes
before a retired one of its size; before the table is ready no slot is known to be reusable. -/
def freeSlot? (size : Nat) (t : Toc) : Option Entry :=
  if t.ready then
    let free := Entry.best? (t.entries.items.filter fun e => e.isFree && size ≤ e.size)
    let retired := Entry.best? (t.retired.items.filter fun e => size ≤ e.size)
    match free, retired with
    | some a, some b => if b.size < a.size then some b else some a
    | some a, none => some a
    | none, b => b
  else none

/-- Forgets a reusable slot: the free entry that has it, or else the retired slot. -/
def release (e : Entry) (t : Toc) : Toc :=
  match t.find? e.key with
  | some own =>
    if own.offset = e.offset ∧ own.isFree then t.remove e.key
    else { t with retired := t.retired.erase e.offset }
  | none => { t with retired := t.retired.erase e.offset }

/-- Takes the reusable slot that is preferred among those of at least `size` bytes. -/
def takeFreeSlot? (size : Nat) (t : Toc) : Option Entry × Toc :=
  match t.freeSlot? size with
  | none => (none, t)
  | some e => (some e, t.release e)

/-! ## Counts -/

/-- Counts of slots and their bytes. -/
structure Stats where
  live : Nat
  free : Nat
  retired : Nat
  liveBytes : Nat
  /-- Bytes in free and retired slots. -/
  reclaimableBytes : Nat
deriving DecidableEq, Repr

/-- The bytes of several slots. -/
def totalSize : List Entry → Nat
  | [] => 0
  | e :: es => e.size + totalSize es

def stats (t : Toc) : Stats :=
  let (free, live) := t.entries.items.partition (·.isFree)
  { live := live.length
    free := free.length
    retired := t.retired.size
    liveBytes := totalSize live
    reclaimableBytes := totalSize free + totalSize t.retired.items }

/-! ## Laws -/

@[simp] theorem find?_retire (e : Entry) (t : Toc) (k : Key) :
    (t.retire e).find? k = t.find? k := rfl

theorem find?_putEntry (e : Entry) (t : Toc) (k : Key) :
    (t.putEntry e).find? k = if k = e.key then some e else t.find? k :=
  Keyed.get?_put t.entries e k

theorem find?_remove (j : Key) (t : Toc) (k : Key) :
    (t.remove j).find? k = if k = j then none else t.find? k :=
  Keyed.get?_erase t.entries j k

end Toc

end SlotStore
