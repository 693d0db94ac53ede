import SlotStore.Toc
import SlotStore.Codec.MessagePack.Record

/-!
# The written table of contents

A sealed file ends with its table of contents as a MessagePack payload: a format number, the length
of the region it describes, the next version, the entries in the order of their offsets, and the
retired slots.  Every record of it is written as an array; reading also takes maps of named fields.

* `Snapshot.ofToc`, `Snapshot.restore` : a table as a snapshot and back;
* `Snapshot.write`, `Snapshot.read?` : the payload.
-/

namespace SlotStore

/-- A table of contents as it is written to the file. -/
structure Snapshot where
  format : UInt32
  /-- Where the region of slots ends. -/
  dataEnd : Nat
  nextVersion : UInt32
  entries : List Entry
  retired : List Entry
deriving DecidableEq, Repr

namespace Snapshot

/-- The format that is written, and the only one that is read. -/
def currentFormat : UInt32 := 1

/-- The snapshot of a table that describes a region of a length. -/
def ofToc (dataEnd : Nat) (t : Toc) : Snapshot := {
  format := currentFormat
  dataEnd
  nextVersion := t.nextVersion
  entries := Toc.byOffset t.entries.items
  retired := Toc.byOffset t.retired.items }

/-- Puts what a snapshot says into a table; versions never go back. -/
def restore (s : Snapshot) (t : Toc) : Toc :=
  { t with
    entries := .ofList s.entries
    retired := .ofList s.retired
    nextVersion := max t.nextVersion s.nextVersion }

/-! ## Writing -/

open MessagePack

def writeEntry (e : Entry) : Bytes :=
  writeArray 5 ++ writeBinary e.key.bytes ++ writeUnsigned e.offset ++ writeUnsigned e.size ++
    writeBool e.isFree ++ writeUnsigned e.version.toNat

def writeEntries (es : List Entry) : Bytes :=
  writeArray es.length ++ es.flatMap writeEntry

/-- The payload of a snapshot. -/
def write (s : Snapshot) : Bytes :=
  writeArray 5 ++ writeUnsigned s.format.toNat ++ writeUnsigned s.dataEnd ++
    writeUnsigned s.nextVersion.toNat ++ writeEntries s.entries ++ writeEntries s.retired

/-! ## Reading -/

/-- A key as raw bytes; the bytes of an invalid text pass for raw ones. -/
def key? (bs : Bytes) : Option (Key × Bytes) := do
  let (token, rest) ← token? bs
  match token with
  | .binary k => (Key.ofBytes? k).map (·, rest)
  | .text k => if (Bytes.text? k).isSome then none else (Key.ofBytes? k).map (·, rest)
  | _ => none

/-- A whole number of 32 bits. -/
def word32? (bs : Bytes) : Option (UInt32 × Bytes) :=
  (natural? (Bytes.span 4) bs).map fun (n, rest) => (UInt32.ofNat n, rest)

/-- A whole number of 64 bits. -/
def word64? (bs : Bytes) : Option (Nat × Bytes) := natural? (Bytes.span 8) bs

/-- The fields of an entry read so far. -/
structure EntryDraft where
  key : Option Key := none
  offset : Option Nat := none
  size : Option Nat := none
  isFree : Option Bool := none
  version : Option UInt32 := none

/-- The fields of an entry in their order. -/
def entryFields : List (MessagePack.Field EntryDraft) := [
  ⟨"key", fun d bs => (key? bs).map fun (x, rest) => ({ d with key := some x }, rest)⟩,
  ⟨"offset", fun d bs => (word64? bs).map fun (x, rest) => ({ d with offset := some x }, rest)⟩,
  ⟨"size", fun d bs => (word64? bs).map fun (x, rest) => ({ d with size := some x }, rest)⟩,
  ⟨"is_free", fun d bs => (bool? bs).map fun (x, rest) => ({ d with isFree := some x }, rest)⟩,
  ⟨"version", fun d bs => (word32? bs).map fun (x, rest) => ({ d with version := some x }, rest)⟩]

/-- The entry of a draft; no field may be missing. -/
def EntryDraft.complete? (d : EntryDraft) : Option Entry := do
  return {
    key := ← d.key
    offset := ← d.offset
    size := ← d.size
    isFree := ← d.isFree
    version := ← d.version }

/-- An entry, which stands in a list of the outermost record. -/
def readEntry? (bs : Bytes) : Option (Entry × Bytes) := do
  let (draft, rest) ← record? entryFields (nestingLimit - 3) {} bs
  return (← draft.complete?, rest)

/-- The fields of a snapshot read so far. -/
structure Draft where
  format : Option UInt32 := none
  dataEnd : Option Nat := none
  nextVersion : Option UInt32 := none
  entries : Option (List Entry) := none
  retired : Option (List Entry) := none

/-- The fields of a snapshot in their order. -/
def fields : List (MessagePack.Field Draft) := [
  ⟨"format_version", fun d bs =>
    (word32? bs).map fun (x, rest) => ({ d with format := some x }, rest)⟩,
  ⟨"data_end", fun d bs => (word64? bs).map fun (x, rest) => ({ d with dataEnd := some x }, rest)⟩,
  ⟨"next_version", fun d bs =>
    (word32? bs).map fun (x, rest) => ({ d with nextVersion := some x }, rest)⟩,
  ⟨"entries", fun d bs =>
    (list? readEntry? bs).map fun (x, rest) => ({ d with entries := some x }, rest)⟩,
  ⟨"retired", fun d bs =>
    (list? readEntry? bs).map fun (x, rest) => ({ d with retired := some x }, rest)⟩]

/-- The snapshot of a draft; no field may be missing. -/
def Draft.complete? (d : Draft) : Option Snapshot := do
  return {
    format := ← d.format
    dataEnd := ← d.dataEnd
    nextVersion := ← d.nextVersion
    entries := ← d.entries
    retired := ← d.retired }

/-- The snapshot that a payload spells. -/
def read? (bs : Bytes) : Option Snapshot := do
  let (draft, _) ← record? fields (nestingLimit - 1) {} bs
  draft.complete?

end Snapshot

end SlotStore
