import SlotStore.Record.Content
import SlotStore.Record.Header
import SlotStore.Checksum

/-!
# Record files

A record file is a row of slots up to the cursor, where the next slot is appended.  A sealed file
has a tail past the cursor: the table of contents in a slot of its own, and a footer.  Whatever
writes a slot first cuts the tail off.

* `RecordFile.reserve` : appends a slot that scans as unused until it is written;
* `RecordFile.beginWrite`, `Writer.write`, `RecordFile.commit` : a payload written in pieces, all of
  it or nothing;
* `RecordFile.writePieces`, `RecordFile.writePayload`, `RecordFile.append` : a payload written as a
  whole, into a slot or behind the last one;
* `RecordFile.readHeader`, `RecordFile.read`, `RecordFile.readSealed` : reading;
* `RecordFile.markUnused` : turns a slot into a tombstone;
* `RecordFile.sealWith`, `RecordFile.adoptSeal`, `RecordFile.dropTail` : the tail;
* `RecordFile.install` : another file put in the place of this one, by a system that may refuse.

An operation that changes the file is a `FileM` action; it may have changed the file also when it
fails.  No file reaches beyond `positionLimit` bytes.
-/

namespace SlotStore

/-- An open record file. -/
structure RecordFile where
  content : Content
  /-- Where the next slot is appended. -/
  cursor : Nat
  /-- Where the sealed tail begins, while there is one. -/
  sealedAt : Option Nat

/-- An action on a record file. -/
abbrev FileM := EStateM Error RecordFile

/-- Positions in a file are below this. -/
def positionLimit : Nat := 0x8000000000000000

/-- Lengths and capacities of payloads are below this. -/
def lengthLimit : Nat := 0x100000000

namespace RecordFile

/-- A file as it is opened: the cursor stands at its end. -/
def ofContent (c : Content) : RecordFile := ⟨c, c.size, none⟩

instance : Inhabited RecordFile := ⟨ofContent default⟩

/-- Whether the file has a sealed tail. -/
def isSealed (f : RecordFile) : Bool := f.sealedAt.isSome

/-- The length of the file, tail included. -/
def fileLength (f : RecordFile) : Nat := f.content.size

/-! ## Steps on the content -/

/-- The bytes of a range. -/
def bytesAt (f : RecordFile) (start n : Nat) : Except Error Bytes :=
  if positionLimit ≤ start then .error (.file .invalidPosition)
  else
    match f.content.slice? start n with
    | some bs => .ok bs
    | none => .error (.file .unexpectedEnd)

/-- Writes bytes at a position.  No file is made to reach beyond the last position. -/
def putBytes (start : Nat) (bs : Bytes) : FileM Unit := fun f =>
  if positionLimit ≤ start + bs.length then .error (.file .invalidPosition) f
  else .ok () { f with content := f.content.write start bs }

/-- Cuts or grows the file to a length. -/
def setLength (n : Nat) : FileM Unit := fun f =>
  if positionLimit ≤ n then .error (.file .invalidPosition) f
  else .ok () { f with content := f.content.resize n }

/-- Grows the file to a length if it is shorter. -/
def growTo (n : Nat) : FileM Unit := fun f =>
  if f.content.size < n then setLength n f else .ok () f

/-- The action that fails where a computation does. -/
def orFail {α : Type} : Except Error α → FileM α
  | .ok x => pure x
  | .error e => throw e

/-! ## The sealed tail -/

/-- Cuts off the sealed tail, if there is one. -/
def dropTail : FileM Unit := do
  match (← get).sealedAt with
  | none => pure ()
  | some start =>
    setLength start
    modify fun f => { f with sealedAt := none }

/-- Takes a tail found in the file for sealed: the cursor moves back to its beginning. -/
def adoptSeal (start : Nat) : FileM Unit :=
  modify fun f => { f with cursor := start, sealedAt := some start }

/-- Cuts the file and the cursor back to a length, and forgets about a tail. -/
def truncate (n : Nat) : FileM Unit := do
  modify fun f => { f with sealedAt := none }
  setLength n
  modify fun f => { f with cursor := n }

/-- The bytes of a sealed tail at a position. -/
def tail (start : Nat) (stamp : Stamp) (payload : Bytes) : Bytes :=
  let header : Header := {
    key := stamp.key
    version := stamp.version
    length := UInt32.ofNat payload.length
    capacity := UInt32.ofNat payload.length
    inUse := true
    checksum := checksum payload }
  header.encode ++ payload ++ (Footer.mk start).encode

/-- Seals the file: a slot with the payload and a footer are put past the cursor, which stays.
Gives the position of that slot. -/
def sealWith (stamp : Stamp) (payload : Bytes) : FileM Nat := do
  dropTail
  let start := (← get).cursor
  if lengthLimit ≤ payload.length then throw (.payloadTooLarge payload.length)
  setLength start
  putBytes start (tail start stamp payload)
  modify fun f => { f with sealedAt := some start }
  return start

/-- The footer at the end of the file, if one stands there that points into the file. -/
def footer? (f : RecordFile) : Option Nat :=
  if f.content.size < Footer.size then none
  else
    match Footer.decode? (f.content.slice (f.content.size - Footer.size) Footer.size) with
    | some footer => if footer.tocOffset < f.content.size then some footer.tocOffset else none
    | none => none

/-! ## Reserving -/

/-- The header of a slot that nothing was written to. -/
def placeholder (capacity : Nat) : Header := {
  key := Key.reserved
  version := 0
  length := 0
  capacity := UInt32.ofNat capacity
  inUse := false
  checksum := checksum [] }

/-- Puts a header at a position and makes the file reach to the end of its slot. -/
def stampSlot (start size : Nat) (h : Header) : FileM Unit := do
  putBytes start h.encode
  growTo (start + size)

/-- Appends a slot of `size` bytes, header included, and gives its position.  The slot scans as an
unused one until it is written. -/
def reserve (size : Nat) : FileM Nat := do
  if size < Header.size then throw (.range (.slotBelowHeader size Header.size))
  let capacity := size - Header.size
  if lengthLimit ≤ capacity then throw (.payloadTooLarge capacity)
  dropTail
  let start := (← get).cursor
  stampSlot start size (placeholder capacity)
  modify fun f => { f with cursor := start + size }
  return start

end RecordFile

/-! ## Writing a payload -/

/-- A payload on its way into a slot.  It is gathered here and reaches the file as a whole. -/
structure Writer where
  start : Nat
  stamp : Stamp
  /-- The announced length of the payload. -/
  length : Nat
  capacity : Nat
  gathered : Bytes
  /-- Whether a piece was refused. -/
  overflowed : Bool

namespace Writer

/-- Bytes still expected. -/
def remaining (w : Writer) : Nat := w.length - w.gathered.length

/-- Takes one more piece of the payload and gives its length.  A piece that is too long is refused
as a whole. -/
def write (piece : Bytes) (w : Writer) : Except Error Nat × Writer :=
  if w.remaining < piece.length then
    (.error (.file .payloadOverrun), { w with overflowed := true })
  else (.ok piece.length, { w with gathered := w.gathered ++ piece })

/-- Takes one piece after another.  Gives what was taken of each, and the bytes expected after
it. -/
def writeAll : List Bytes → Writer → List (Except Error Nat × Nat) × Writer
  | [], w => ([], w)
  | piece :: pieces, w =>
    let (taken, w) := w.write piece
    let (rest, last) := writeAll pieces w
    ((taken, w.remaining) :: rest, last)

/-- The header of the finished payload. -/
def header (w : Writer) : Header := {
  key := w.stamp.key
  version := w.stamp.version
  length := UInt32.ofNat w.length
  capacity := UInt32.ofNat w.capacity
  inUse := true
  checksum := checksum w.gathered }

end Writer

namespace RecordFile

/-- Announces a payload of `length` bytes for the slot of the given capacity at a position. -/
def beginWrite (start length capacity : Nat) (stamp : Stamp) : FileM Writer := do
  if lengthLimit ≤ length then throw (.payloadTooLarge length)
  if lengthLimit ≤ capacity then throw (.payloadTooLarge capacity)
  if capacity < length then throw (.range (.lengthExceedsCapacity length capacity))
  let limit := (← get).cursor
  if limit < start then throw (.range (.writePastEnd start limit))
  dropTail
  return { start, stamp, length, capacity, gathered := [], overflowed := false }

/-- Puts a header and a payload into a slot and makes the file reach to the end of it. -/
def fillSlot (start : Nat) (h : Header) (payload : Bytes) : FileM Unit := do
  putBytes start (h.encode ++ payload)
  growTo (start + h.slotSize)
  modify fun f => { f with cursor := max f.cursor (start + h.slotSize) }

/-- Puts a gathered payload into its slot.  Fails unless exactly the announced length was
gathered. -/
def commit (w : Writer) : FileM Header := do
  if w.overflowed ∨ w.gathered.length ≠ w.length then
    throw (.range (.payloadIncomplete w.length w.gathered.length))
  fillSlot w.start w.header w.gathered
  return w.header

/-- Writes a whole payload into a slot. -/
def writePayload (start : Nat) (stamp : Stamp) (payload : Bytes) (capacity : Nat) :
    FileM Header := do
  let w ← beginWrite start payload.length capacity stamp
  let (result, w) := w.write payload
  let _ ← orFail result
  commit w

/-- What became of a payload that came in pieces. -/
structure PieceReport where
  announced : Nat
  /-- What was taken of each piece, and the bytes expected after it. -/
  pieces : List (Except Error Nat × Nat)
  /-- How the writing ended, unless it was given up. -/
  ended : Option (Except Error Header)

/-- Writes a payload that comes in pieces into a slot, or gives it up after the last piece. -/
def writePieces (start length capacity : Nat) (stamp : Stamp) (pieces : List Bytes)
    (commits : Bool) : FileM PieceReport := do
  let w ← beginWrite start length capacity stamp
  let (taken, w) := w.writeAll pieces
  let ended ← if commits then some <$> Error.observe (commit w) else pure none
  return ⟨length, taken, ended⟩

/-- Writes a payload into a new slot and gives where that begins.  The slot stays also if the
payload does not fit into it. -/
def append (stamp : Stamp) (payload : Bytes) (capacity : Nat) : FileM Nat := do
  let start ← reserve (Header.size + capacity)
  let _ ← writePayload start stamp payload capacity
  return start

/-- A file of some records, each in a slot that it fills. -/
def ofRecords (records : List (Stamp × Bytes)) : Except Error RecordFile :=
  let act : FileM Unit := records.forM fun (stamp, payload) => do
    let _ ← append stamp payload payload.length
  match act (ofContent .empty) with
  | .ok _ f => .ok f
  | .error e _ => .error e

/-! ## Reading -/

/-- Fails if a range reaches past a limit. -/
def checkRange (start n limit : Nat) : Except Error Unit :=
  if start + n ≤ limit then .ok () else .error (.range (.accessOutside n start limit))

/-- The header at a position below the cursor. -/
def readHeader (f : RecordFile) (start : Nat) : Except Error Header := do
  checkRange start Header.size f.cursor
  let bs ← f.bytesAt start Header.size
  Header.decode start bs

/-- The header and the payload of a slot that ends by a limit. -/
def readBounded (f : RecordFile) (start limit : Nat) : Except Error (Header × Bytes) := do
  checkRange start Header.size limit
  let bs ← f.bytesAt start Header.size
  let h ← Header.decode start bs
  checkRange start h.slotSize limit
  let payload ← f.bytesAt (start + Header.size) h.length.toNat
  if checksum payload ≠ h.checksum then .error (.corruption start .checksumMismatch)
  else .ok (h, payload)

/-- The header and the payload of a slot below the cursor. -/
def read (f : RecordFile) (start : Nat) : Except Error (Header × Bytes) :=
  f.readBounded start f.cursor

/-- The header and the payload of a slot anywhere in the file, the sealed tail included. -/
def readSealed (f : RecordFile) (start : Nat) : Except Error (Header × Bytes) :=
  f.readBounded start f.fileLength

/-- Clears the flag of a slot; its key, version and payload stay. -/
def markUnused (start : Nat) : FileM Unit := do
  let _ ← orFail ((← get).readHeader start)
  dropTail
  putBytes (start + 1) [0]

/-! ## Replacing the file -/

/-- What stands at the path of a shadow file. -/
inductive ShadowNode
  | absent
  | file (f : RecordFile)
  | directory

/-- What stands there after a file was removed.  A directory stays. -/
def ShadowNode.cleared : ShadowNode → ShadowNode
  | .directory => .directory
  | _ => .absent

/-- The file that stands there, or an empty one. -/
def ShadowNode.opened : ShadowNode → RecordFile
  | .file f => f
  | _ => default

/-- What the system refuses whoever puts a shadow in the place of a file. -/
structure Refusals where
  /-- Writing what was buffered of the shadow to the disk. -/
  flush : Option Error := none
  /-- Renaming the shadow onto the path of the file. -/
  rename : Option Error := none
  /-- Opening the file again once the shadow stands at its path. -/
  reopen : Option Error := none

/-- An open file, what stands at its path, and what stands at the path of its shadow. -/
structure Site where
  file : RecordFile
  named : Content
  shadow : ShadowNode

/-- The content that renaming a shadow brings to the path of a file. -/
def renamed (r : Refusals) (node : ShadowNode) : Except Error Content :=
  match r.rename, node with
  | some e, _ => .error e
  | none, .absent => .error (.file .notFound)
  | none, .directory => .error (.file .isDirectory)
  | none, .file f => .ok f.content

/-- Puts a shadow in the place of a file.  The shadow is flushed, renamed onto the path of the file,
and opened there.  If it cannot be renamed it is removed; if it cannot be flushed it stays. -/
def install (r : Refusals) (shadow : RecordFile) : EStateM Error Site Unit := fun site =>
  match r.flush with
  | some e => .error e site
  | none =>
    match renamed r site.shadow with
    | .error e => .error e { site with shadow := site.shadow.cleared }
    | .ok named =>
      match r.reopen with
      -- The old file is still open, although nothing stands at a path for it any more.
      | some e => .error e ⟨{ site.file with sealedAt := none }, named, .absent⟩
      | none => .ok () ⟨⟨named, shadow.cursor, none⟩, named, .absent⟩

end RecordFile

end SlotStore
