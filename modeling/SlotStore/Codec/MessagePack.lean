import SlotStore.Codec.MessagePack.Record
import SlotStore.Person

/-!
# Entities in MessagePack

Documents and people as MessagePack.  Writing takes the shortest form of every token and names the
fields of a record; reading accepts every form, stops after the value, and leaves what follows it
alone.

* `MessagePack.writeDocument`, `MessagePack.readDocument?`;
* `MessagePack.writePerson`, `MessagePack.readPerson?`.
-/

namespace SlotStore.MessagePack

/-! ## Documents -/

mutual

/-- The MessagePack form of a document; objects are maps in the order of their members. -/
def writeDocument : Document → Bytes
  | .null => writeNil
  | .bool b => writeBool b
  | .int n => writeSigned n
  | .float x => writeFloat x
  | .text s => writeText s
  | .array items => writeArray items.length ++ writeItems items
  | .object members => writeMap members.length ++ writeMembers members

def writeItems : List Document → Bytes
  | [] => []
  | d :: ds => writeDocument d ++ writeItems ds

def writeMembers : List (String × Document) → Bytes
  | [] => []
  | (name, d) :: ms => writeText name ++ writeDocument d ++ writeMembers ms

end

/-- A member name: a text, and after the first member also raw bytes that are one. -/
def name? (first : Bool) (bs : Bytes) : Option (String × Bytes) := do
  let (token, rest) ← token? bs
  match token with
  | .text s => (Bytes.text? s).map (·, rest)
  | .binary s => if first then none else (Bytes.text? s).map (·, rest)
  | _ => none

/-- `n` members of an object. -/
def documentMembers? (read : Bytes → Option (Document × Bytes)) :
    (first : Bool) → Nat → Bytes → Option (List (String × Document) × Bytes)
  | _, 0, bs => some ([], bs)
  | first, n + 1, bs => do
    let (name, rest) ← name? first bs
    let (d, rest) ← read rest
    let (ms, rest) ← documentMembers? read false n rest
    return ((name, d) :: ms, rest)

/-- A document, given how to read what is nested in it. -/
def documentWith? (nested : Option (Bytes → Option (Document × Bytes))) (bs : Bytes) :
    Option (Document × Bytes) := do
  let (token, rest) ← token? bs
  match token with
  | .nil => some (.null, rest)
  | .bool b => some (.bool b, rest)
  | .unsigned n => some (.int n, rest)
  | .signed n => some (.int n, rest)
  | .float x => some (.ofFloat x, rest)
  | .text s => (Bytes.text? s).map (.text ·, rest)
  | .binary _ => none
  | .extension .. => none
  | .array n =>
    nested.bind fun read => (items? read n rest).map fun (ds, rest) => (.array ds, rest)
  | .map n =>
    nested.bind fun read =>
      (documentMembers? read true n rest).map fun (ms, rest) => (.ofMembers ms, rest)

/-- A document whose arrays and objects nest at most `depth` deep. -/
def document? : (depth : Nat) → Bytes → Option (Document × Bytes)
  | 0 => documentWith? none
  | depth + 1 => documentWith? (some (document? depth))

/-- The document at the front of a run of bytes. -/
def readDocument? (bs : Bytes) : Option Document :=
  (document? nestingLimit bs).map (·.1)

/-! ## People -/

/-- The MessagePack form of a person: a map in the order of the fields. -/
def writePerson (p : Person) : Bytes :=
  writeMap 4 ++
  writeText "name" ++ writeText p.name ++
  writeText "age" ++ writeSigned p.age ++
  writeText "score" ++ (match p.score with | some x => writeFloat x | none => writeNil) ++
  writeText "tags" ++ writeArray p.tags.length ++ p.tags.flatMap writeText

/-- The fields of a person read so far. -/
structure PersonDraft where
  name : Option String := none
  age : Option Int := none
  score : Option Binary64 := none
  tags : Option (List String) := none

/-- The fields of a person in their order. -/
def personFields : List (Field PersonDraft) := [
  ⟨"name", fun d bs => (text? bs).map fun (x, rest) => ({ d with name := some x }, rest)⟩,
  ⟨"age", fun d bs =>
    (integer? (-Document.signedLimit) Document.signedLimit bs).map fun (x, rest) =>
      ({ d with age := some x }, rest)⟩,
  ⟨"score", fun d bs =>
    (optional? float? bs).map fun (x, rest) => ({ d with score := x }, rest)⟩,
  ⟨"tags", fun d bs => (list? text? bs).map fun (x, rest) => ({ d with tags := some x }, rest)⟩]

/-- The person of a draft; only a missing score is allowed. -/
def PersonDraft.person? (d : PersonDraft) : Option Person := do
  return { name := ← d.name, age := ← d.age, score := d.score, tags := ← d.tags }

/-- The person at the front of a run of bytes. -/
def readPerson? (bs : Bytes) : Option Person := do
  let (draft, _) ← record? personFields (nestingLimit - 1) {} bs
  draft.person?

end SlotStore.MessagePack
