import SlotStore.Error
import SlotStore.Codec.MessagePack
import SlotStore.Codec.Json
import SlotStore.Codec.Packed

/-!
# Codecs

A store turns entities into payloads through a codec that is fixed when the store is opened.  A
`Coding` says how one type of entities passes through a codec, and which document stands for an
entity in queries and indexes.

* `Codec` : the three formats;
* `Coding` : a type of entities in a format;
* `Codec.documents`, `Codec.people` : the codings of the two entity types.
-/

namespace SlotStore

/-- The format of payloads. -/
inductive Codec
  | messagePack
  | json
  | packed
deriving DecidableEq, Repr

/-- How a type of entities is written, read and shown to queries. -/
structure Coding (α : Type) where
  encode : α → Except Error Bytes
  decode : Bytes → Except Error α
  document : α → Document

namespace Codec

/-- The name of a format. -/
def name : Codec → String
  | messagePack => "msgpack"
  | json => "json"
  | packed => "bincode"

/-- A reading that fails where there is no value. -/
def orMalformed {α : Type} : Option α → Except Error α
  | some x => .ok x
  | none => .error (.serialization "malformed payload")

/-- Documents in a format.  The packed form of a document cannot be read back. -/
def documents : Codec → Coding Document
  | messagePack =>
    ⟨fun d => .ok (MessagePack.writeDocument d),
      fun bs => orMalformed (MessagePack.readDocument? bs), id⟩
  | json => ⟨fun d => .ok (Json.writeDocument d), fun bs => orMalformed (Json.readDocument? bs), id⟩
  | packed => ⟨fun d => .ok (Packed.writeDocument d), fun _ => orMalformed none, id⟩

/-- People in a format. -/
def people : Codec → Coding Person
  | messagePack =>
    ⟨fun p => .ok (MessagePack.writePerson p), fun bs => orMalformed (MessagePack.readPerson? bs),
      Person.document⟩
  | json =>
    ⟨fun p => .ok (Json.writePerson p), fun bs => orMalformed (Json.readPerson? bs),
      Person.document⟩
  | packed =>
    ⟨fun p => .ok (Packed.writePerson p), fun bs => orMalformed (Packed.readPerson? bs),
      Person.document⟩

end Codec

end SlotStore
