import SlotStore.Document

/-!
# People

The sample entity type with fixed fields, next to entities that are free documents.

* `Person.document` : the document an index or a filter sees of a person;
* `Person.ofDocument?` : the person that a document describes.
-/

namespace SlotStore

/-- An entity with named, typed fields. -/
structure Person where
  name : String
  /-- A whole number of 64 bits. -/
  age : Int
  score : Option Binary64
  tags : List String
deriving DecidableEq, Repr

namespace Person

/-- The document of a person, members in the order of their names. -/
def document (p : Person) : Document :=
  .object [
    ("age", .int p.age),
    ("name", .text p.name),
    ("score", match p.score with | some x => .ofFloat x | none => .null),
    ("tags", .array (p.tags.map .text))]

/-- The text of a text document. -/
def textOf? : Document → Option String
  | .text s => some s
  | _ => none

/-- The age a document is. -/
def ageOf? : Document → Option Int
  | .int n => if n < Document.signedLimit then some n else none
  | _ => none

/-- The number a document is, or none for null. -/
def scoreOf? : Document → Option (Option Binary64)
  | .null => some none
  | .int n => some (some (.ofInt n))
  | .float x => some (some x)
  | _ => none

/-- The texts a document lists. -/
def tagsOf? : Document → Option (List String)
  | .array items => items.mapM textOf?
  | _ => none

/-- The person of four documents, one for each field. -/
def ofFields? (name age score tags : Document) : Option Person := do
  return {
    name := ← textOf? name, age := ← ageOf? age, score := ← scoreOf? score, tags := ← tagsOf? tags }

/-- The person a document describes: an object with the fields of a person, `score` optional, or an
array of the fields in their order. -/
def ofDocument? : Document → Option Person
  | .object members => do
    let field? (name : String) := Document.member? name members
    ofFields? (← field? "name") (← field? "age") ((field? "score").getD .null) (← field? "tags")
  | .array [name, age, score, tags] => ofFields? name age score tags
  | _ => none

end Person

end SlotStore
