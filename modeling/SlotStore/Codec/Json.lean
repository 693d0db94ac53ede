import SlotStore.Codec.Json.Token
import SlotStore.Person

/-!
# Entities in JSON

Documents and people as compact JSON.  Reading takes one value with blanks around it and nothing
else.

* `Json.writeDocument`, `Json.readDocument?`;
* `Json.writePerson`, `Json.readPerson?`.

A person is read from an object with its fields in any order or from an array of them in order.
Members it does not know are passed over: they must be well-formed, but may nest without limit and
hold texts and numbers that no document can.
-/

namespace SlotStore.Json

/-- How deep arrays and objects may nest. -/
def nestingLimit : Nat := 127

/-! ## Writing -/

mutual

/-- The JSON form of a document, without blanks. -/
def writeDocument : Document → Bytes
  | .null => ascii "null"
  | .bool b => ascii (if b then "true" else "false")
  | .int n => writeInt n
  | .float x => writeFloat x
  | .text s => writeText s
  | .array [] => ascii "[]"
  | .array (d :: ds) => 0x5B :: (writeDocument d ++ writeItems ds)
  | .object [] => [0x7B, 0x7D]
  | .object ((name, d) :: ms) =>
    0x7B :: (writeText name ++ 0x3A :: (writeDocument d ++ writeMembers ms))

/-- The items after the first, and the end of the array. -/
def writeItems : List Document → Bytes
  | [] => [0x5D]
  | d :: ds => 0x2C :: (writeDocument d ++ writeItems ds)

/-- The members after the first, and the end of the object. -/
def writeMembers : List (String × Document) → Bytes
  | [] => [0x7D]
  | (name, d) :: ms => 0x2C :: (writeText name ++ 0x3A :: (writeDocument d ++ writeMembers ms))

end

/-- An array of texts. -/
def writeTexts (texts : List String) : Bytes :=
  0x5B :: (List.intercalate [0x2C] (texts.map writeText) ++ [0x5D])

/-- The JSON form of a person, its fields in their own order. -/
def writePerson (p : Person) : Bytes :=
  0x7B :: (writeText "name" ++ 0x3A :: writeText p.name ++ 0x2C ::
    writeText "age" ++ 0x3A :: writeInt p.age ++ 0x2C ::
    writeText "score" ++
      0x3A :: (match p.score with | some x => writeFloat x | none => ascii "null") ++ 0x2C ::
    writeText "tags" ++ 0x3A :: writeTexts p.tags ++ [0x7D])

/-! ## Reading values -/

/-- What follows blanks and a given byte. -/
def afterByte? (b : UInt8) (bs : Bytes) : Option Bytes :=
  match skipSpace bs with
  | c :: rest => if c = b then some rest else none
  | [] => none

/-- The items of an array from its second place on: each after a comma, up to the bracket. -/
def moreItems? {α : Type} (read : Bytes → Option (α × Bytes)) :
    (fuel : Nat) → Bytes → Option (List α × Bytes)
  | 0, _ => none
  | fuel + 1, bs =>
    match skipSpace bs with
    | 0x5D :: rest => some ([], rest)
    | 0x2C :: rest => do
      let (x, rest) ← read rest
      let (xs, rest) ← moreItems? read fuel rest
      return (x :: xs, rest)
    | _ => none

/-- The items of an array after its opening bracket. -/
def items? {α : Type} (read : Bytes → Option (α × Bytes)) (bs : Bytes) :
    Option (List α × Bytes) :=
  match skipSpace bs with
  | 0x5D :: rest => some ([], rest)
  | bs => do
    let (x, rest) ← read bs
    let (xs, rest) ← moreItems? read rest.length rest
    return (x :: xs, rest)

/-- A member name and its colon. -/
def name? (bs : Bytes) : Option (String × Bytes) := do
  let (name, rest) ← text? (skipSpace bs)
  let rest ← afterByte? 0x3A rest
  return (name, rest)

/-- Members folded into a draft, from the second on: each after a comma, up to the brace. -/
def moreMembers? {σ : Type} (member : String → σ → Bytes → Option (σ × Bytes)) :
    (fuel : Nat) → σ → Bytes → Option (σ × Bytes)
  | 0, _, _ => none
  | fuel + 1, draft, bs =>
    match skipSpace bs with
    | 0x7D :: rest => some (draft, rest)
    | 0x2C :: rest => do
      let (name, rest) ← name? rest
      let (draft, rest) ← member name draft rest
      moreMembers? member fuel draft rest
    | _ => none

/-- Members after the opening brace, folded into a draft. -/
def members? {σ : Type} (member : String → σ → Bytes → Option (σ × Bytes)) (draft : σ)
    (bs : Bytes) : Option (σ × Bytes) :=
  match skipSpace bs with
  | 0x7D :: rest => some (draft, rest)
  | bs => do
    let (name, rest) ← name? bs
    let (draft, rest) ← member name draft rest
    moreMembers? member rest.length draft rest

/-- A document, given how to read what is nested in it. -/
def documentWith? (nested : Option (Bytes → Option (Document × Bytes))) (bs : Bytes) :
    Option (Document × Bytes) :=
  match skipSpace bs with
  | [] => none
  | 0x6E :: rest => (afterWord? (ascii "ull") rest).map (.null, ·)
  | 0x74 :: rest => (afterWord? (ascii "rue") rest).map (.bool true, ·)
  | 0x66 :: rest => (afterWord? (ascii "alse") rest).map (.bool false, ·)
  | 0x22 :: rest => (text? (0x22 :: rest)).map fun (s, rest) => (.text s, rest)
  | 0x5B :: rest =>
    nested.bind fun read => (items? read rest).map fun (ds, rest) => (.array ds, rest)
  | 0x7B :: rest =>
    nested.bind fun read =>
      let put (name : String) (ms : List (String × Document)) (bs : Bytes) :=
        (read bs).map fun (d, rest) => (Document.putMember name d ms, rest)
      (members? put [] rest).map fun (ms, rest) => (.object ms, rest)
  | bs =>
    (number? bs).map fun (n, rest) =>
      match n with
      | .natural n => (.int n, rest)
      | .negative n => (.int n, rest)
      | .float x => (.ofFloat x, rest)

/-- A document whose arrays and objects nest at most `depth` deep. -/
def document? : (depth : Nat) → Bytes → Option (Document × Bytes)
  | 0 => documentWith? none
  | depth + 1 => documentWith? (some (document? depth))

/-- What was read, if only blanks follow it. -/
def finished? {α : Type} : Option (α × Bytes) → Option α
  | some (x, rest) => if skipSpace rest = [] then some x else none
  | none => none

/-- The document that a run of bytes writes. -/
def readDocument? (bs : Bytes) : Option Document :=
  finished? (document? nestingLimit bs)

/-! ## Passing over a value -/

/-- The opening of a container or a whole scalar passed over; the flag tells whether a container
was opened, and by which byte it closes. -/
def passOpening? (bs : Bytes) : Option (Option UInt8 × Bytes) :=
  match skipSpace bs with
  | [] => none
  | 0x6E :: rest => (afterWord? (ascii "ull") rest).map (none, ·)
  | 0x74 :: rest => (afterWord? (ascii "rue") rest).map (none, ·)
  | 0x66 :: rest => (afterWord? (ascii "alse") rest).map (none, ·)
  | 0x22 :: rest => (passBody? rest).map (none, ·)
  | 0x5B :: rest => some (some 0x5D, rest)
  | 0x7B :: rest => some (some 0x7D, rest)
  | bs => (passNumber? bs).map (none, ·)

/-- What comes before the next value in a container: its name if the container is an object. -/
def passName? (closing : UInt8) (bs : Bytes) : Option Bytes :=
  if closing = 0x7D then (passText? (skipSpace bs)).bind (afterByte? 0x3A) else some bs

/-- Goes on in the innermost open container until all are closed.  `closers` are the closing bytes
of the open containers, innermost first; `fresh` tells whether the innermost holds no value yet. -/
def passOpen? : (fuel : Nat) → (fresh : Bool) → (closers : List UInt8) → Bytes → Option Bytes
  | 0, _, _, _ => none
  | _ + 1, _, [], bs => some bs
  | fuel + 1, fresh, closing :: closers, bs =>
    match skipSpace bs with
    | [] => none
    | b :: rest =>
      if b = closing then passOpen? fuel false closers rest
      else
        let next := if fresh then some (b :: rest) else if b = 0x2C then some rest else none
        match next.bind (passName? closing) |>.bind passOpening? with
        | none => none
        | some (none, rest) => passOpen? fuel false (closing :: closers) rest
        | some (some inner, rest) => passOpen? fuel true (inner :: closing :: closers) rest

/-- What follows one value of any kind. -/
def passValue? (bs : Bytes) : Option Bytes :=
  match passOpening? bs with
  | none => none
  | some (none, rest) => some rest
  | some (some closing, rest) => passOpen? (2 * rest.length + 2) true [closing] rest

/-! ## Reading people -/

/-- The fields of a person read so far; a score may have been read and be null. -/
structure PersonDraft where
  name : Option String := none
  age : Option Int := none
  score : Option (Option Binary64) := none
  tags : Option (List String) := none

/-- A whole number of 64 bits, written without fraction or exponent. -/
def age? (bs : Bytes) : Option (Int × Bytes) := do
  let (n, rest) ← number? (skipSpace bs)
  match n with
  | .natural n => if n < Document.signedLimit then some ((n : Int), rest) else none
  | .negative n => some (n, rest)
  | .float _ => none

/-- Null or any number. -/
def score? (bs : Bytes) : Option (Option Binary64 × Bytes) :=
  match skipSpace bs with
  | 0x6E :: rest => (afterWord? (ascii "ull") rest).map (none, ·)
  | bs =>
    (number? bs).map fun (n, rest) =>
      match n with
      | .natural n => (some (.ofInt n), rest)
      | .negative n => (some (.ofInt n), rest)
      | .float x => (some x, rest)

/-- An array of texts. -/
def tags? (bs : Bytes) : Option (List String × Bytes) :=
  (afterByte? 0x5B bs).bind (items? fun bs => text? (skipSpace bs))

/-- A value that may be set once. -/
def once? {α : Type} (old : Option α) (read : Option (α × Bytes)) : Option (Option α × Bytes) :=
  if old.isSome then none else read.map fun (x, rest) => (some x, rest)

/-- A member of a person: a field that is not set yet, or any value under another name. -/
def personMember? (name : String) (d : PersonDraft) (bs : Bytes) :
    Option (PersonDraft × Bytes) :=
  if name = "name" then
    (once? d.name (text? (skipSpace bs))).map fun (x, rest) => ({ d with name := x }, rest)
  else if name = "age" then
    (once? d.age (age? bs)).map fun (x, rest) => ({ d with age := x }, rest)
  else if name = "score" then
    (once? d.score (score? bs)).map fun (x, rest) => ({ d with score := x }, rest)
  else if name = "tags" then
    (once? d.tags (tags? bs)).map fun (x, rest) => ({ d with tags := x }, rest)
  else (passValue? bs).map (d, ·)

/-- The fields of a person in order, up to the bracket. -/
def personItems? (bs : Bytes) : Option (Person × Bytes) := do
  let (name, rest) ← text? (skipSpace bs)
  let rest ← afterByte? 0x2C rest
  let (age, rest) ← age? rest
  let rest ← afterByte? 0x2C rest
  let (score, rest) ← score? rest
  let rest ← afterByte? 0x2C rest
  let (tags, rest) ← tags? rest
  let rest ← afterByte? 0x5D rest
  return ({ name, age, score, tags }, rest)

/-- A person in either form. -/
def person? (bs : Bytes) : Option (Person × Bytes) :=
  match skipSpace bs with
  | 0x5B :: rest => personItems? rest
  | 0x7B :: rest => do
    let (d, rest) ← members? personMember? {} rest
    let p ← (do
      return { name := ← d.name, age := ← d.age, score := d.score.join, tags := ← d.tags })
    return (p, rest)
  | _ => none

/-- The person that a run of bytes writes. -/
def readPerson? (bs : Bytes) : Option Person :=
  finished? (person? bs)

end SlotStore.Json
