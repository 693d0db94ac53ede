import SlotStore.Codec.MessagePack.Token

/-!
# Sequences and records in MessagePack

Values nest in arrays and maps, at most `nestingLimit` deep.  A record of named fields is written as
a map from names to values or as an array of the values in order, and both forms are read: a map may
name its fields in any order, by name or by position, and members it does not know are passed over.

* `items?` : a number of values in a row;
* `skip?` : passing over one value;
* `record?` : the fields of a record in either form.
-/

namespace SlotStore.MessagePack

/-- How deep arrays and maps may nest. -/
def nestingLimit : Nat := 1023

/-- `n` values in a row. -/
def items? {α : Type} (read : Bytes → Option (α × Bytes)) : Nat → Bytes → Option (List α × Bytes)
  | 0, bs => some ([], bs)
  | n + 1, bs => do
    let (x, rest) ← read bs
    let (xs, rest) ← items? read n rest
    return (x :: xs, rest)

/-! ## Passing over a value -/

/-- `n` values passed over. -/
def skipMany? (skip : Bytes → Option Bytes) : Nat → Bytes → Option Bytes
  | 0, bs => some bs
  | n + 1, bs => (skip bs).bind (skipMany? skip n)

/-- One value passed over, given how to pass over what is nested in it. -/
def skipWith? (nested : Option (Bytes → Option Bytes)) (bs : Bytes) : Option Bytes := do
  let (token, rest) ← token? bs
  match token with
  | .array n => nested.bind fun skip => skipMany? skip n rest
  | .map n => nested.bind fun skip => skipMany? skip (2 * n) rest
  | .extension .. => nested.map fun _ => rest
  | _ => some rest

/-- One value passed over whose arrays and maps nest at most `depth` deep. -/
def skip? : (depth : Nat) → Bytes → Option Bytes
  | 0 => skipWith? none
  | depth + 1 => skipWith? (some (skip? depth))

/-! ## Records -/

/-- A field of a record that is read into a draft `σ`. -/
structure Field (σ : Type) where
  name : String
  read? : σ → Bytes → Option (σ × Bytes)

/-- The position of the field that a member of a map names; the number of fields if there is none
such. -/
def fieldPosition? {σ : Type} (fields : List (Field σ)) : Token → Option Nat
  | .unsigned n => some (min n fields.length)
  | .text bs | .binary bs => some (fields.findIdx fun f => Bytes.ofText f.name == bs)
  | _ => none

/-- `n` members of a map read into a draft.  No field may come twice. -/
def members? {σ : Type} (fields : List (Field σ)) (depth : Nat) :
    (n : Nat) → (seen : List Nat) → σ → Bytes → Option (σ × Bytes)
  | 0, _, draft, bs => some (draft, bs)
  | n + 1, seen, draft, bs => do
    let (token, rest) ← token? bs
    let position ← fieldPosition? fields token
    match fields[position]? with
    | none =>
      let rest ← skip? depth rest
      members? fields depth n seen draft rest
    | some field =>
      if seen.contains position then none
      else
        let (draft, rest) ← field.read? draft rest
        members? fields depth n (position :: seen) draft rest

/-- The values of all fields in order. -/
def sequence? {σ : Type} : List (Field σ) → σ → Bytes → Option (σ × Bytes)
  | [], draft, bs => some (draft, bs)
  | field :: fields, draft, bs => do
    let (draft, rest) ← field.read? draft bs
    sequence? fields draft rest

/-- A record in either form; `depth` is what may still nest inside it. -/
def record? {σ : Type} (fields : List (Field σ)) (depth : Nat) (draft : σ) (bs : Bytes) :
    Option (σ × Bytes) := do
  let (token, rest) ← token? bs
  match token with
  | .array n => if n = fields.length then sequence? fields draft rest else none
  | .map n => members? fields depth n [] draft rest
  | _ => none

/-! ## Typed values -/

/-- A text, also from raw bytes that are one. -/
def text? (bs : Bytes) : Option (String × Bytes) := do
  let (token, rest) ← token? bs
  match token with
  | .text s | .binary s => (Bytes.text? s).map (·, rest)
  | _ => none

/-- A whole number in a range. -/
def integer? (low high : Int) (bs : Bytes) : Option (Int × Bytes) := do
  let (token, rest) ← token? bs
  let n ← match token with
    | .unsigned n => some (n : Int)
    | .signed n => some n
    | _ => none
  if low ≤ n ∧ n < high then some (n, rest) else none

/-- A whole number below `bound`. -/
def natural? (bound : Nat) (bs : Bytes) : Option (Nat × Bytes) :=
  (integer? 0 bound bs).map fun (n, rest) => (n.toNat, rest)

def bool? (bs : Bytes) : Option (Bool × Bytes) := do
  let (token, rest) ← token? bs
  match token with
  | .bool b => some (b, rest)
  | _ => none

/-- A number as a double. -/
def float? (bs : Bytes) : Option (Binary64 × Bytes) := do
  let (token, rest) ← token? bs
  match token with
  | .unsigned n => some (.ofInt n, rest)
  | .signed n => some (.ofInt n, rest)
  | .float x => some (x, rest)
  | _ => none

/-- Nil, or a value. -/
def optional? {α : Type} (read : Bytes → Option (α × Bytes)) (bs : Bytes) :
    Option (Option α × Bytes) :=
  match token? bs with
  | some (.nil, rest) => some (none, rest)
  | some _ => (read bs).map fun (x, rest) => (some x, rest)
  | none => none

/-- An array of values.  Raw bytes pass for an array of numbers, so no bytes pass for an empty
array of anything. -/
def list? {α : Type} (read : Bytes → Option (α × Bytes)) (bs : Bytes) :
    Option (List α × Bytes) := do
  let (token, rest) ← token? bs
  match token with
  | .array n => items? read n rest
  | .binary [] => some ([], rest)
  | _ => none

end SlotStore.MessagePack
