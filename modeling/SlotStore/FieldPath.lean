import SlotStore.Value

/-!
# Field paths

A path such as `address.city` leads from the root of a document to one of its nodes: a segment names
a member of an object, or is the position of an item in an array.

* `FieldPath.parse`, `FieldPath.text` : the dotted form;
* `FieldPath.resolve?` : the node at a path;
* `FieldPath.value?` : the scalar at a path.
-/

namespace SlotStore

/-- The segments from the root to a node. -/
structure FieldPath where
  segments : List String
deriving DecidableEq, Repr, Inhabited

namespace FieldPath

/-! ## Dotted form -/

/-- The parts between the dots of a text, empty ones included. -/
def splitDots : List Char → List (List Char)
  | [] => [[]]
  | c :: cs =>
    if c = '.' then [] :: splitDots cs
    else
      match splitDots cs with
      | [] => [[c]]
      | part :: parts => (c :: part) :: parts

/-- The path of a dotted text; empty parts are dropped. -/
def parse (s : String) : FieldPath :=
  ⟨((splitDots s.toList).filter (!·.isEmpty)).map String.ofList⟩

/-- The segments with dots between them. -/
def text (p : FieldPath) : String :=
  String.ofList (List.intercalate ['.'] (p.segments.map String.toList))

/-- Whether the path is the root itself. -/
def isRoot (p : FieldPath) : Bool := p.segments.isEmpty

/-- Paths are ordered by their segments, texts in the order of their characters. -/
def compareSegments : List String → List String → Ordering
  | [], [] => .eq
  | [], _ :: _ => .lt
  | _ :: _, [] => .gt
  | a :: as, b :: bs => (compare a b).then (compareSegments as bs)

def compare (p q : FieldPath) : Ordering := compareSegments p.segments q.segments

/-! ## Resolution -/

/-- The number that decimal digits spell after `n`. -/
def digitsFrom? (n : Nat) : List Char → Option Nat
  | [] => some n
  | c :: cs => if '0' ≤ c ∧ c ≤ '9' then digitsFrom? (10 * n + (c.toNat - '0'.toNat)) cs else none

/-- Positions are below this. -/
def positionLimit : Nat := 0x10000000000000000

/-- The position a segment names: decimal digits, a plus sign before them allowed. -/
def position? (segment : String) : Option Nat :=
  let digits := match segment.toList with
    | '+' :: rest => rest
    | cs => cs
  if digits = [] then none
  else (digitsFrom? 0 digits).filter (· < positionLimit)

/-- The child of a node that a segment names. -/
def child? (segment : String) : Document → Option Document
  | .object members => Document.member? segment members
  | .array items => (position? segment).bind fun i => items[i]?
  | _ => none

/-- The node at the end of a list of segments. -/
def walk? : List String → Document → Option Document
  | [], node => some node
  | segment :: segments, node => (child? segment node).bind (walk? segments)

/-- The node at a path. -/
def resolve? (p : FieldPath) (doc : Document) : Option Document := walk? p.segments doc

/-- The scalar at a path; nothing for arrays and objects. -/
def value? (p : FieldPath) (doc : Document) : Option Value :=
  (p.resolve? doc).bind Value.ofDocument?

/-- The value a filter or an index sees at a path, null where there is no scalar. -/
def valueOrNull (p : FieldPath) (doc : Document) : Value :=
  (p.value? doc).getD .null

theorem walk?_append (ss ts : List String) (doc : Document) :
    walk? (ss ++ ts) doc = (walk? ss doc).bind (walk? ts) := by
  induction ss generalizing doc with
  | nil => rfl
  | cons s ss ih =>
    simp only [List.cons_append, walk?]
    cases child? s doc with
    | none => rfl
    | some node => exact ih node

end FieldPath

end SlotStore
