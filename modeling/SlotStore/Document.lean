import SlotStore.Binary64

/-!
# Documents

A document is the tree that queries and indexes see of an entity: scalars, arrays, and objects whose
members are kept in the order of their names, one member per name.

* `Document.member?`, `Document.putMember` : reading and writing a member;
* `Document.ofFloat` : a number, or null where the float is none;
* `Document.depth` : the number of nested arrays and objects.
-/

namespace SlotStore

/-- A tree of data. -/
inductive Document
  | null
  | bool (b : Bool)
  /-- A whole number from `-2 ^ 63` to `2 ^ 64 - 1`. -/
  | int (n : Int)
  | float (x : Binary64)
  | text (s : String)
  | array (items : List Document)
  | object (members : List (String × Document))
deriving Inhabited

namespace Document

/-- Whole numbers below this have a place in 64 bits with a sign. -/
def signedLimit : Nat := 0x8000000000000000

/-- The member of this name. -/
def member? (name : String) : List (String × Document) → Option Document
  | [] => none
  | (n, d) :: members => if n = name then some d else member? name members

/-- Members with one set: an old value of the name is replaced, and a new name goes to its place in
the order of names. -/
def putMember (name : String) (d : Document) : List (String × Document) → List (String × Document)
  | [] => [(name, d)]
  | (n, old) :: members =>
    if name < n then (name, d) :: (n, old) :: members
    else if name = n then (name, d) :: members
    else (n, old) :: putMember name d members

/-- An object from members in any order; of two members of one name the later counts. -/
def ofMembers (members : List (String × Document)) : Document :=
  object (members.foldl (fun done (name, d) => putMember name d done) [])

/-- A float as a document, which has no place for NaN and infinities. -/
def ofFloat (x : Binary64) : Document :=
  if x.isFinite then float x else null

mutual

/-- Nesting depth: zero for scalars, one for an empty array. -/
def depth : Document → Nat
  | array items => depthOfItems items + 1
  | object members => depthOfMembers members + 1
  | _ => 0

def depthOfItems : List Document → Nat
  | [] => 0
  | d :: ds => max (depth d) (depthOfItems ds)

def depthOfMembers : List (String × Document) → Nat
  | [] => 0
  | (_, d) :: ms => max (depth d) (depthOfMembers ms)

end

end Document

end SlotStore
