import SlotStore.Document
import SlotStore.Text.Quoted
import SlotStore.Text.Number
import SlotStore.Binary64.Decimal

/-!
# Scalar values

The values that filters compare and indexes hold.  Integers and floats are one kind: they compare by
their numbers, an integer against a float after rounding to double precision.

* `Value.compare?` : the comparison of filters, undefined between kinds and on NaN;
* `Value.rankCompare` : the order of sorting and of index columns, defined on all values;
* `Value.display` : how a value is shown;
* `Value.ofDocument?` : the scalar at the root of a document.
-/

namespace SlotStore

/-- A scalar. -/
inductive Value
  | null
  | bool (b : Bool)
  /-- A whole number of 64 bits. -/
  | int (n : Int)
  | float (x : Binary64)
  | text (s : String)
deriving DecidableEq, Repr, Inhabited

namespace Value

/-- The name of a value's kind. -/
def kindName : Value → String
  | null => "Null"
  | bool _ => "Bool"
  | int _ => "Int"
  | float _ => "Float"
  | text _ => "String"

def isNull : Value → Bool
  | null => true
  | _ => false

/-- The number of an integer. -/
def int? : Value → Option Int
  | int n => some n
  | _ => none

/-- The double that stands for a number. -/
def number? : Value → Option Binary64
  | int n => some (Binary64.ofInt n)
  | float x => some x
  | _ => none

/-- The text of a text value. -/
def text? : Value → Option String
  | text s => some s
  | _ => none

/-- A value as the document that holds nothing else. -/
def document : Value → Document
  | null => .null
  | bool b => .bool b
  | int n => .int n
  | float x => .float x
  | text s => .text s

/-- The scalar that a document is, if it is one.  A whole number past the signed 64 bits becomes a
float. -/
def ofDocument? : Document → Option Value
  | .null => some null
  | .bool b => some (bool b)
  | .int n => some (if n < Document.signedLimit then int n else float (Binary64.ofInt n))
  | .float x => some (float x)
  | .text s => some (text s)
  | .array _ => none
  | .object _ => none

/-! ## Comparison -/

/-- The comparison of filters: values of one kind compare, and numbers compare across integer and
float. -/
def compare? : Value → Value → Option Ordering
  | null, null => some .eq
  | bool a, bool b => some (compare a b)
  | int a, int b => some (compare a b)
  | text a, text b => some (compare a b)
  | a, b =>
    match a.number?, b.number? with
    | some x, some y => x.compare? y
    | _, _ => none

/-- Equality under `compare?`; a NaN equals nothing. -/
def equals (a b : Value) : Bool :=
  a.compare? b == some .eq

/-- Kinds in their order: null, booleans, numbers, texts. -/
def kindRank : Value → Nat
  | null => 0
  | bool _ => 1
  | int _ => 2
  | float _ => 2
  | text _ => 3

/-- The order of sorting: by kind, then within the kind, a number against a float in the total order
of doubles with both zeros alike. -/
def rankCompare (a b : Value) : Ordering :=
  match compare a.kindRank b.kindRank with
  | .eq =>
    match a, b with
    | bool x, bool y => compare x y
    | int x, int y => compare x y
    | text x, text y => compare x y
    | a, b =>
      match a.number?, b.number? with
      | some x, some y => x.positiveZero.totalCompare y.positiveZero
      | _, _ => .eq
  | different => different

/-! ## Text -/

/-- How a value is shown: texts quoted, floats in plain notation. -/
def display : Value → String
  | null => "null"
  | bool true => "true"
  | bool false => "false"
  | int n => Text.integer n
  | float x => FloatFormat.plain.render x
  | text s => Text.quote s

end Value

end SlotStore
