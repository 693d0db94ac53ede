import SlotStore.FieldPath

/-!
# Filter expressions

Expressions over the scalars of a document.  A field without a scalar counts as null, and only the
boolean true counts as true.

* `Expr.eval`, `Expr.holds` : the value of an expression for a document, and whether it is true;
* `Expr.equalities` : fields that an expression forces to equal a literal;
* `Expr.text` : how an expression is shown.
-/

namespace SlotStore

/-- A comparison of two scalars. -/
inductive Comparison
  | eq
  | ne
  | lt
  | le
  | gt
  | ge
deriving DecidableEq, Repr, Inhabited

namespace Comparison

/-- Whether the comparison holds of scalars that stand in an order, or in none. -/
def holds : Comparison → Option Ordering → Bool
  | eq, o => o == some .eq
  | ne, o => o != some .eq
  | lt, o => o == some .lt
  | le, o => o == some .lt || o == some .eq
  | gt, o => o == some .gt
  | ge, o => o == some .gt || o == some .eq

def symbol : Comparison → String
  | eq => "=="
  | ne => "!="
  | lt => "<"
  | le => "<="
  | gt => ">"
  | ge => ">="

end Comparison

/-- An expression over the fields of a document. -/
inductive Expr
  | field (path : FieldPath)
  | literal (value : Value)
  | compare (op : Comparison) (left right : Expr)
  | and (left right : Expr)
  | or (left right : Expr)
  | not (inner : Expr)
deriving DecidableEq, Repr, Inhabited

namespace Expr

/-- Whether a value counts as true. -/
def isTrue (v : Value) : Bool := v = .bool true

/-- The value of an expression for a document. -/
def eval (doc : Document) : Expr → Value
  | field path => path.valueOrNull doc
  | literal value => value
  | compare op left right => .bool (op.holds ((left.eval doc).compare? (right.eval doc)))
  | and left right => .bool (isTrue (left.eval doc) && isTrue (right.eval doc))
  | or left right => .bool (isTrue (left.eval doc) || isTrue (right.eval doc))
  | not inner => .bool (!isTrue (inner.eval doc))

/-- Whether an expression is true of a document. -/
def holds (e : Expr) (doc : Document) : Bool := isTrue (e.eval doc)

/-- The fields that must equal a literal wherever the expression is true, as far as conjunctions of
plain comparisons tell. -/
def equalities : Expr → List (FieldPath × Value)
  | compare .eq (field path) (literal value) => [(path, value)]
  | compare .eq (literal value) (field path) => [(path, value)]
  | and left right => left.equalities ++ right.equalities
  | _ => []

/-- Equality of expressions, where literals are equal as values: a NaN equals nothing. -/
def equals : Expr → Expr → Bool
  | field p, field q => p == q
  | literal v, literal w => v.equals w
  | compare o a b, compare o' a' b' => o == o' && a.equals a' && b.equals b'
  | and a b, and a' b' => a.equals a' && b.equals b'
  | or a b, or a' b' => a.equals a' && b.equals b'
  | not a, not a' => a.equals a'
  | _, _ => false

/-- How an expression is shown.  Comparisons stand without brackets. -/
def text : Expr → String
  | field path => path.text
  | literal value => value.display
  | compare op left right => left.text ++ " " ++ op.symbol ++ " " ++ right.text
  | and left right => "(" ++ left.text ++ " && " ++ right.text ++ ")"
  | or left right => "(" ++ left.text ++ " || " ++ right.text ++ ")"
  | not inner => "!" ++ inner.text

end Expr

end SlotStore
