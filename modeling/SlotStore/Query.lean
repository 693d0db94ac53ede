import SlotStore.Query.Expr
import SlotStore.Sorting

/-!
# Queries

A query is a chain of stages over the entities of a store.

* `Stage` : filters, orders, and cuts at either end;
* `Query.display` : how a query is shown;
* `Stage.eval` : what a stage makes of a list of entities.
-/

namespace SlotStore

/-- A stage of a query over entities of one type. -/
inductive Stage (α : Type)
  | filter (e : Expr)
  /-- A filter that the planner knows nothing about. -/
  | filterWith (test : α → Bool)
  | orderBy (path : FieldPath) (descending : Bool)
  | orderWith (cmp : α → α → Ordering)
  | skip (n : Nat)
  | take (n : Nat)

/-- A chain of stages, and up to how many entities the source is decoded at once. -/
structure Query (α : Type) where
  stages : List (Stage α)
  threshold : Nat

namespace Stage

variable {α : Type}

/-- How a stage is shown. -/
def display : Stage α → String
  | filter e => "filter " ++ e.text
  | filterWith _ => "filter <fn>"
  | orderBy path false => "order_by " ++ path.text
  | orderBy path true => "order_by_desc " ++ path.text
  | orderWith _ => "order_by <fn>"
  | skip n => "skip " ++ Text.natural n
  | take n => "take " ++ Text.natural n

/-- The order of two values, or its reverse. -/
def valueOrder (descending : Bool) (a b : Value) : Ordering :=
  if descending then (a.rankCompare b).swap else a.rankCompare b

/-- Entities in the order of their scalars at a path. -/
def sortedBy (document : α → Document) (path : FieldPath) (descending : Bool) (xs : List α) :
    List α :=
  let pairs := xs.map fun x => (path.valueOrNull (document x), x)
  (Sorting.stableSort (fun a b => valueOrder descending a.1 b.1) pairs).map (·.2)

/-- What a stage makes of a list of entities. -/
def eval (document : α → Document) : Stage α → List α → List α
  | filter e => List.filter fun x => e.holds (document x)
  | filterWith test => List.filter test
  | orderBy path descending => sortedBy document path descending
  | orderWith cmp => Sorting.stableSort cmp
  | skip n => List.drop n
  | take n => List.take n

end Stage

namespace Query

variable {α : Type}

/-- How a query is shown. -/
def display (q : Query α) : String :=
  let stages := q.stages.map fun s => Text.quote s.display
  "Query \x7b stages: [" ++ String.intercalate ", " stages ++ "], threshold: " ++
    Text.natural q.threshold ++ " \x7d"

/-- What the stages make of a list of entities, one after another. -/
def eval (document : α → Document) (q : Query α) (xs : List α) : List α :=
  q.stages.foldl (fun xs s => s.eval document xs) xs

end Query

end SlotStore
