import SlotStore.FieldIndex
import SlotStore.Query
import SlotStore.Toc

/-!
# Planning a query

The entities a query looks at come from an index that covers one of its equalities, or else from
the whole table of contents.  Either way they come in the order of the file, and every filter is
still applied to them.

* `Plan.equalities` : the equalities that may narrow the source;
* `Plan.make` : the plan of a query, and the keys to look at.
-/

namespace SlotStore

/-- Where the entities of a query come from. -/
inductive Strategy
  /-- The keys an index gives for a value at a path, as many as are alive. -/
  | indexed (path : FieldPath) (value : Value) (candidates : Nat)
  /-- All live entities, decoded at once. -/
  | materialized (entries : Nat)
  /-- All live entities, decoded one by one. -/
  | streaming (entries : Nat)
deriving DecidableEq, Repr

/-- The plan of a query. -/
structure Plan where
  strategy : Strategy
  /-- The equalities that an index might answer. -/
  equalities : List (FieldPath × Value)
  operators : List String
deriving DecidableEq, Repr

namespace Strategy

/-- How a strategy is shown. -/
def display : Strategy → String
  | indexed path value n =>
    "indexed(" ++ path.text ++ " == " ++ value.display ++ ", " ++ Text.natural n ++ " candidates)"
  | materialized n => "materialized(" ++ Text.natural n ++ " entries)"
  | streaming n => "streaming(" ++ Text.natural n ++ " entries)"

/-- Whether the source is decoded at once. -/
def isEager : Strategy → Bool
  | materialized _ => true
  | _ => false

end Strategy

namespace Plan

variable {α : Type}

/-- How a plan is shown. -/
def display (p : Plan) : String :=
  p.operators.foldl (fun s op => s ++ " -> " ++ op) p.strategy.display

/-- The equalities of the filters before the first cut; later filters see fewer entities than the
source has. -/
def equalitiesOf : List (Stage α) → List (FieldPath × Value)
  | [] => []
  | .filter e :: stages => e.equalities ++ equalitiesOf stages
  | .skip _ :: _ => []
  | .take _ :: _ => []
  | _ :: stages => equalitiesOf stages

/-- The first equality that some index covers, with the keys which the first such index gives. -/
def covered (indexes : List FieldIndex) (equalities : List (FieldPath × Value)) :
    Option (FieldPath × Value × List Key) :=
  equalities.findSome? fun (path, value) =>
    (indexes.find? (·.covers path)).map fun x => (path, value, x.lookup path value)

/-- The live entries of some keys in the order of the file. -/
def liveEntries (toc : Toc) (keys : List Key) : List Entry :=
  Toc.byOffset ((keys.eraseDups.filterMap toc.find?).filter fun e => !e.isFree)

/-- The plan of a query over the entities of a table, and their keys in the order of the file. -/
def make (toc : Toc) (indexes : List FieldIndex) (q : Query α) : Plan × List Key :=
  let equalities := equalitiesOf q.stages
  let operators := q.stages.map Stage.display
  match covered indexes equalities with
  | some (path, value, found) =>
    let entries := liveEntries toc found
    (⟨.indexed path value entries.length, equalities, operators⟩, entries.map (·.key))
  | none =>
    let keys := toc.activeEntries.map (·.key)
    let n := keys.length
    let strategy := if n ≤ q.threshold then Strategy.materialized n else .streaming n
    (⟨strategy, equalities, operators⟩, keys)

end Plan

end SlotStore
