import SlotStore.FieldPath
import SlotStore.Key
import SlotStore.Keyed
import SlotStore.Sorting

/-!
# Field indexes

A field index answers which entities have a given scalar at one of its paths.  It keeps a column for
each path: the pairs of value and key in the order of values, and of keys among equal values.  An
entity without a scalar at a path has null there.

* `FieldIndex.upsert`, `FieldIndex.remove`, `FieldIndex.clear` : keeping the index up to date;
* `FieldIndex.lookup` : the keys of a value.
-/

namespace SlotStore

namespace FieldIndex

/-- An entity in a column. -/
structure Cell where
  value : Value
  key : Key
deriving DecidableEq, Repr, Inhabited

/-- The order of a column. -/
def Cell.compare (a b : Cell) : Ordering := (a.value.rankCompare b.value).then (a.key.compare b.key)

/-- The cells of one path. -/
structure Column where
  path : FieldPath
  cells : List Cell
deriving DecidableEq, Repr, Inhabited

namespace Column

/-- Where a cell is or belongs. -/
def position (c : Column) (cell : Cell) : Bool × Nat :=
  Sorting.search (fun existing => existing.compare cell) c.cells

def insert (cell : Cell) (c : Column) : Column :=
  { c with cells := c.cells.insertIdx (c.position cell).2 cell }

def remove (cell : Cell) (c : Column) : Column :=
  match c.position cell with
  | (true, i) => { c with cells := c.cells.eraseIdx i }
  | (false, _) => c

/-- The keys of the cells whose value ranks equal to the given one. -/
def keysOf (value : Value) (c : Column) : List Key :=
  let start := Sorting.partitionPoint (fun cell => cell.value.rankCompare value == .lt) c.cells
  let stop := Sorting.partitionPoint (fun cell => cell.value.rankCompare value != .gt) c.cells
  ((c.cells.take stop).drop start).map (·.key)

end Column

/-- An entity with its values in the order of the columns. -/
structure Row where
  key : Key
  values : List Value
deriving DecidableEq, Repr, Inhabited

end FieldIndex

/-- A field index. -/
structure FieldIndex where
  columns : List FieldIndex.Column
  /-- The values each entity was put in with. -/
  rows : Keyed FieldIndex.Row.key

namespace FieldIndex

/-- An index over some paths, without entities. -/
def ofPaths (paths : List FieldPath) : FieldIndex := ⟨paths.map fun p => ⟨p, []⟩, .empty⟩

/-- The paths that the index answers for. -/
def paths (x : FieldIndex) : List FieldPath := x.columns.map (·.path)

def covers (x : FieldIndex) (path : FieldPath) : Bool := x.paths.contains path

/-- The number of entities. -/
def size (x : FieldIndex) : Nat := x.rows.size

/-- Takes an entity out. -/
def remove (key : Key) (x : FieldIndex) : FieldIndex :=
  match x.rows.get? key with
  | none => x
  | some row =>
    { columns := List.zipWith (fun c v => c.remove ⟨v, key⟩) x.columns row.values
      rows := x.rows.erase key }

/-- Puts an entity in with the scalars of its document, in place of what was there. -/
def upsert (key : Key) (doc : Document) (x : FieldIndex) : FieldIndex :=
  let values := x.paths.map fun p => p.valueOrNull doc
  let x := x.remove key
  { columns := List.zipWith (fun c v => c.insert ⟨v, key⟩) x.columns values
    rows := x.rows.put ⟨key, values⟩ }

/-- Takes all entities out. -/
def clear (x : FieldIndex) : FieldIndex := .ofPaths x.paths

/-- The keys whose value at a path ranks equal to the given one, in the order of keys within each
value; none for a path that is not covered. -/
def lookup (path : FieldPath) (value : Value) (x : FieldIndex) : List Key :=
  match x.columns.find? (·.path = path) with
  | none => []
  | some c => c.keysOf value

end FieldIndex

end SlotStore
