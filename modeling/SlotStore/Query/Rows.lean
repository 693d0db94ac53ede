import SlotStore.Error
import SlotStore.Query

/-!
# The rows of a running query

A running query holds the entities it has yet to look at and how far its stages have come.  An
entity is looked up and decoded when its turn comes, so what happens to the store between two rows
shows in the later ones.  A row that could not be decoded is an error that passes all filters.

* `Rows.next` : the next row;
* `Rows.all`, `Rows.toList` : all rows that are left;
* `Rows.apply` : one more stage, where an order takes in all rows at once;
* `Rows.first`, `Rows.all?`, `Rows.sum`, `Rows.extreme` : the ends of a query.

The function that gives the entity of a key, if it is still alive, is a parameter of them all.
-/

namespace SlotStore

namespace Rows

/-- What a query has yet to look at. -/
inductive Item (α : Type)
  /-- An entity to be decoded when its turn comes. -/
  | stored (key : Key)
  /-- An entity that is decoded already, or why it could not be. -/
  | ready (row : Except Error α)

/-- How far a stage has come. -/
inductive Step (α : Type)
  | keep (test : α → Bool)
  /-- Rows still to be dropped. -/
  | skip (n : Nat)
  /-- Rows still to be let through. -/
  | take (n : Nat)

variable {α : Type}

/-- The row of an item; none if the entity has vanished. -/
def Item.row? (decode : Key → Except Error (Option α)) : Item α → Option (Except Error α)
  | stored key =>
    match decode key with
    | .ok none => none
    | .ok (some x) => some (.ok x)
    | .error e => some (.error e)
  | ready row => some row

/-- Whether the stage lets nothing through any more. -/
def Step.isExhausted : Step α → Bool
  | take 0 => true
  | _ => false

/-- Whether a row passes the stage, and how far the stage has come after it. -/
def Step.feed (row : Except Error α) : Step α → Bool × Step α
  | keep test =>
    match row with
    | .ok x => (test x, keep test)
    | .error _ => (true, keep test)
  | skip 0 => (true, skip 0)
  | skip (n + 1) => (false, skip n)
  | take n => (true, take (n - 1))

/-- Whether a row passes stages one after another, and how far they have come after it. -/
def feed (row : Except Error α) : List (Step α) → Bool × List (Step α)
  | [] => (true, [])
  | step :: steps =>
    match step.feed row with
    | (false, step) => (false, step :: steps)
    | (true, step) =>
      let (passed, steps) := feed row steps
      (passed, step :: steps)

end Rows

/-- The rows that a running query has yet to give. -/
structure Rows (α : Type) where
  items : List (Rows.Item α)
  steps : List (Rows.Step α)

namespace Rows

variable {α : Type}

/-- The next row of some items, with what is left after it. -/
def nextOf (decode : Key → Except Error (Option α)) (steps : List (Step α)) :
    List (Item α) → Option (Except Error α) × Rows α
  | [] => (none, ⟨[], steps⟩)
  | item :: items =>
    if steps.any Step.isExhausted then (none, ⟨item :: items, steps⟩)
    else
      match item.row? decode with
      | none => nextOf decode steps items
      | some row =>
        match feed row steps with
        | (true, steps) => (some row, ⟨items, steps⟩)
        | (false, steps) => nextOf decode steps items

/-- The next row, and the rows after it. -/
def next (decode : Key → Except Error (Option α)) (rows : Rows α) :
    Option (Except Error α) × Rows α :=
  nextOf decode rows.steps rows.items

/-- All rows of some items. -/
def allOf (decode : Key → Except Error (Option α)) (steps : List (Step α)) :
    List (Item α) → List (Except Error α)
  | [] => []
  | item :: items =>
    if steps.any Step.isExhausted then []
    else
      match item.row? decode with
      | none => allOf decode steps items
      | some row =>
        match feed row steps with
        | (true, steps) => row :: allOf decode steps items
        | (false, steps) => allOf decode steps items

/-- All rows that are left. -/
def all (decode : Key → Except Error (Option α)) (rows : Rows α) : List (Except Error α) :=
  allOf decode rows.steps rows.items

/-- The entities of rows, or the first error among them. -/
def entities : List (Except Error α) → Except Error (List α)
  | [] => .ok []
  | .ok x :: rows => (entities rows).map (x :: ·)
  | .error e :: _ => .error e

/-- The entities that are left, or the first error among the rows. -/
def toList (decode : Key → Except Error (Option α)) (rows : Rows α) : Except Error (List α) :=
  entities (rows.all decode)

/-! ## Building -/

/-- Rows that are decoded already, or the one error that came instead. -/
def ofResult : Except Error (List α) → Rows α
  | .ok xs => ⟨xs.map fun x => .ready (.ok x), []⟩
  | .error e => ⟨[.ready (.error e)], []⟩

/-- The rows of some keys, decoded at once or each in its turn. -/
def ofKeys (decode : Key → Except Error (Option α)) (eager : Bool) (keys : List Key) : Rows α :=
  let rows : Rows α := ⟨keys.map .stored, []⟩
  if eager then ofResult (rows.toList decode) else rows

/-- One more step behind the others. -/
def push (rows : Rows α) (step : Step α) : Rows α := { rows with steps := rows.steps ++ [step] }

/-- One more stage. -/
def apply (decode : Key → Except Error (Option α)) (document : α → Document) (rows : Rows α) :
    Stage α → Rows α
  | .filter e => rows.push (.keep fun x => e.holds (document x))
  | .filterWith test => rows.push (.keep test)
  | .skip n => rows.push (.skip n)
  | .take n => rows.push (.take n)
  | order => ofResult ((rows.toList decode).map (order.eval document))

/-! ## Ends -/

/-- The first row, which has to be no error. -/
def first (decode : Key → Except Error (Option α)) (rows : Rows α) : Except Error (Option α) :=
  match (rows.next decode).1 with
  | none => .ok none
  | some row => row.map some

/-- Whether all of some rows pass a test, and how many were tested until that was decided. -/
def allPass (test : α → Bool) : List (Except Error α) → Except Error Bool × Nat
  | [] => (.ok true, 0)
  | .error e :: _ => (.error e, 0)
  | .ok x :: rows =>
    if test x then
      let (result, n) := allPass test rows
      (result, n + 1)
    else (.ok false, 1)

/-- The scalars of entities at a path, without nulls. -/
def scalars (document : α → Document) (path : FieldPath) (xs : List α) : List Value :=
  (xs.filterMap fun x => path.value? (document x)).filter fun v => !v.isNull

/-- The sum of scalars, where those that are no numbers count as zero. -/
def sum (values : List Value) : Binary64 :=
  values.foldl (fun acc v => acc.add (v.number?.getD .zero)) .zero

/-- The first of the scalars that stand in the wanted order to all before them. -/
def extreme (wanted : Ordering) (values : List Value) : Option Value :=
  values.foldl (fun current v =>
    match current with
    | none => some v
    | some c => if v.rankCompare c == wanted then some v else some c) none

end Rows

end SlotStore
