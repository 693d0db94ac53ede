import SlotStore.Query.Plan
import SlotStore.Query.Rows
import SlotStore.Store.Entities

/-!
# Queries on a store

* `Store.query` : a query without stages;
* `Store.explain` : the plan of a query;
* `Store.rows` : the rows of a query, which is planned when it begins to run.
-/

namespace SlotStore.Store

variable {α : Type}

/-- A query without stages. -/
def query (s : Store) : Query α := ⟨[], s.config.materializeThreshold⟩

/-- The plan of a query and the keys it looks at. -/
def plan (s : Store) (q : Query α) : Except Error (Plan × List Key) := do
  s.waitReady
  return Plan.make s.toc s.indexes q

/-- The plan of a query. -/
def explain (s : Store) (q : Query α) : Except Error Plan := (·.1) <$> s.plan q

/-- The rows of a query. -/
def rows (s : Store) (c : Coding α) (q : Query α) : Except Error (Rows α) := do
  let (plan, keys) ← s.plan q
  let source := Rows.ofKeys (s.decode? c) plan.strategy.isEager keys
  return q.stages.foldl (fun rows stage => rows.apply (s.decode? c) c.document stage) source

/-- The row that a running query gives next. -/
def nextRow (s : Store) (c : Coding α) (rows : Rows α) : Option (Except Error α) × Rows α :=
  rows.next (s.decode? c)

/-- All rows of a query. -/
def allRows (s : Store) (c : Coding α) (q : Query α) : Except Error (List (Except Error α)) :=
  (fun rows => rows.all (s.decode? c)) <$> s.rows c q

/-- The entities that a query finds. -/
def toList (s : Store) (c : Coding α) (q : Query α) : Except Error (List α) :=
  (s.allRows c q).bind Rows.entities

/-- The first entity that a query finds. -/
def first (s : Store) (c : Coding α) (q : Query α) : Except Error (Option α) :=
  (fun rows => rows.first (s.decode? c)) =<< s.rows c { q with stages := q.stages ++ [.take 1] }

/-- The scalars at a path, nulls left out, of the entities that a query finds. -/
def scalars (s : Store) (c : Coding α) (q : Query α) (path : FieldPath) :
    Except Error (List Value) :=
  Rows.scalars c.document path <$> s.toList c q

end SlotStore.Store
