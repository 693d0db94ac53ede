import Mathlib.Tactic.Common
import SlotStore.Proofs.Query.Errors
import SlotStore.Proofs.Query.Narrow
import SlotStore.Proofs.Store.Life
import SlotStore.Store.Queries

/-!
# Queries that hide errors

A query that takes in all rows and gives a result has decoded each entity that it looked at, unless
one of its stages hides an error: a skip that drops it, or a skip or a cut to nothing behind rows
that were taken in before the end and came to one error.  Nothing is assumed of the store, whose
file may hold anything.

* `Store.count`, `Store.select` : the ends of a query that take in all rows, besides `Store.toList`;
* `Store.lookedAt` : the rows that a query looks at;
* `Store.Hides`, `Store.hides_iff` : when a query hides an error;
* `Store.Done`, `Store.decoded_unless_hidden` : what a result tells of the rows.
-/

namespace SlotStore

namespace Rows

variable {α β : Type}

/-- The number of rows, none of which may be an error. -/
def count : List (Except Error α) → Except Error Nat
  | [] => .ok 0
  | .ok _ :: rows => (count rows).map (· + 1)
  | .error e :: _ => .error e

/-- What a function makes of rows, none of which may be an error. -/
def select (f : α → β) (rows : List (Except Error α)) : Except Error (List β) :=
  entities (rows.map fun row => row.map f)

/-- A count fails as the list of rows does. -/
lemma count_eq (rows : List (Except Error α)) : count rows = (entities rows).map List.length := by
  induction rows with
  | nil => rfl
  | cons row rows ih =>
    cases row with
    | error e => rfl
    | ok x =>
      rw [count, entities, ih]
      cases entities rows <;> rfl

/-- A selection fails as the list of rows does. -/
lemma select_eq (f : α → β) (rows : List (Except Error α)) :
    select f rows = (entities rows).map (List.map f) := by
  induction rows with
  | nil => rfl
  | cons row rows ih =>
    cases row with
    | error e => rfl
    | ok x =>
      have hstep : select f (.ok x :: rows) = (select f rows).map (f x :: ·) := rfl
      rw [hstep, entities, ih]
      cases entities rows <;> rfl

end Rows

namespace Store

variable {α β : Type} {s : Store} {c : Coding α} {q : Query α} {xs : List α}
  {looked : List (Except Error α)}

/-! ## Ends that take in all rows -/

/-- The number of entities that a query finds. -/
def count (s : Store) (c : Coding α) (q : Query α) : Except Error Nat :=
  (s.allRows c q).bind Rows.count

/-- What a function makes of the entities that a query finds. -/
def select (s : Store) (c : Coding α) (f : α → β) (q : Query α) : Except Error (List β) :=
  (s.allRows c q).bind (Rows.select f)

/-- **A query that takes in all rows gives a result**: entities, their number, or what a function
makes of them. -/
inductive Done (s : Store) (c : Coding α) (q : Query α) : Prop
  | listed {xs : List α} (h : s.toList c q = .ok xs)
  | counted {n : Nat} (h : s.count c q = .ok n)
  | selected {β : Type} {f : α → β} {ys : List β} (h : s.select c f q = .ok ys)

/-- It makes no difference which of these ends a query has. -/
lemma Done.toList (h : s.Done c q) : ∃ xs, s.toList c q = .ok xs := by
  have hall : ∀ {γ : Type} {g : List α → γ} {y : γ},
      (s.allRows c q).bind (fun rows => (Rows.entities rows).map g) = .ok y →
        ∃ xs, s.toList c q = .ok xs := by
    intro γ g y hy
    rw [Store.toList]
    cases hrows : s.allRows c q with
    | error e =>
      rw [hrows] at hy
      cases hy
    | ok rows =>
      rw [hrows] at hy
      cases hentities : Rows.entities rows with
      | ok xs => exact ⟨xs, hentities⟩
      | error e =>
        rw [Except.bind, hentities] at hy
        cases hy
  cases h with
  | listed h => exact ⟨_, h⟩
  | counted h =>
    rw [count, funext Rows.count_eq] at h
    exact hall h
  | @selected β f ys h =>
    rw [select, funext (Rows.select_eq f)] at h
    exact hall h

/-! ## What a query looks at and hides -/

/-- The rows of keys that are decoded when their turn comes. -/
def source (keys : List Key) : Rows α := ⟨keys.map .stored, []⟩

/-- A source that is decoded at once is taken in as a whole. -/
lemma ofKeys_eager (decode : Key → Except Error (Option α)) (keys : List Key) :
    Rows.ofKeys decode true keys = .ofResult (((source keys).toList decode).map id) := by
  rw [Rows.ofKeys, if_pos rfl]
  show Rows.ofResult ((source keys).toList decode) = _
  cases (source keys).toList decode <;> rfl

/-- The rows that a query looks at: those of a source that is decoded at once, and those that its
stages and its end look at. -/
def lookedAt (s : Store) (c : Coding α) (q : Query α) : Except Error (List (Except Error α)) := do
  let (plan, keys) ← s.plan q
  let eager := plan.strategy.isEager
  return (if eager then (source keys).pulled (s.decode? c) else []) ++
    Rows.lookedAt (s.decode? c) c.document q.stages (Rows.ofKeys (s.decode? c) eager keys)

/-- **A query hides an error**: its source is decoded at once and comes to an error, which a stage
loses, or its source is decoded row by row, and the stages hide an error. -/
inductive Hides (s : Store) (c : Coding α) (q : Query α) : Prop
  | atOnce {plan : Plan} {keys : List Key} {e : Error} (planned : s.plan q = .ok (plan, keys))
      (isEager : plan.strategy.isEager = true)
      (comes : (source keys).toList (s.decode? c) = .error e)
      (loses : ∃ stage ∈ q.stages, stage.loses = true)
  | inTurn {plan : Plan} {keys : List Key} (planned : s.plan q = .ok (plan, keys))
      (isLazy : plan.strategy.isEager = false)
      (hides : Rows.Hides (s.decode? c) c.document q.stages (source keys))

/-- Only a skip or a cut to nothing hides an error. -/
lemma Hides.exists_loses (h : s.Hides c q) : ∃ stage ∈ q.stages, stage.loses = true := by
  cases h with
  | atOnce _ _ _ loses => exact loses
  | inTurn _ _ hides => exact hides.exists_loses fun _ hmem => by cases hmem

/-- **A query that gives entities** has looked at an error exactly if it hides one. -/
theorem hides_iff (h : s.toList c q = .ok xs) :
    ∃ looked, s.lookedAt c q = .ok looked ∧ ((∃ e, .error e ∈ looked) ↔ s.Hides c q) := by
  cases hplan : s.plan q with
  | error e =>
    rw [toList, allRows, rows, hplan] at h
    cases h
  | ok p =>
    obtain ⟨plan, keys⟩ := p
    have hrun : (Rows.run (s.decode? c) c.document q.stages (Rows.ofKeys (s.decode? c)
        plan.strategy.isEager keys)).toList (s.decode? c) = .ok xs := by
      rw [toList, allRows, rows, hplan] at h
      exact h
    refine ⟨_, by rw [lookedAt, hplan]; rfl, ?_⟩
    cases heager : plan.strategy.isEager with
    | false =>
      rw [heager] at hrun
      rw [if_neg Bool.false_ne_true, List.nil_append]
      refine (Rows.hides_iff hrun).trans ⟨.inTurn hplan heager, fun hhides => ?_⟩
      cases hhides with
      | atOnce planned isEager =>
        cases hplan.symm.trans planned
        cases heager.symm.trans isEager
      | inTurn planned _ hides =>
        cases hplan.symm.trans planned
        exact hides
    | true =>
      rw [heager, ofKeys_eager] at hrun
      rw [if_pos rfl, ofKeys_eager]
      refine (Rows.collected_iff hrun).trans ⟨?_, fun hhides => ?_⟩
      · rintro (⟨_, _, before, n, after, _, hnone, _⟩ | ⟨⟨e, comes⟩, loses⟩)
        · exact absurd hnone.symm (List.append_ne_nil_of_right_ne_nil _ (List.cons_ne_nil _ _))
        · exact .atOnce hplan heager comes loses
      · cases hhides with
        | atOnce planned _ comes loses =>
          cases hplan.symm.trans planned
          exact Or.inr ⟨⟨_, comes⟩, loses⟩
        | inTurn planned isLazy =>
          cases hplan.symm.trans planned
          cases heager.symm.trans isLazy

/-- **Every row that a query looked at was decoded** if the query gives a result and hides no error,
and only then.  It may hide one only if it skips rows or cuts them to nothing. -/
theorem decoded_unless_hidden {s : Store} {c : Coding α} {q : Query α} (hdone : s.Done c q) :
    ∃ looked, s.lookedAt c q = .ok looked ∧
      ((∀ row ∈ looked, ∃ x, row = .ok x) ↔ ¬ s.Hides c q) ∧
        (s.Hides c q → ∃ stage ∈ q.stages, stage.loses = true) := by
  obtain ⟨xs, hlist⟩ := hdone.toList
  obtain ⟨looked, hlooked, hiff⟩ := hides_iff hlist
  refine ⟨looked, hlooked, ?_, Hides.exists_loses⟩
  rw [← hiff]
  constructor
  · rintro hall ⟨e, he⟩
    obtain ⟨x, hx⟩ := hall _ he
    cases hx
  · intro hnone row hrow
    cases row with
    | ok x => exact ⟨x, rfl⟩
    | error e => exact absurd ⟨e, hrow⟩ hnone

end Store

/-! ## A damaged payload that is not looked at -/

namespace Spared

/-- A store with entities of a byte each, the last one first. -/
def added : List UInt8 → Store
  | [] => Store.fresh
  | b :: bs => ((added bs).perform .plain (.add (.filled b) [b])).2

lemma life_added (bs : List UInt8) : Life .plain (added bs) := by
  induction bs with
  | nil => exact .opened Store.openFile_fresh
  | cons b bs ih => exact ih.performed _

/-- Four entities, and the payload of the last one was overwritten. -/
def store : Store :=
  { (added [4, 3, 2, 1]).setContent ((added [4, 3, 2, 1]).file.content.write 147 [9]) with
    shadow := .absent }

/-- The keys of the entities. -/
def keys : List Key := [.filled 1, .filled 2, .filled 3, .filled 4]

/-- The entity with the greater byte comes first. -/
def falling (x y : Bytes) : Ordering := compare (y.headD 0) (x.headD 0)

/-- Of the first three entities, all but the second in falling order, without the first of these. -/
def query : Query Bytes :=
  ⟨[.take 3, .filterWith (· ≠ [2]), .orderWith falling, .skip 1], 0⟩

/-- The query takes one entity after the other. -/
lemma plan_eq : store.plan query =
    .ok (⟨.streaming 4, [], query.stages.map Stage.display⟩, keys) := by
  have hkeys : store.toc.activeEntries.map (·.key) = keys := by
    rw [Toc.activeEntries_eq_reverse (t := store.toc) (by decide +kernel)]
    decide +kernel
  exact congrArg Except.ok (Plan.make_streaming (q := query) hkeys (by decide))

/-- The rows that are sorted. -/
def unsorted : Rows Bytes := ⟨keys.map .stored, [.take 3, .keep (· ≠ [2])]⟩

/-- The rows after the query has begun. -/
def sorted : Rows Bytes := (Rows.ofResult (.ok [[3], [1]])).push (.skip 1)

/-- The sort turns the two rows around. -/
lemma apply_falling : unsorted.apply (store.decode? .plain) Coding.plain.document
    (.orderWith falling) = .ofResult (.ok [[3], [1]]) := by
  have hlist : unsorted.toList (store.decode? .plain) = .ok [[1], [3]] := by decide +kernel
  have hmerge : ([[1], [3]].mergeSort fun x y => falling x y != .gt) = [[3], [1]] := by
    simp [List.mergeSort, show falling [1] [3] = .gt by decide]
  have hsort : Sorting.stableSort falling [[1], [3]] = [[3], [1]] := by
    rw [Sorting.stableSort, hmerge]
    decide
  rw [Rows.apply_order rfl, hlist]
  exact congrArg (fun xs => Rows.ofResult (.ok xs)) hsort

end Spared

/-- Three entities are decoded, one of them is kept out by a filter, and two are sorted and looked
at again by a skip.  All of them are sound.  The damaged one is behind the end of the query. -/
theorem Store.decoded_unless_hidden_sorted : ∃ s q, Life .plain s ∧
    s.decode? .plain (.filled 4) = .error (.corruption 111 .checksumMismatch) ∧
    s.Done .plain q ∧ s.toList .plain q = .ok [[1]] ∧
    s.lookedAt .plain q = .ok [.ok [1], .ok [2], .ok [3], .ok [3], .ok [1]] ∧
    ¬ s.Hides .plain q := by
  have hlist : Spared.store.toList .plain Spared.query = .ok [[1]] := by
    have hrows : Spared.store.rows .plain Spared.query = .ok Spared.sorted := by
      rw [Store.rows, Spared.plan_eq]
      exact congrArg (fun rows => Except.ok (rows.push (.skip 1))) Spared.apply_falling
    rw [Store.toList, Store.allRows, hrows]
    rfl
  have hlooked : Spared.store.lookedAt .plain Spared.query =
      .ok [.ok [1], .ok [2], .ok [3], .ok [3], .ok [1]] := by
    have hpulled : Spared.unsorted.pulled (Spared.store.decode? .plain) =
      [.ok [1], .ok [2], .ok [3]] := by decide +kernel
    rw [Store.lookedAt, Spared.plan_eq]
    refine congrArg Except.ok (congrArg₂ (· ++ ·) hpulled ?_)
    exact congrArg (fun rows => (Rows.push rows (.skip 1)).pulled (Spared.store.decode? .plain))
      Spared.apply_falling
  have hdone : Spared.store.Done .plain Spared.query := .listed hlist
  obtain ⟨looked, hlooked', hiff, _⟩ := Store.decoded_unless_hidden hdone
  cases hlooked'.symm.trans hlooked
  exact ⟨_, _, .altered (Spared.life_added _) _ _, by decide +kernel, hdone, hlist, hlooked,
    hiff.mp (by simp)⟩

/-! ## A damaged payload -/

namespace Garbled

/-- A store with one entity. -/
def before : Store := (Store.fresh.perform .plain (.add .sample [7])).2

/-- The same store after the payload was overwritten. -/
def store : Store :=
  { before.setContent (before.file.content.write 36 [9]) with shadow := .absent }

lemma life : Life .plain store :=
  .altered (.performed (.opened Store.openFile_fresh) (.add .sample [7])) _ _

/-- Why the entity is not decoded. -/
def damage : Error := .corruption 0 .checksumMismatch

end Garbled

/-- **A query that skips the damaged entity** gives a result, whether its source is decoded at once
or row by row, although it has looked at the error. -/
theorem Life.error_hidden : ∃ s, Life .plain s ∧ ∀ threshold ∈ [0, 1], ∃ looked e,
    s.toList .plain ⟨[.skip 1], threshold⟩ = .ok [] ∧
      s.lookedAt .plain ⟨[.skip 1], threshold⟩ = .ok looked ∧ .error e ∈ looked := by
  refine ⟨Garbled.store, Garbled.life, fun threshold hthreshold => ?_⟩
  have hrow : (.error Garbled.damage : Except Error Bytes) ∈ [.error Garbled.damage] :=
    List.mem_singleton_self _
  have hrows : (.error Garbled.damage : Except Error Bytes) ∈
      [.error Garbled.damage, .error Garbled.damage] := List.mem_cons_self
  rcases List.mem_cons.mp hthreshold with rfl | hthreshold
  · exact ⟨_, _, by decide +kernel, by decide +kernel, hrow⟩
  · cases List.mem_singleton.mp hthreshold
    exact ⟨_, _, by decide +kernel, by decide +kernel, hrows⟩

end SlotStore
