import Mathlib.Tactic.Common
import SlotStore.Query.Rows

/-!
# What a running query gives

The rows of a running query are what its stages make of the entities of its source, one stage after
another, whether the source is decoded at once or row by row.

* `Rows.Step.through`, `Rows.allOf_push` : what a step makes of rows;
* `Rows.all_apply`, `Rows.all_foldl` : what stages make of entities;
* `Rows.all_ofKeys` : the source.
-/

namespace SlotStore.Rows

variable {α : Type} {decode : Key → Except Error (Option α)} {document : α → Document}
  {rows : Rows α} {xs : List α} {stage : Stage α}

/-! ## Steps -/

/-- Whether a row passes a test; errors do. -/
def passes (test : α → Bool) : Except Error α → Bool
  | .ok x => test x
  | .error _ => true

/-- What a step makes of rows. -/
def Step.through : Step α → List (Except Error α) → List (Except Error α)
  | keep test, rows => rows.filter (passes test)
  | skip n, rows => rows.drop n
  | take n, rows => rows.take n

lemma Step.through_nil (step : Step α) : step.through [] = [] := by
  cases step with
  | keep test => rfl
  | skip n => exact List.drop_nil
  | take n => exact List.take_nil

/-- A step that is exhausted lets no row through. -/
lemma Step.through_exhausted {step : Step α} (h : step.isExhausted = true)
    (rows : List (Except Error α)) : step.through rows = [] := by
  cases step with
  | keep test => cases h
  | skip n => cases h
  | take n =>
    cases n with
    | zero => rfl
    | succ n => cases h

/-- A step looks at the first row, and goes on as it has become. -/
lemma Step.through_cons {step : Step α} (h : ¬ step.isExhausted = true) (row : Except Error α)
    (rows : List (Except Error α)) :
    step.through (row :: rows) = match step.feed row with
      | (true, step) => row :: step.through rows
      | (false, step) => step.through rows := by
  cases step with
  | keep test =>
    rw [through, List.filter_cons]
    cases row with
    | ok x => cases htest : test x <;> simp [feed, passes, through, htest]
    | error e => rfl
  | skip n =>
    cases n with
    | zero => rfl
    | succ n => rfl
  | take n =>
    cases n with
    | zero => exact absurd rfl h
    | succ n => rfl

/-- **Stages behind others** are fed what those let through. -/
lemma feed_append (row : Except Error α) (steps later : List (Step α)) :
    feed row (steps ++ later) = match feed row steps with
      | (true, steps) => ((feed row later).1, steps ++ (feed row later).2)
      | (false, steps) => (false, steps ++ later) := by
  induction steps with
  | nil => rfl
  | cons first steps ih =>
    simp only [List.cons_append, feed]
    rcases first.feed row with ⟨_ | _, first⟩
    · rfl
    · simp only [ih]
      rcases feed row steps with ⟨_ | _, steps⟩ <;> rfl

lemma feed_singleton (row : Except Error α) (step : Step α) :
    feed row [step] = ((step.feed row).1, [(step.feed row).2]) := by
  simp only [feed]
  rcases step.feed row with ⟨_ | _, _⟩ <;> rfl

/-- **A step behind the others** works on what they let through. -/
theorem allOf_push (items : List (Item α)) (steps : List (Step α)) (step : Step α) :
    allOf decode (steps ++ [step]) items = step.through (allOf decode steps items) := by
  -- The steps change from row to row, so the induction is on the items for any steps.
  induction items generalizing steps step with
  | nil => exact step.through_nil.symm
  | cons item items ih =>
    rw [allOf, allOf, List.any_append, List.any_cons, List.any_nil, Bool.or_false]
    by_cases hsteps : steps.any Step.isExhausted = true
    · rw [hsteps, Bool.true_or, if_pos rfl, if_pos rfl, step.through_nil]
    · rw [Bool.eq_false_iff.mpr hsteps, Bool.false_or, if_neg Bool.false_ne_true]
      by_cases hstep : step.isExhausted = true
      · rw [if_pos hstep, step.through_exhausted hstep]
      · rw [if_neg hstep]
        cases item.row? decode with
        | none => exact ih steps step
        | some row =>
          dsimp only
          rw [feed_append, feed_singleton]
          rcases feed row steps with ⟨_ | _, steps'⟩
          · exact ih steps' step
          · dsimp only
            rw [step.through_cons hstep]
            rcases step.feed row with ⟨_ | _, step'⟩
            · exact ih steps' step'
            · exact congrArg (row :: ·) (ih steps' step')

/-! ## Stages -/

/-- The rows of entities. -/
def given (xs : List α) : List (Except Error α) := xs.map .ok

/-- Rows that were given are entities. -/
lemma entities_given (xs : List α) : entities (given xs) = .ok xs := by
  induction xs with
  | nil => rfl
  | cons x xs ih =>
    rw [given, List.map_cons, entities]
    exact congrArg (Except.map (x :: ·)) ih

/-- Rows from a result are given as they are. -/
lemma all_ofResult (xs : List α) : (ofResult (.ok xs)).all decode = given xs := by
  rw [ofResult, all]
  induction xs with
  | nil => rfl
  | cons x xs ih => exact congrArg (Except.ok x :: ·) ih

/-- **One stage** of a running query. -/
theorem all_apply (h : rows.all decode = given xs) (stage : Stage α) :
    (rows.apply decode document stage).all decode = given (stage.eval document xs) := by
  have hpush : ∀ step : Step α, (rows.push step).all decode = step.through (given xs) :=
    fun step => (allOf_push _ _ step).trans (congrArg step.through h)
  have hlist : rows.toList decode = .ok xs := (congrArg entities h).trans (entities_given xs)
  have horder : (ofResult ((rows.toList decode).map (stage.eval document))).all decode =
      given (stage.eval document xs) := by
    rw [hlist]
    exact all_ofResult _
  cases stage with
  | filter e => exact (hpush _).trans List.filter_map
  | filterWith test => exact (hpush _).trans List.filter_map
  | orderBy path descending => exact horder
  | orderWith cmp => exact horder
  | skip n => exact (hpush _).trans List.map_drop.symm
  | take n => exact (hpush _).trans List.map_take.symm

/-- **All stages** of a running query. -/
theorem all_foldl (h : rows.all decode = given xs) (stages : List (Stage α)) :
    (stages.foldl (fun rows stage => rows.apply decode document stage) rows).all decode =
      given (stages.foldl (fun xs stage => stage.eval document xs) xs) := by
  induction stages generalizing rows xs with
  | nil => exact h
  | cons stage stages ih => exact ih (all_apply h stage)

/-! ## Sources -/

/-- **The rows of some keys** that can all be decoded, or have no entity. -/
theorem all_ofKeys {live : Key → Option α} {keys : List Key}
    (h : ∀ k ∈ keys, decode k = .ok (live k)) (eager : Bool) :
    (ofKeys decode eager keys).all decode = given (keys.filterMap live) := by
  have hlazy : (⟨keys.map .stored, []⟩ : Rows α).all decode = given (keys.filterMap live) := by
    show allOf decode [] (keys.map .stored) = _
    induction keys with
    | nil => rfl
    | cons k keys ih =>
      obtain ⟨hk, hkeys⟩ := List.forall_mem_cons.mp h
      rw [List.map_cons, allOf, List.any_nil, if_neg Bool.false_ne_true, Item.row?, hk]
      cases hlive : live k with
      | none => rw [List.filterMap_cons_none hlive]; exact ih hkeys
      | some x =>
        rw [List.filterMap_cons_some hlive]
        exact congrArg (Except.ok x :: ·) (ih hkeys)
  cases eager with
  | false => exact hlazy
  | true =>
    rw [ofKeys, if_pos rfl, toList, hlazy, entities_given]
    exact all_ofResult _

end SlotStore.Rows
