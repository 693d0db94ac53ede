import Mathlib.Tactic.Common
import SlotStore.Proofs.Query.Rows

/-!
# Errors among the rows of a query

Whoever takes in all rows of a running query looks at one item after another until it is given an
error.  An error that is looked at need not be given: a skip drops it like any other row.  And where
rows are taken in before the end, by an order or by a source that is decoded at once, the first
error among them comes instead of them all, and a later skip or a cut to nothing loses it.

* `Rows.pulled` : the rows that are looked at;
* `Rows.Drops`, `Rows.exists_error_pulled_iff` : a skip drops an error;
* `Rows.Calm` : rows that are no errors;
* `Rows.lookedAt`, `Rows.collected_iff` : chains of stages, and rows taken in before the end;
* `Rows.Hides`, `Rows.hides_iff` : chains of stages that hide an error;
* `Rows.Hides.exists_loses` : without skips and cuts to nothing no error is hidden.
-/

namespace SlotStore

namespace Stage

variable {α : Type}

/-- Whether a stage takes in all rows before it gives one. -/
def isOrder : Stage α → Bool
  | orderBy _ _ => true
  | orderWith _ => true
  | _ => false

/-- Whether a stage loses a row that comes alone. -/
def loses : Stage α → Bool
  | skip (_ + 1) => true
  | take 0 => true
  | _ => false

end Stage

namespace Rows

variable {α : Type} {decode : Key → Except Error (Option α)} {document : α → Document}
  {rows : Rows α} {item : Item α} {items : List (Item α)} {steps : List (Step α)}
  {stage : Stage α} {stages : List (Stage α)} {row : Except Error α} {xs : List α} {e : Error}

/-! ## Looking at rows -/

/-- The rows that are looked at by whoever takes in all rows of some items.  The first error that
passes the steps ends it. -/
def pulledOf (decode : Key → Except Error (Option α)) (steps : List (Step α)) :
    List (Item α) → List (Except Error α)
  | [] => []
  | item :: items =>
    if steps.any Step.isExhausted then []
    else
      match item.row? decode with
      | none => pulledOf decode steps items
      | some (.ok x) => .ok x :: pulledOf decode (feed (.ok x) steps).2 items
      | some (.error e) =>
        .error e :: if (feed (.error e) steps).1 then []
          else pulledOf decode (feed (.error e) steps).2 items

/-- The rows that are looked at by whoever takes in all rows. -/
def pulled (decode : Key → Except Error (Option α)) (rows : Rows α) : List (Except Error α) :=
  pulledOf decode rows.steps rows.items

/-- Where nothing is let through any more, no row is pulled. -/
lemma allOf_exhausted (h : steps.any Step.isExhausted = true) (items : List (Item α)) :
    allOf decode steps items = [] := by
  cases items with
  | nil => rfl
  | cons item items => rw [allOf, if_pos h]

/-- An item that vanished makes no row. -/
lemma allOf_cons_none (h : steps.any Step.isExhausted = false) (hrow : item.row? decode = none) :
    allOf decode steps (item :: items) = allOf decode steps items := by
  rw [allOf, h, if_neg Bool.false_ne_true, hrow]

/-- An item makes a row, which the steps let through or not. -/
lemma allOf_cons (h : steps.any Step.isExhausted = false) (hrow : item.row? decode = some row) :
    allOf decode steps (item :: items) =
      if (feed row steps).1 then row :: allOf decode (feed row steps).2 items
      else allOf decode (feed row steps).2 items := by
  rw [allOf, h, if_neg Bool.false_ne_true, hrow]
  dsimp only
  rcases feed row steps with ⟨_ | _, _⟩ <;> rfl

/-- A row that is looked at is that of an item. -/
lemma mem_pulledOf (h : row ∈ pulledOf decode steps items) :
    ∃ item ∈ items, item.row? decode = some row := by
  induction items generalizing steps with
  | nil => cases h
  | cons item items ih =>
    have hrest : ∀ {steps}, row ∈ pulledOf decode steps items →
        ∃ item' ∈ item :: items, item'.row? decode = some row := fun hmem => by
      obtain ⟨item', hitem, hrow⟩ := ih hmem
      exact ⟨item', List.mem_cons_of_mem _ hitem, hrow⟩
    rw [pulledOf] at h
    split at h
    · cases h
    · split at h
      · exact hrest h
      · rename_i x hrow
        rcases List.mem_cons.mp h with rfl | h
        · exact ⟨item, List.mem_cons_self, hrow⟩
        · exact hrest h
      · rename_i e hrow
        rcases List.mem_cons.mp h with rfl | h
        · exact ⟨item, List.mem_cons_self, hrow⟩
        · split at h
          · cases h
          · exact hrest h

/-- **An error that is given was looked at.** -/
lemma mem_pulledOf_of_error (h : entities (allOf decode steps items) = .error e) :
    .error e ∈ pulledOf decode steps items := by
  induction items generalizing steps with
  | nil => cases h
  | cons item items ih =>
    cases hexhausted : steps.any Step.isExhausted with
    | true =>
      rw [allOf_exhausted hexhausted] at h
      cases h
    | false =>
      rw [pulledOf, hexhausted, if_neg Bool.false_ne_true]
      cases hrow : item.row? decode with
      | none =>
        rw [allOf_cons_none hexhausted hrow] at h
        exact ih h
      | some row =>
        rw [allOf_cons hexhausted hrow] at h
        cases row with
        | ok x =>
          refine List.mem_cons_of_mem _ (ih ?_)
          split at h
          · cases hrest : entities (allOf decode (feed (.ok x) steps).2 items) with
            | ok ys =>
              rw [entities, hrest] at h
              cases h
            | error e' =>
              rw [entities, hrest] at h
              cases h
              rfl
          · exact h
        | error e' =>
          dsimp only
          split at h
          · cases h
            exact List.mem_cons_self
          · rename_i hpassed
            rw [if_neg hpassed]
            exact List.mem_cons_of_mem _ (ih h)

/-! ## Skips that drop an error -/

/-- **A skip drops an error**: an error is among the rows that the steps before the skip let through
and that are still to be dropped.  Where nothing is let through any more, nothing is looked at. -/
def Drops (decode : Key → Except Error (Option α)) (steps : List (Step α)) (items : List (Item α)) :
    Prop :=
  steps.any Step.isExhausted = false ∧ ∃ before n after e, steps = before ++ .skip n :: after ∧
    .error e ∈ (allOf decode before items).take n

lemma not_exhausted_append {before after : List (Step α)} :
    (before ++ after).any Step.isExhausted = false ↔
      before.any Step.isExhausted = false ∧ after.any Step.isExhausted = false := by
  rw [List.any_append, Bool.or_eq_false_iff]

lemma not_exhausted_skip {n : Nat} {after : List (Step α)} :
    (.skip n :: after).any Step.isExhausted = after.any Step.isExhausted := rfl

lemma not_exhausted_of_mem {n : Nat} (h : row ∈ (allOf decode steps items).take n) :
    steps.any Step.isExhausted = false := by
  by_contra hout
  rw [allOf_exhausted (Bool.not_eq_false _ ▸ hout), List.take_nil] at h
  cases h

lemma feed_cons_kept {step fed : Step α} (h : step.feed row = (false, fed))
    (later : List (Step α)) :
    feed row (step :: later) = (false, fed :: later) := by
  rw [feed, h]

lemma feed_cons_passed {step fed : Step α} (h : step.feed row = (true, fed))
    (later : List (Step α)) :
    feed row (step :: later) = ((feed row later).1, fed :: (feed row later).2) := by
  rw [feed, h]

/-- If all rows are entities, so are those behind the first. -/
lemma entities_of_cons_ok {x : α} {rows : List (Except Error α)}
    (h : entities (.ok x :: rows) = .ok xs) : ∃ ys, entities rows = .ok ys := by
  cases hrest : entities rows with
  | ok ys => exact ⟨ys, rfl⟩
  | error e =>
    rw [entities, hrest] at h
    cases h

/-- Only a skip keeps an error back. -/
lemma exists_skip_of_feed_error (h : (feed (.error e) steps).1 = false) :
    ∃ before n after, steps = before ++ .skip (n + 1) :: after ∧
      (feed (.error e) before).1 = true := by
  induction steps with
  | nil => cases h
  | cons step steps ih =>
    -- A step that lets the error through leaves it to the others.
    have hothers : ∀ {fed}, step.feed (.error e) = (true, fed) → ∃ before n after,
        step :: steps = before ++ .skip (n + 1) :: after ∧ (feed (.error e) before).1 = true := by
      intro fed hstep
      rw [feed_cons_passed hstep] at h
      obtain ⟨before, n, after, rfl, hbefore⟩ := ih h
      exact ⟨step :: before, n, after, rfl, by rw [feed_cons_passed hstep, hbefore]⟩
    cases step with
    | keep test => exact hothers rfl
    | take n => exact hothers rfl
    | skip n =>
      cases n with
      | zero => exact hothers rfl
      | succ n => exact ⟨[], n, steps, rfl, rfl⟩

/-- Where a step stands after a row, and where it stood before. -/
lemma exists_step_of_feed {before after : List (Step α)} {step : Step α}
    (h : (feed row steps).2 = before ++ step :: after) : ∃ before' step' after',
      steps = before' ++ step' :: after' ∧ (feed row before').2 = before ∧
        ((feed row before').1 = false ∧ step' = step ∨
          (feed row before').1 = true ∧ (step'.feed row).2 = step) := by
  induction steps generalizing before with
  | nil => exact absurd h.symm (List.append_ne_nil_of_right_ne_nil _ (List.cons_ne_nil _ _))
  | cons first steps ih =>
    rcases hfirst : first.feed row with ⟨_ | _, fed⟩
    · rw [feed_cons_kept hfirst] at h
      cases before with
      | nil =>
        obtain ⟨rfl, rfl⟩ := List.cons.inj h
        exact ⟨[], first, steps, rfl, rfl, Or.inr ⟨rfl, by rw [hfirst]⟩⟩
      | cons fed' before =>
        obtain ⟨rfl, rfl⟩ := List.cons.inj h
        exact ⟨first :: before, step, after, rfl, by rw [feed_cons_kept hfirst],
          Or.inl ⟨by rw [feed_cons_kept hfirst], rfl⟩⟩
    · rw [feed_cons_passed hfirst] at h
      cases before with
      | nil =>
        obtain ⟨rfl, _⟩ := List.cons.inj h
        exact ⟨[], first, steps, rfl, rfl, Or.inr ⟨rfl, by rw [hfirst]⟩⟩
      | cons fed' before =>
        obtain ⟨rfl, hrest⟩ := List.cons.inj h
        obtain ⟨before', step', after', rfl, hbefore, hstep⟩ := ih hrest
        refine ⟨first :: before', step', after', rfl, ?_, ?_⟩
        · rw [feed_cons_passed hfirst, hbefore]
        · rw [feed_cons_passed hfirst]
          exact hstep

/-- An item that vanished is not dropped. -/
lemma drops_cons_none (hrow : item.row? decode = none) :
    Drops decode steps (item :: items) ↔ Drops decode steps items := by
  have hsame : ∀ {before after : List (Step α)}, (before ++ after).any Step.isExhausted = false →
      allOf decode before (item :: items) = allOf decode before items :=
    fun h => allOf_cons_none (not_exhausted_append.mp h).1 hrow
  constructor
  · rintro ⟨h, before, n, after, e, rfl, hmem⟩
    exact ⟨h, before, n, after, e, rfl, hsame h ▸ hmem⟩
  · rintro ⟨h, before, n, after, e, rfl, hmem⟩
    exact ⟨h, before, n, after, e, rfl, (hsame h).symm ▸ hmem⟩

/-- An error that a skip drops later was to be dropped before. -/
lemma drops_cons_of_drops (hexhausted : steps.any Step.isExhausted = false)
    (hrow : item.row? decode = some row) (h : Drops decode (feed row steps).2 items) :
    Drops decode steps (item :: items) := by
  obtain ⟨_, before, n, after, e, hsteps, hmem⟩ := h
  obtain ⟨before', step, after', rfl, rfl, ⟨hkept, rfl⟩ | ⟨hpassed, hstep⟩⟩ :=
    exists_step_of_feed hsteps
  · refine ⟨hexhausted, before', n, after', e, rfl, ?_⟩
    rw [allOf_cons (not_exhausted_append.mp hexhausted).1 hrow, hkept, if_neg Bool.false_ne_true]
    exact hmem
  · cases step with
    | keep test =>
      cases row <;> cases hstep
    | take m => cases hstep
    | skip m =>
      cases m with
      | zero =>
        cases hstep
        cases hmem
      | succ m =>
        cases hstep
        refine ⟨hexhausted, before', n + 1, after', e, rfl, ?_⟩
        rw [allOf_cons (not_exhausted_append.mp hexhausted).1 hrow, hpassed, if_pos rfl,
          List.take_succ_cons]
        exact List.mem_cons_of_mem _ hmem

/-- An error that a skip drops is dropped later if it is not the first row. -/
lemma drops_of_drops_cons {x : α} (hrow : item.row? decode = some (.ok x))
    (h : Drops decode steps (item :: items)) : Drops decode (feed (.ok x) steps).2 items := by
  obtain ⟨hexhausted, before, n, after, e, rfl, hmem⟩ := h
  obtain ⟨hbefore, hafter⟩ := not_exhausted_append.mp hexhausted
  rw [not_exhausted_skip] at hafter
  rw [allOf_cons hbefore hrow] at hmem
  rw [feed_append]
  rcases hfed : feed (.ok x) before with ⟨_ | _, fed⟩ <;> rw [hfed] at hmem
  · rw [if_neg Bool.false_ne_true] at hmem
    have hbefore' := not_exhausted_of_mem hmem
    exact ⟨not_exhausted_append.mpr ⟨hbefore', hafter⟩, fed, n, after, e, rfl, hmem⟩
  · rw [if_pos rfl] at hmem
    cases n with
    | zero => cases hmem
    | succ n =>
      rw [List.take_succ_cons] at hmem
      rcases List.mem_cons.mp hmem with heq | hmem
      · cases heq
      · have hbefore' := not_exhausted_of_mem hmem
        exact ⟨not_exhausted_append.mpr ⟨hbefore', hafter⟩, fed, n, after, e, rfl, hmem⟩

/-- **An error that was looked at and is not given was dropped by a skip.** -/
theorem exists_error_pulledOf_iff (h : entities (allOf decode steps items) = .ok xs) :
    (∃ e, .error e ∈ pulledOf decode steps items) ↔ Drops decode steps items := by
  induction items generalizing steps xs with
  | nil =>
    constructor
    · rintro ⟨_, hmem⟩
      cases hmem
    · rintro ⟨_, _, _, _, _, _, hmem⟩
      rw [allOf, List.take_nil] at hmem
      cases hmem
  | cons item items ih =>
    cases hexhausted : steps.any Step.isExhausted with
    | true =>
      constructor
      · rintro ⟨_, hmem⟩
        rw [pulledOf, if_pos hexhausted] at hmem
        cases hmem
      · intro hdrops
        cases hexhausted.symm.trans hdrops.1
    | false =>
      rw [pulledOf, hexhausted, if_neg Bool.false_ne_true]
      cases hrow : item.row? decode with
      | none =>
        rw [allOf_cons_none hexhausted hrow] at h
        exact (ih h).trans (drops_cons_none hrow).symm
      | some row =>
        rw [allOf_cons hexhausted hrow] at h
        cases row with
        | ok x =>
          have hrest : ∃ ys, entities (allOf decode (feed (.ok x) steps).2 items) = .ok ys := by
            split at h
            · exact entities_of_cons_ok h
            · exact ⟨xs, h⟩
          obtain ⟨ys, hys⟩ := hrest
          have hlater : (∃ e, .error e ∈ (.ok x : Except Error α) ::
              pulledOf decode (feed (.ok x) steps).2 items) ↔
                ∃ e, .error e ∈ pulledOf decode (feed (.ok x) steps).2 items :=
            exists_congr fun e => by simp
          exact (hlater.trans (ih hys)).trans
            ⟨drops_cons_of_drops hexhausted hrow, drops_of_drops_cons hrow⟩
        | error e =>
          refine iff_of_true ⟨e, List.mem_cons_self⟩ ?_
          have hkept : (feed (.error e) steps).1 = false := by
            by_contra hpassed
            rw [if_pos (Bool.not_eq_false _ ▸ hpassed)] at h
            cases h
          obtain ⟨before, n, after, rfl, hbefore⟩ := exists_skip_of_feed_error hkept
          refine ⟨hexhausted, before, n + 1, after, e, rfl, ?_⟩
          rw [allOf_cons (not_exhausted_append.mp hexhausted).1 hrow, if_pos hbefore,
            List.take_succ_cons]
          exact List.mem_cons_self

/-! ## Rows that are no errors -/

/-- **No item comes as an error.** -/
def Calm (decode : Key → Except Error (Option α)) (rows : Rows α) : Prop :=
  ∀ item ∈ rows.items, ∀ e, item.row? decode ≠ some (.error e)

namespace Calm

/-- Among calm rows no error is pulled. -/
lemma not_error (h : rows.Calm decode) : ¬ ∃ e, .error e ∈ rows.pulled decode := by
  rintro ⟨e, he⟩
  obtain ⟨item, hitem, hrow⟩ := mem_pulledOf he
  exact h item hitem e hrow

/-- **Calm rows** give a list. -/
lemma toList (h : rows.Calm decode) : ∃ xs, rows.toList decode = .ok xs := by
  cases hlist : rows.toList decode with
  | ok xs => exact ⟨xs, rfl⟩
  | error e => exact absurd ⟨e, mem_pulledOf_of_error hlist⟩ h.not_error

lemma ofResult (xs : List α) : (Rows.ofResult (.ok xs)).Calm decode := by
  rintro item hitem e hrow
  obtain ⟨x, _, rfl⟩ := List.mem_map.mp hitem
  cases hrow

end Calm

/-! ## Chains of stages -/

/-- The rows that are looked at while stages run: an order looks at all rows that it is given, and
so does the end. -/
def lookedAt (decode : Key → Except Error (Option α)) (document : α → Document) :
    List (Stage α) → Rows α → List (Except Error α)
  | [], rows => rows.pulled decode
  | stage :: stages, rows =>
    (if stage.isOrder then rows.pulled decode else []) ++
      lookedAt decode document stages (rows.apply decode document stage)

/-- The rows after some stages. -/
def run (decode : Key → Except Error (Option α)) (document : α → Document) (stages : List (Stage α))
    (rows : Rows α) : Rows α :=
  stages.foldl (fun rows stage => rows.apply decode document stage) rows

/-- **Stages hide an error.** -/
inductive Hides (decode : Key → Except Error (Option α)) (document : α → Document) :
    List (Stage α) → Rows α → Prop
  /-- A skip drops an error that the end looks at. -/
  | skipped {rows : Rows α} (drops : Drops decode rows.steps rows.items) :
      Hides decode document [] rows
  /-- A skip drops an error that an order looks at. -/
  | skippedBefore {order : Stage α} {stages : List (Stage α)} {rows : Rows α} {xs : List α}
      (isOrder : order.isOrder = true) (given : rows.toList decode = .ok xs)
      (drops : Drops decode rows.steps rows.items) : Hides decode document (order :: stages) rows
  /-- An order is given an error, which is all that it gives, and that row is lost. -/
  | lost {order : Stage α} {stages : List (Stage α)} {rows : Rows α} {e : Error}
      (isOrder : order.isOrder = true) (given : rows.toList decode = .error e)
      (loses : ∃ stage ∈ stages, stage.loses = true) : Hides decode document (order :: stages) rows
  | later {stage : Stage α} {stages : List (Stage α)} {rows : Rows α} (lazy : stage.isOrder = false)
      (hides : Hides decode document stages (rows.apply decode document stage)) :
      Hides decode document (stage :: stages) rows

/-- A sort takes all rows and gives what it makes of them at once. -/
lemma apply_order (h : stage.isOrder = true) (rows : Rows α) : rows.apply decode document stage =
    ofResult ((rows.toList decode).map (stage.eval document)) := by
  cases stage with
  | orderBy path descending => rfl
  | orderWith cmp => rfl
  | filter e => cases h
  | filterWith test => cases h
  | skip n => cases h
  | take n => cases h

variable (decode document) in
/-- A stage that is no order is one more step. -/
lemma apply_lazy (h : stage.isOrder = false) : ∃ step : Step α,
    (∀ rows : Rows α, rows.apply decode document stage = rows.push step) ∧
      (∀ e, step.through [.error e] = if stage.loses then [] else [.error e]) ∧
      ∀ n, step = .skip (n + 1) → stage.loses = true := by
  cases stage with
  | filter e => exact ⟨_, fun _ => rfl, fun _ => rfl, fun _ hskip => by cases hskip⟩
  | filterWith test => exact ⟨_, fun _ => rfl, fun _ => rfl, fun _ hskip => by cases hskip⟩
  | orderBy path descending => cases h
  | orderWith cmp => cases h
  | skip n =>
    refine ⟨_, fun _ => rfl, ?_, fun m hskip => ?_⟩
    · cases n with
      | zero => exact fun _ => rfl
      | succ n => exact fun _ => List.drop_nil
    · cases hskip
      rfl
  | take n =>
    refine ⟨_, fun _ => rfl, ?_, fun _ hskip => by cases hskip⟩
    cases n with
    | zero => exact fun _ => rfl
    | succ n => exact fun _ => congrArg _ List.take_nil

/-- A sort loses no row. -/
lemma loses_of_isOrder (h : stage.isOrder = true) : stage.loses = false := by
  cases stage with
  | orderBy path descending => rfl
  | orderWith cmp => rfl
  | filter e => rfl
  | filterWith test => rfl
  | skip n => cases h
  | take n => cases h

variable (document) in
/-- An error that comes alone, after one more stage. -/
lemma all_apply_error (h : rows.all decode = [.error e]) (stage : Stage α) :
    (rows.apply decode document stage).all decode = if stage.loses then [] else [.error e] := by
  cases horder : stage.isOrder with
  | true =>
    have hlist : rows.toList decode = .error e := congrArg entities h
    rw [apply_order horder, hlist, loses_of_isOrder horder]
    rfl
  | false =>
    obtain ⟨step, happly, hthrough, _⟩ := apply_lazy decode document horder
    rw [happly, ← hthrough, ← h]
    exact allOf_push rows.items rows.steps step

/-- **An error that comes alone** is given in the end unless a stage loses it. -/
lemma toList_run_error (h : rows.all decode = [.error e]) (stages : List (Stage α)) :
    (∃ xs, (run decode document stages rows).toList decode = .ok xs) ↔
      ∃ stage ∈ stages, stage.loses = true := by
  induction stages generalizing rows with
  | nil =>
    have hlist : rows.toList decode = .error e := congrArg entities h
    refine iff_of_false (fun ⟨xs, hok⟩ => ?_) fun ⟨_, hmem, _⟩ => by cases hmem
    cases hlist.symm.trans hok
  | cons stage stages ih =>
    have happly := all_apply_error document h stage
    cases hloses : stage.loses with
    | true =>
      rw [hloses, if_pos rfl] at happly
      have hgiven : (rows.apply decode document stage).all decode = given [] := happly
      refine iff_of_true ?_ ⟨stage, List.mem_cons_self, hloses⟩
      exact ⟨_, (congrArg entities (all_foldl hgiven stages)).trans (entities_given _)⟩
    | false =>
      rw [hloses, if_neg Bool.false_ne_true] at happly
      refine (ih happly).trans ?_
      simp [hloses]

namespace Calm

/-- **Every stage keeps rows calm.** -/
lemma apply (h : rows.Calm decode) (stage : Stage α) :
    (rows.apply decode document stage).Calm decode := by
  cases horder : stage.isOrder with
  | true =>
    obtain ⟨xs, hlist⟩ := h.toList
    rw [apply_order horder, hlist]
    exact ofResult _
  | false =>
    obtain ⟨step, happly, _⟩ := apply_lazy decode document horder
    rw [happly]
    exact h

/-- Among calm rows no stage looks at an error. -/
lemma lookedAt (h : rows.Calm decode) (stages : List (Stage α)) :
    ¬ ∃ e, .error e ∈ Rows.lookedAt decode document stages rows := by
  induction stages generalizing rows with
  | nil => exact h.not_error
  | cons stage stages ih =>
    rintro ⟨e, he⟩
    rw [Rows.lookedAt] at he
    rcases List.mem_append.mp he with he | he
    · split at he
      · exact h.not_error ⟨e, he⟩
      · cases he
    · exact ih (h.apply stage) ⟨e, he⟩

end Calm

/-- **Rows that are taken in before the end** go on without errors, or as one error.  So an error
was looked at if a skip dropped it before, or if it is that one and is lost later. -/
lemma collected_iff {arrange : List α → List α}
    (h : (run decode document stages (ofResult ((rows.toList decode).map arrange))).toList decode =
      .ok xs) :
    (∃ e, .error e ∈ rows.pulled decode ++
      lookedAt decode document stages (ofResult ((rows.toList decode).map arrange))) ↔
        (∃ ys, rows.toList decode = .ok ys) ∧ Drops decode rows.steps rows.items ∨
          (∃ e, rows.toList decode = .error e) ∧ ∃ stage ∈ stages, stage.loses = true := by
  cases hlist : rows.toList decode with
  | ok ys =>
    have hcalm : (ofResult ((Except.ok ys : Except Error (List α)).map arrange)).Calm decode :=
      .ofResult _
    have hdrops := exists_error_pulledOf_iff hlist
    constructor
    · rintro ⟨e, he⟩
      rcases List.mem_append.mp he with he | he
      · exact Or.inl ⟨⟨ys, rfl⟩, hdrops.mp ⟨e, he⟩⟩
      · exact absurd ⟨e, he⟩ (hcalm.lookedAt stages)
    · rintro (⟨_, hdropped⟩ | ⟨⟨e, he⟩, _⟩)
      · obtain ⟨e, he⟩ := hdrops.mpr hdropped
        exact ⟨e, List.mem_append_left _ he⟩
      · cases he
  | error e =>
    rw [hlist] at h
    have hmem : .error e ∈ rows.pulled decode := mem_pulledOf_of_error hlist
    exact iff_of_true ⟨e, List.mem_append_left _ hmem⟩
      (Or.inr ⟨⟨e, rfl⟩, (toList_run_error rfl stages).mp ⟨xs, h⟩⟩)

/-- **A chain of stages whose end is no error** has looked at an error exactly if it hides one. -/
theorem hides_iff (h : (run decode document stages rows).toList decode = .ok xs) :
    (∃ e, .error e ∈ lookedAt decode document stages rows) ↔ Hides decode document stages rows := by
  induction stages generalizing rows with
  | nil =>
    refine (exists_error_pulledOf_iff h).trans ⟨.skipped, fun hhides => ?_⟩
    cases hhides with
    | skipped drops => exact drops
  | cons stage stages ih =>
    cases horder : stage.isOrder with
    | false =>
      rw [lookedAt, horder, if_neg Bool.false_ne_true, List.nil_append]
      refine (ih h).trans ⟨.later horder, fun hhides => ?_⟩
      cases hhides with
      | later _ hides => exact hides
      | skippedBefore isOrder => cases horder.symm.trans isOrder
      | lost isOrder => cases horder.symm.trans isOrder
    | true =>
      have hrest : (run decode document stages (ofResult
          ((rows.toList decode).map (stage.eval document)))).toList decode = .ok xs := by
        rw [← apply_order horder]
        exact h
      rw [lookedAt, horder, if_pos rfl, apply_order horder]
      refine (collected_iff hrest).trans ⟨?_, fun hhides => ?_⟩
      · rintro (⟨⟨ys, given⟩, drops⟩ | ⟨⟨e, given⟩, loses⟩)
        · exact .skippedBefore horder given drops
        · exact .lost horder given loses
      · cases hhides with
        | skippedBefore _ given drops => exact Or.inl ⟨⟨_, given⟩, drops⟩
        | lost _ given loses => exact Or.inr ⟨⟨_, given⟩, loses⟩
        | later lazy => cases horder.symm.trans lazy

/-- **Only a skip or a cut to nothing hides an error.** -/
theorem Hides.exists_loses (h : Hides decode document stages rows)
    (hsteps : ∀ n, .skip (n + 1) ∉ rows.steps) : ∃ stage ∈ stages, stage.loses = true := by
  have hnone : ∀ {rows : Rows α}, (∀ n, .skip (n + 1) ∉ rows.steps) →
      ¬ Drops decode rows.steps rows.items := by
    rintro rows hsteps ⟨_, before, n, after, e, heq, hmem⟩
    cases n with
    | zero => cases hmem
    | succ n => exact hsteps n (by rw [heq]; simp)
  induction h with
  | skipped drops => exact absurd drops (hnone hsteps)
  | skippedBefore _ _ drops => exact absurd drops (hnone hsteps)
  | lost _ _ loses =>
    obtain ⟨stage, hmem, hstage⟩ := loses
    exact ⟨stage, List.mem_cons_of_mem _ hmem, hstage⟩
  | @later stage stages rows lazy _ ih =>
    cases hloses : stage.loses with
    | true => exact ⟨stage, List.mem_cons_self, hloses⟩
    | false =>
      obtain ⟨step, happly, _, hskip⟩ := apply_lazy decode document lazy
      obtain ⟨stage', hmem, hstage⟩ := ih fun n hn => by
        rw [happly] at hn
        rcases List.mem_append.mp hn with hn | hn
        · exact hsteps n hn
        · cases hloses.symm.trans (hskip n (List.mem_singleton.mp hn).symm)
      exact ⟨stage', List.mem_cons_of_mem _ hmem, hstage⟩

end Rows

end SlotStore
