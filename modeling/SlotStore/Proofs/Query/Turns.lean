import Mathlib.Tactic.Common
import SlotStore.Proofs.Query.Rows

/-!
# Rows that are given one by one

A query whose stages are filters, and whose source is decoded row by row, keeps nothing but the keys
it has yet to look at.  Each call for a row takes keys off the front: those whose entity has
vanished or is rejected are passed over, and the first that is accepted, or cannot be decoded, makes
the row.

* `Stage.isFilter`, `Query.accepts` : filters, and what they accept together;
* `Rows.browsing`, `Rows.run_filters` : what such a query keeps;
* `Rows.Turn`, `Rows.next_browsing` : one call for a row.
-/

namespace SlotStore

variable {α : Type}

/-- Whether a stage is a filter. -/
def Stage.isFilter : Stage α → Bool
  | .filter _ => true
  | .filterWith _ => true
  | _ => false

/-- Whether a stage lets an entity through; stages that are no filters are not asked. -/
def Stage.accepts (document : α → Document) (x : α) : Stage α → Bool
  | .filter e => e.holds (document x)
  | .filterWith test => test x
  | _ => true

/-- Whether all filters of a query accept an entity. -/
def Query.accepts (document : α → Document) (q : Query α) (x : α) : Bool :=
  q.stages.all fun stage => stage.accepts document x

namespace Rows

variable {document : α → Document} {decode value : Key → Except Error (Option α)}
  {tests : List (α → Bool)} {accepts : α → Bool} {k : Key} {ks left : List Key} {x : α}
  {row : Option (Except Error α)} {stages : List (Stage α)}

/-- The rows of some keys that are decoded one by one and filtered by some tests. -/
def browsing (tests : List (α → Bool)) (ks : List Key) : Rows α :=
  ⟨ks.map .stored, tests.map .keep⟩

/-- **One call for a row.**  It takes keys off the front up to the one that makes the row. -/
inductive Turn (value : Key → Except Error (Option α)) (accepts : α → Bool) :
    List Key → Option (Except Error α) → List Key → Prop
  | finished : Turn value accepts [] none []
  | vanished {k : Key} {ks left : List Key} {row : Option (Except Error α)}
    (hk : value k = .ok none) (later : Turn value accepts ks row left) :
    Turn value accepts (k :: ks) row left
  | rejected {k : Key} {ks left : List Key} {row : Option (Except Error α)} {x : α}
    (hk : value k = .ok (some x)) (hx : accepts x = false)
    (later : Turn value accepts ks row left) : Turn value accepts (k :: ks) row left
  | yielded {k : Key} {ks : List Key} {x : α} (hk : value k = .ok (some x))
    (hx : accepts x = true) : Turn value accepts (k :: ks) (some (.ok x)) ks
  | undecodable {k : Key} {ks : List Key} {e : Error} (hk : value k = .error e) :
    Turn value accepts (k :: ks) (some (.error e)) ks

/-! ## What the query keeps -/

/-- Stages that filter become steps that test. -/
lemma run_filters (hfilters : ∀ stage ∈ stages, stage.isFilter = true) (ks : List Key) :
    stages.foldl (fun rows stage => rows.apply decode document stage) (browsing tests ks) =
      browsing (tests ++ stages.map fun stage x => stage.accepts document x) ks := by
  induction stages generalizing tests with
  | nil => simp
  | cons stage stages ih =>
    obtain ⟨hstage, hstages⟩ := List.forall_mem_cons.mp hfilters
    have hpush : (browsing tests ks).apply decode document stage =
        browsing (tests ++ [fun x => stage.accepts document x]) ks := by
      cases stage with
      | filter e => simp [Rows.apply, push, browsing, Stage.accepts]
      | filterWith test => simp [Rows.apply, push, browsing, Stage.accepts]
      | _ => cases hstage
    rw [List.foldl_cons, hpush, ih hstages, List.append_assoc]
    rfl

/-- Filters stay as they are, and errors pass them. -/
lemma feed_keep (row : Except Error α) (tests : List (α → Bool)) :
    feed row (tests.map .keep) =
      (passes (fun x => tests.all fun test => test x) row, tests.map .keep) := by
  induction tests with
  | nil => cases row <;> rfl
  | cons test tests ih =>
    cases row with
    | error e => simp [feed, Step.feed, ih, passes]
    | ok x => cases htest : test x <;> simp [feed, Step.feed, ih, passes, htest]

lemma not_exhausted (tests : List (α → Bool)) :
    ((tests.map Step.keep).any Step.isExhausted) = false := by
  simp [Function.comp_def, Step.isExhausted]

/-- **The next row** of such a query. -/
theorem next_browsing (decode : Key → Except Error (Option α)) (tests : List (α → Bool))
    (ks : List Key) : ∃ row left, (browsing tests ks).next decode = (row, browsing tests left) ∧
      Turn decode (fun x => tests.all fun test => test x) ks row left := by
  show ∃ row left, nextOf decode (tests.map .keep) (ks.map .stored) = _ ∧ _
  induction ks with
  | nil => exact ⟨none, [], rfl, .finished⟩
  | cons k ks ih =>
    obtain ⟨row, left, hnext, hturn⟩ := ih
    rw [List.map_cons, nextOf, not_exhausted, if_neg Bool.false_ne_true]
    cases hk : decode k with
    | error e =>
      simp only [Item.row?, hk, feed_keep, passes]
      exact ⟨_, ks, rfl, .undecodable hk⟩
    | ok found =>
      cases found with
      | none =>
        simp only [Item.row?, hk]
        exact ⟨row, left, hnext, .vanished hk hturn⟩
      | some x =>
        simp only [Item.row?, hk, feed_keep, passes]
        cases hx : tests.all fun test => test x with
        | true => exact ⟨_, ks, rfl, .yielded hk hx⟩
        | false => exact ⟨row, left, hnext, .rejected hk hx hturn⟩

/-! ## What a turn takes -/

namespace Turn

/-- What a turn leaves is the end of what it found. -/
lemma suffix (h : Turn value accepts ks row left) : left <:+ ks := by
  induction h with
  | finished => exact List.suffix_rfl
  | vanished _ _ ih => exact ih.trans (List.suffix_cons _ _)
  | rejected _ _ _ ih => exact ih.trans (List.suffix_cons _ _)
  | yielded => exact List.suffix_cons _ _
  | undecodable => exact List.suffix_cons _ _

/-- The call gives no row only when no key is left. -/
lemma left_of_none (h : Turn value accepts ks row left) (hrow : row = none) : left = [] := by
  induction h with
  | finished => rfl
  | vanished _ _ ih => exact ih hrow
  | rejected _ _ _ ih => exact ih hrow
  | yielded => cases hrow
  | undecodable => cases hrow

/-- **A row is what one of the keys has at that time**, and those in front of it are passed over. -/
lemma exists_key {r : Except Error α} (h : Turn value accepts ks row left) (hrow : row = some r) :
    ∃ passed k, ks = passed ++ k :: left ∧ value k = r.map some ∧
      (∀ x, r = .ok x → accepts x = true) ∧
      ∀ j ∈ passed, value j = .ok none ∨ ∃ x, value j = .ok (some x) ∧ accepts x = false := by
  induction h with
  | finished => cases hrow
  | @vanished k ks left row hk _ ih =>
    obtain ⟨passed, j, rfl, hj, haccepts, hpassed⟩ := ih hrow
    exact ⟨k :: passed, j, rfl, hj, haccepts, List.forall_mem_cons.mpr ⟨.inl hk, hpassed⟩⟩
  | @rejected k ks left row x hk hx _ ih =>
    obtain ⟨passed, j, rfl, hj, haccepts, hpassed⟩ := ih hrow
    exact ⟨k :: passed, j, rfl, hj, haccepts,
      List.forall_mem_cons.mpr ⟨.inr ⟨x, hk, hx⟩, hpassed⟩⟩
  | @yielded k ks x hk hx =>
    cases hrow
    exact ⟨[], k, rfl, hk, fun y hy => by cases hy; exact hx, nofun⟩
  | @undecodable k ks e hk =>
    cases hrow
    exact ⟨[], k, rfl, hk, nofun, nofun⟩

end Turn

end Rows

end SlotStore
