import Mathlib.Tactic.Common
import SlotStore.Proofs.Index.Follows
import SlotStore.Proofs.Sorting.Thinned
import SlotStore.Query.Plan

/-!
# Narrowing the source of a query

A filter that forces an equality lets no entity through whose value at the path differs from the
literal.  Such entities may be left out of the source as well, if the orders before the filter are
orders on the entities.

* `Expr.Demands`, `Expr.equals_of_mem_equalities` : what a forced equality is, and what it says;
* `Stage.comparison?`, `Stage.Orders` : how stages sort, and stages that sort by an order;
* `Plan.eval_thinned` : the stages make the same of a source with some entities left out;
* `Plan.eval_narrow` : the stages make the same of the narrowed source;
* `Plan.make_streaming` : the plan where nothing is narrowed.
-/

namespace SlotStore

/-! ## Forced equalities -/

namespace Expr

variable {e : Expr} {doc : Document} {path : FieldPath} {v : Value}

/-- **An expression demands an equality**: it is a conjunction, and one of its conjuncts compares
the field with the literal. -/
inductive Demands (path : FieldPath) (v : Value) : Expr → Prop
  | field : Demands path v (compare .eq (field path) (literal v))
  | literal : Demands path v (compare .eq (literal v) (field path))
  | left {a b : Expr} (h : Demands path v a) : Demands path v (and a b)
  | right {a b : Expr} (h : Demands path v b) : Demands path v (and a b)

/-- The equalities that an expression is known to force are those that it demands. -/
theorem mem_equalities : (path, v) ∈ e.equalities ↔ Demands path v e := by
  constructor
  · intro he
    fun_induction equalities e with
    | case1 field value =>
      simp only [List.mem_singleton, Prod.mk.injEq] at he
      rcases he with ⟨rfl, rfl⟩
      exact .field
    | case2 value field =>
      simp only [List.mem_singleton, Prod.mk.injEq] at he
      rcases he with ⟨rfl, rfl⟩
      exact .literal
    | case3 left right ihleft ihright =>
      rcases List.mem_append.mp he with he | he
      · exact .left (ihleft he)
      · exact .right (ihright he)
    | case4 => simp at he
  · intro h
    induction h with
    | field => simp [equalities]
    | literal => simp [equalities]
    | left _ ih => simp [equalities, ih]
    | right _ ih => simp [equalities, ih]

lemma isTrue_bool (b : Bool) : isTrue (.bool b) = b := by
  cases b <;> rfl

/-- **Where an expression is true, the fields that it forces equal** their literals. -/
theorem equals_of_mem_equalities (he : (path, v) ∈ e.equalities) (h : e.holds doc = true) :
    (path.valueOrNull doc).equals v = true := by
  rw [mem_equalities] at he
  induction he with
  | field => simpa only [holds, eval, isTrue_bool, Comparison.holds, Value.equals] using h
  | literal =>
    simp only [holds, eval, isTrue_bool] at h
    exact Value.equals_symm h
  | left _ ih =>
    simp only [holds, eval, isTrue_bool, Bool.and_eq_true] at h
    exact ih h.1
  | right _ ih =>
    simp only [holds, eval, isTrue_bool, Bool.and_eq_true] at h
    exact ih h.2

end Expr

/-! ## Stages -/

namespace Stage

variable {α : Type} {document : α → Document} {p needed : α → Prop} {xs ys : List α}
  {path : FieldPath} {v : Value} {cmp : α → α → Ordering}

/-- **A stage that sorts** the entities with a property sorts them by an order. -/
def Orders (document : α → Document) (p : α → Prop) : Stage α → Prop
  | orderBy path _ => FieldIndex.Clear path fun d => ∃ x, p x ∧ document x = d
  | orderWith cmp => Sorting.OrdersOn cmp p
  | _ => True

/-- Coherent values are sorted by an order, up or down. -/
lemma valueOrder_ordersOn {q : Value → Prop} (h : Value.Coherent q) (descending : Bool) :
    Sorting.OrdersOn (valueOrder descending) q := by
  cases descending with
  | false => exact Value.rankCompare_ordersOn h
  | true => exact (Value.rankCompare_ordersOn h).reverse

/-- How a stage compares entities, if it sorts them. -/
def comparison? (document : α → Document) : Stage α → Option (α → α → Ordering)
  | orderBy path descending => some fun a b =>
      valueOrder descending (path.valueOrNull (document a)) (path.valueOrNull (document b))
  | orderWith cmp => some cmp
  | _ => none

/-- A stage that sorts by an order compares by one. -/
lemma Orders.ordersOn {stage : Stage α} (h : stage.Orders document p)
    (hcmp : stage.comparison? document = some cmp) : Sorting.OrdersOn cmp p := by
  cases stage with
  | orderBy path descending =>
    cases hcmp
    exact ((valueOrder_ordersOn h descending).comap fun x => path.valueOrNull (document x)).mono
      fun x hx => ⟨document x, ⟨x, hx, rfl⟩, rfl⟩
  | orderWith cmp' =>
    cases hcmp
    exact h
  | _ => cases hcmp

/-- **A stage that sorts** by an order sorts the entities themselves, as it compares them. -/
lemma eval_of_comparison {stage : Stage α} (hcmp : stage.comparison? document = some cmp)
    (h : Sorting.OrdersOn cmp p) (hxs : ∀ x ∈ xs, p x) :
    stage.eval document xs = Sorting.stableSort cmp xs := by
  cases stage with
  | orderBy path descending =>
    cases hcmp
    have hsort : (Sorting.stableSort (fun a b : Value × α => valueOrder descending a.1 b.1)
        (xs.map fun x => (path.valueOrNull (document x), x))) =
          (Sorting.stableSort _ xs).map fun x => (path.valueOrNull (document x), x) :=
      Sorting.stableSort_map h hxs
    rw [eval, sortedBy, hsort, List.map_map]
    exact List.map_id _
  | orderWith cmp' =>
    cases hcmp
    rfl
  | _ => cases hcmp

/-- Whether a stage cuts entities off at one end, wherever they come from. -/
def isCut : Stage α → Bool
  | skip _ => true
  | take _ => true
  | _ => false

/-- **A stage leaves out** only what its source leaves out, unless it cuts. -/
theorem eval_thinned {stage : Stage α} (hcut : stage.isCut = false)
    (horder : ∀ cmp, stage.comparison? document = some cmp → Sorting.OrdersOn cmp p)
    (hxs : ∀ x ∈ xs, p x) (h : Sorting.Thinned needed xs ys) :
    Sorting.Thinned needed (stage.eval document xs) (stage.eval document ys) := by
  have hys : ∀ y ∈ ys, p y := fun y hy => hxs y (h.sublist.subset hy)
  have hsort : ∀ cmp, stage.comparison? document = some cmp →
      Sorting.Thinned needed (stage.eval document xs) (stage.eval document ys) := by
    intro cmp hcmp
    rw [eval_of_comparison hcmp (horder cmp hcmp) hxs,
      eval_of_comparison hcmp (horder cmp hcmp) hys]
    exact h.stableSort (horder cmp hcmp) hxs
  cases stage with
  | filter e => exact h.filter _
  | filterWith test => exact h.filter test
  | orderBy path descending => exact hsort _ rfl
  | orderWith cmp => exact hsort cmp rfl
  | skip n => cases hcut
  | take n => cases hcut

/-- A stage brings about entities of its source only. -/
lemma mem_eval {stage : Stage α}
    (horder : ∀ cmp, stage.comparison? document = some cmp → Sorting.OrdersOn cmp p)
    (hxs : ∀ x ∈ xs, p x) {x : α} (hx : x ∈ stage.eval document xs) : x ∈ xs := by
  have hsort : ∀ cmp, stage.comparison? document = some cmp → x ∈ xs := by
    intro cmp hcmp
    rw [eval_of_comparison hcmp (horder cmp hcmp) hxs] at hx
    exact (Sorting.mem_stableSort (horder cmp hcmp) hxs).mp hx
  cases stage with
  | filter e => exact List.mem_of_mem_filter hx
  | filterWith test => exact List.mem_of_mem_filter hx
  | orderBy path descending => exact hsort _ rfl
  | orderWith cmp => exact hsort cmp rfl
  | skip n => exact List.mem_of_mem_drop hx
  | take n => exact List.mem_of_mem_take hx

/-- Whether a stage is a filter that forces an equality. -/
def forces (path : FieldPath) (v : Value) : Stage α → Bool
  | filter e => e.equalities.contains (path, v)
  | _ => false

/-- The value at a path equals a literal. -/
def Matches (document : α → Document) (path : FieldPath) (v : Value) (x : α) : Prop :=
  (path.valueOrNull (document x)).equals v = true

/-- A filter that forces an equality drops what the narrowed source lacks. -/
lemma eval_forces {stage : Stage α} (hforces : stage.forces path v = true)
    (h : Sorting.Thinned (Matches document path v) xs ys) :
    stage.eval document ys = stage.eval document xs := by
  cases stage with
  | filter e =>
    exact h.filter_eq fun x hx => e.equals_of_mem_equalities (List.contains_iff_mem.mp hforces) hx
  | _ => cases hforces

end Stage

namespace Plan

variable {α : Type} {document : α → Document} {p : α → Prop} {path : FieldPath} {v : Value}
  {stages : List (Stage α)}

/-- The stages before the first filter that forces an equality. -/
def before (path : FieldPath) (v : Value) (stages : List (Stage α)) : List (Stage α) :=
  stages.takeWhile fun s => !s.forces path v

/-- The equalities of some stages are those that a first filter forces, and those of the others
behind a stage that does not cut. -/
lemma mem_equalitiesOf_cons {stage : Stage α} : (path, v) ∈ equalitiesOf (stage :: stages) ↔
    stage.forces path v = true ∨ stage.isCut = false ∧ (path, v) ∈ equalitiesOf stages := by
  cases stage <;> simp [equalitiesOf, Stage.forces, Stage.isCut]

/-- **The stages make the same of a source with some entities left out**, if the filter that forces
the equality would not let them through. -/
theorem eval_thinned (hstages : (path, v) ∈ equalitiesOf stages)
    (horders : ∀ s ∈ before path v stages, ∀ cmp, s.comparison? document = some cmp →
      Sorting.OrdersOn cmp p)
    {xs ys : List α} (hxs : ∀ x ∈ xs, p x)
    (h : Sorting.Thinned (Stage.Matches document path v) xs ys) :
    stages.foldl (fun xs s => s.eval document xs) ys =
      stages.foldl (fun xs s => s.eval document xs) xs := by
  induction stages generalizing xs ys with
  | nil => cases hstages
  | cons stage stages ih =>
    rw [List.foldl_cons, List.foldl_cons]
    -- The filter makes both lists equal; until it comes, they differ by unneeded entities only.
    by_cases hforces : stage.forces path v = true
    · rw [Stage.eval_forces hforces h]
    · obtain ⟨hcut, hrest⟩ := (mem_equalitiesOf_cons.mp hstages).resolve_left hforces
      rw [before, List.takeWhile_cons_of_pos (by rw [Bool.eq_false_iff.mpr hforces]; rfl)]
        at horders
      obtain ⟨horder, horders⟩ := List.forall_mem_cons.mp horders
      exact ih hrest horders (fun x hx => hxs x (Stage.mem_eval horder hxs hx))
        (Stage.eval_thinned hcut horder hxs h)

/-- **The stages make the same of a narrowed source.**  Only entities are left out that the filter
would not let through. -/
theorem eval_narrow {keep : α → Bool}
    (hkeep : ∀ x, p x → ((path.valueOrNull (document x)).rankCompare v = .eq) → keep x = true)
    {stages : List (Stage α)} (hstages : (path, v) ∈ equalitiesOf stages)
    (horders : ∀ s ∈ before path v stages, s.Orders document p) {xs : List α}
    (hxs : ∀ x ∈ xs, p x) :
    stages.foldl (fun xs s => s.eval document xs) (xs.filter keep) =
      stages.foldl (fun xs s => s.eval document xs) xs := by
  refine eval_thinned hstages (fun s hs _ hcmp => (horders s hs).ordersOn hcmp) hxs ?_
  exact .of_filter fun x hx hmatches => hkeep x (hxs x hx) (Value.rankCompare_of_equals hmatches)

/-- The plan of a query that no index answers. -/
lemma make_streaming {toc : Toc} {q : Query α} {keys : List Key}
    (hkeys : toc.activeEntries.map (·.key) = keys) (hn : q.threshold < keys.length) :
    make toc [] q =
      (⟨.streaming keys.length, equalitiesOf q.stages, q.stages.map Stage.display⟩, keys) := by
  have hcovered : covered [] (equalitiesOf q.stages) = none := List.findSome?_eq_none_iff.mpr
    fun _ _ => rfl
  simp [make, hcovered, hkeys, Nat.not_le.mpr hn]

end Plan

end SlotStore
