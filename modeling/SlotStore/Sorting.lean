import SlotStore.Sorting.Adaptive

/-!
# Stable sorting and halving search

Both are defined also for comparisons that are no order.

* `Sorting.stableSort` : the items in order, those that compare equal in their old order;
* `Sorting.search` : where an item stands in a sorted list, or where it would;
* `Sorting.partitionPoint` : how many items at the front satisfy a test.
-/

namespace SlotStore.Sorting

/-! ## Sorting -/

/-- Whether a comparison orders classes of items: within a class all are equal, and each class
stands before all later ones. -/
def isOrderOn {α : Type} (cmp : α → α → Ordering) : List (List α) → Bool
  | [] => true
  | c :: cs =>
    c.all (fun x => c.all fun y => cmp x y == .eq) &&
      cs.all (fun d => c.all fun x => d.all fun y => cmp x y == .lt && cmp y x == .gt) &&
      isOrderOn cmp cs

/-- The items in order; items that compare equal keep their order.  If the comparison is no order on
the items, what comes out is fixed by the method. -/
def stableSort {α : Type} (cmp : α → α → Ordering) (xs : List α) : List α :=
  let sorted := xs.mergeSort fun x y => cmp x y != .gt
  if isOrderOn cmp (sorted.splitBy fun x y => cmp x y == .eq) then sorted
  else adaptiveSort (fun x y => cmp x y == .lt) xs

/-! ## Search -/

/-- The last position of a window that the search narrows down to, given how the item at a position
compares with the target. -/
def narrow (at? : Nat → Ordering) : (fuel size base : Nat) → Nat
  | 0, _, base => base
  | fuel + 1, size, base =>
    if size ≤ 1 then base
    else
      let half := size / 2
      let middle := base + half
      narrow at? fuel (size - half) (if at? middle == .gt then base else middle)

/-- Whether an item that compares equal was found, and its position; if not, the position where one
belongs. -/
def search {α : Type} (cmp : α → Ordering) (xs : List α) : Bool × Nat :=
  let items := xs.toArray
  let at? (i : Nat) : Ordering := (items[i]?.map cmp).getD .eq
  if items.size = 0 then (false, 0)
  else
    let base := narrow at? items.size items.size 0
    match at? base with
    | .eq => (true, base)
    | .lt => (false, base + 1)
    | .gt => (false, base)

/-- The number of items at the front that satisfy a test, if those that do stand before those that
do not. -/
def partitionPoint {α : Type} (test : α → Bool) (xs : List α) : Nat :=
  (search (fun x => if test x then .lt else .gt) xs).2

end SlotStore.Sorting
