/-!
# A stable sort that follows the runs of a list

The method cuts a list into runs, sorts each of them, and merges neighbours along a balanced tree.
Where a comparison is an order, all stable methods give the same list.  Where it is none, as with
whole numbers and floats that are equal only after rounding, the list depends on the method, and
this module says which comparisons it makes.

* `insertionSort` : short lists;
* `sortPiece` : up to 32 items, as two halves that are merged from both ends;
* `quicksort` : longer pieces, around a pivot;
* `adaptiveSort` : the whole method.

A test `precedes` says whether one item has to stand before another.  Items of which neither
precedes the other keep their places.
-/

namespace SlotStore.Sorting

variable {α : Type}

/-! ## Insertion -/

/-- Puts an item into a list that is sorted from its end: past all items it precedes. -/
def sink (precedes : α → α → Bool) (x : α) : List α → List α
  | [] => [x]
  | y :: ys => if precedes x y then y :: sink precedes x ys else x :: y :: ys

/-- Sinks items one after the other into a sorted list. -/
def insertInto (precedes : α → α → Bool) (sorted xs : List α) : List α :=
  (xs.foldl (fun below x => sink precedes x below) sorted.reverse).reverse

/-- Each item sinks into the sorted items before it. -/
def insertionSort (precedes : α → α → Bool) (xs : List α) : List α := insertInto precedes [] xs

/-! ## Merging -/

/-- Merges two sorted lists from their fronts. -/
def mergeFronts (precedes : α → α → Bool) (xs ys : List α) : List α :=
  xs.merge ys fun x y => !precedes y x

/-- Merges two sorted lists from their ends. -/
def mergeBacks (precedes : α → α → Bool) (xs ys : List α) : List α :=
  (ys.reverse.merge xs.reverse fun y x => !precedes y x).reverse

/-- Merges two sorted lists from the side of the shorter one. -/
def mergeSorted (precedes : α → α → Bool) (xs ys : List α) : List α :=
  if xs.length ≤ ys.length then mergeFronts precedes xs ys else mergeBacks precedes xs ys

/-- Merges two halves of a list, the second at most one item longer, from both sides at once.  The
two sides meet in the middle; if they took different items there, the front is right.  Where the
comparison is an order they take each item once.  If they turn out not to have done so the
comparison is none, and a sort may as well stop with an error there; this one falls back to a plain
merge from the fronts. -/
def mergeHalves (precedes : α → α → Bool) (xs ys : List α) : List α :=
  let marked := fun (a b : Bool × α) => precedes a.2 b.2
  let left := xs.map (true, ·)
  let right := ys.map (false, ·)
  let half := xs.length
  let front := (mergeFronts marked left right).take half
  let back := (mergeBacks marked left right).drop ys.length
  let fromFront := front.countP (·.1)
  let taken := fromFront + back.countP (·.1)
  let middle :=
    if ys.length = half then []
    else if taken < half then left.drop fromFront
    else right.drop (half - fromFront)
  let merged := front ++ middle.take 1 ++ back
  if merged.countP (·.1) = half then merged.map (·.2) else mergeFronts precedes xs ys

/-! ## Pieces -/

/-- Four items in order, by five comparisons. -/
def sortFour (precedes : α → α → Bool) (p q r s : α) : List α :=
  let (a, b) := if precedes q p then (q, p) else (p, q)
  let (c, d) := if precedes s r then (s, r) else (r, s)
  let rightFirst := precedes c a
  let leftLast := precedes d b
  let least := if rightFirst then c else a
  let greatest := if leftLast then b else d
  let left := if rightFirst then a else if leftLast then c else b
  let right := if leftLast then d else if rightFirst then b else c
  if precedes right left then [least, right, left, greatest] else [least, left, right, greatest]

/-- Half of a piece, its first four items at once and the others by insertion. -/
def sortHalf (precedes : α → α → Bool) : List α → List α
  | p :: q :: r :: s :: xs => insertInto precedes (sortFour precedes p q r s) xs
  | xs => insertionSort precedes xs

/-- The most items of a piece. -/
def pieceLimit : Nat := 32

/-- A piece in order. -/
def sortPiece (precedes : α → α → Bool) (xs : List α) : List α :=
  let half := xs.length / 2
  let sortPart := if xs.length < 8 then insertionSort precedes else sortHalf precedes
  mergeHalves precedes (sortPart (xs.take half)) (sortPart (xs.drop half))

/-! ## Runs -/

/-- A stretch of the list, which may have to be sorted yet. -/
structure Run (α : Type) where
  items : List α
  sorted : Bool

/-- How many items at the front go on from one to the next. -/
def stretch (goesOn : α → α → Bool) : List α → Nat
  | [] => 0
  | [_] => 1
  | x :: y :: xs => if goesOn x y then stretch goesOn (y :: xs) + 1 else 1

/-- The length of the run at the front, and whether it falls. -/
def frontRun (precedes : α → α → Bool) (xs : List α) : Nat × Bool :=
  match xs with
  | x :: y :: _ =>
    if precedes y x then (stretch (fun a b => precedes b a) xs, true)
    else (stretch (fun a b => !precedes b a) xs, false)
  | xs => (xs.length, false)

/-- The first run and the rest.  A run as it stands has to be of a good length; otherwise a piece is
sorted at once, or a stretch is left for later. -/
def cutRun (precedes : α → α → Bool) (eager : Bool) (good : Nat) (xs : List α) :
    Run α × List α :=
  let (n, falls) := frontRun precedes xs
  if good ≤ n then
    (⟨if falls then (xs.take n).reverse else xs.take n, true⟩, xs.drop n)
  else if eager then (⟨sortPiece precedes (xs.take pieceLimit), true⟩, xs.drop pieceLimit)
  else (⟨xs.take good, false⟩, xs.drop good)

/-- The runs of a list, at most `fuel` of them. -/
def cutRuns (precedes : α → α → Bool) (eager : Bool) (good : Nat) : (fuel : Nat) → List α →
    List (Run α)
  | 0, _ => []
  | fuel + 1, xs =>
    if xs.isEmpty then []
    else
      let (run, rest) := cutRun precedes eager good xs
      run :: cutRuns precedes eager good fuel rest

/-- A length from which on a run is good: half the list up to a limit, and for long lists about the
square root of their length. -/
def goodLength (n : Nat) : Nat :=
  if n ≤ 4096 then min (n - n / 2) 64
  else
    let shift := (1 + n.log2) / 2
    ((1 <<< shift) + (n >>> shift)) / 2

/-- A run in order. -/
def Run.settle (sort : List α → List α) (r : Run α) : List α :=
  if r.sorted then r.items else sort r.items

/-- Two neighbours as one run.  They are merged unless both have to be sorted yet. -/
def Run.join (precedes : α → α → Bool) (sort : List α → List α) (l r : Run α) : Run α :=
  if l.sorted || r.sorted then ⟨mergeSorted precedes (l.settle sort) (r.settle sort), true⟩
  else ⟨l.items ++ r.items, false⟩

/-- How high the split between two runs lies in the tree over the whole list: the first binary digit
in which the middles of the two runs differ, on a scale for the length of the list. -/
def splitHeight (scale start middle stop : Nat) : Nat :=
  ((scale * (start + middle)) ^^^ (scale * (middle + stop))).log2

/-- Joins a run with those before it as long as the splits between them lie no higher than the split
after it; without such a split, with all. -/
def climb (join : Run α → Run α → Run α) (height : Option Nat) :
    List (Run α × Nat) → Run α → List (Run α × Nat) × Run α
  | [], r => ([], r)
  | (l, h) :: earlier, r =>
    if height.all (h ≤ ·) then climb join height earlier (join l r) else ((l, h) :: earlier, r)

/-- Joins all runs; `earlier` has those before the current one with the splits after them. -/
def joinRuns (join : Run α → Run α → Run α) (scale : Nat) :
    (earlier : List (Run α × Nat)) → (start : Nat) → Run α → List (Run α) → Run α
  | earlier, _, r, [] => (climb join none earlier r).2
  | earlier, start, r, next :: runs =>
    let middle := start + r.items.length
    let height := splitHeight scale start middle (middle + next.items.length)
    let (earlier, r) := climb join (some height) earlier r
    joinRuns join scale ((r, height) :: earlier) middle next runs

/-- Cuts a list into runs and joins them; `sort` is for the stretches that have to be sorted. -/
def runSort (precedes : α → α → Bool) (eager : Bool) (sort : List α → List α) (xs : List α) :
    List α :=
  let n := xs.length
  let scale := (0x4000000000000000 + n - 1) / n
  match cutRuns precedes eager (goodLength n) n xs with
  | [] => []
  | r :: runs => (joinRuns (Run.join precedes sort) scale [] 0 r runs).settle sort

/-! ## Partition -/

/-- The middle one of three positions. -/
def median (before : Nat → Nat → Bool) (a b c : Nat) : Nat :=
  let x := before a b
  if x == before a c then if before b c != x then c else b else a

/-- A position near the middle of eight blocks of `n` items from `base` on. -/
def pseudoMedian (before : Nat → Nat → Bool) (base n : Nat) : Nat :=
  if 8 ≤ n then
    median before (pseudoMedian before base (n / 8)) (pseudoMedian before (base + 4 * n) (n / 8))
      (pseudoMedian before (base + 7 * n) (n / 8))
  else median before base (base + 4 * n) (base + 7 * n)
termination_by n

/-- An item near the middle. -/
def pivot? (precedes : α → α → Bool) (xs : List α) : Option α :=
  let items := xs.toArray
  let before (i j : Nat) : Bool :=
    ((items[i]?).bind fun x => (items[j]?).map fun y => precedes x y).getD false
  items[pseudoMedian before 0 (items.size / 8)]?

/-- Sorts what precedes a pivot and what does not.  If nothing precedes it, or if the pivot before
it does not, the items that equal it are set aside.  After `limit` pivots runs are joined. -/
def quicksort (precedes : α → α → Bool) : (limit : Nat) → (ancestor : Option α) → List α → List α
  | 0, _, xs =>
    if xs.length ≤ pieceLimit then sortPiece precedes xs else runSort precedes true id xs
  | limit + 1, ancestor, xs =>
    if xs.length ≤ pieceLimit then sortPiece precedes xs
    else match pivot? precedes xs with
      | none => xs
      | some p =>
        let (below, others) := xs.partition (precedes · p)
        if below.isEmpty || ancestor.any (!precedes · p) then
          let (same, above) := xs.partition (!precedes p ·)
          same ++ quicksort precedes limit none above
        else
          quicksort precedes limit ancestor below ++ quicksort precedes limit (some p) others

/-! ## The whole method -/

/-- Short lists by insertion, others by their runs. -/
def adaptiveSort (precedes : α → α → Bool) (xs : List α) : List α :=
  if xs.length ≤ 20 then insertionSort precedes xs
  else
    runSort precedes (xs.length ≤ 2 * pieceLimit)
      (fun ys => quicksort precedes (2 * ys.length.log2) none ys) xs

end SlotStore.Sorting
