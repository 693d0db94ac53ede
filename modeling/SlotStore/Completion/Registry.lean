import SlotStore.Completion

/-!
# Completions by name

Several names may stand for one completion, and a name may come to stand for another.  The right to
decide a completion belongs to the name it was made under, until it is used, given up, or lost to a
later completion of that name.

* `Registry.pending`, `Registry.watch`, `Registry.share` : what a name stands for;
* `Registry.complete`, `Registry.abandon` : the right to decide;
* `Registry.completion?` : how far the task has come.
-/

namespace SlotStore

/-- Completions, the names that stand for them, and the names that may decide them. -/
structure Registry where
  /-- Completions by their numbers. -/
  completions : List Completion
  /-- What names stand for, the latest first. -/
  watched : List (String × Nat)
  /-- What names may decide. -/
  owned : List (String × Nat)
deriving Repr, Inhabited

namespace Registry

def empty : Registry := ⟨[], [], []⟩

/-- The completion that a name stands for. -/
def completion? (name : String) (r : Registry) : Option Completion :=
  (r.watched.lookup name).bind fun n => r.completions[n]?

/-- Uses up the right of a name to decide. -/
def settle (change : Completion → Completion) (name : String) (r : Registry) : Registry :=
  match r.owned.lookup name with
  | none => r
  | some n =>
    { r with
      completions := r.completions.modify n change
      owned := r.owned.filter fun o => o.1 != name }

/-- Reports the outcome, if the name may still decide. -/
def complete (outcome : Except Error Unit) (name : String) (r : Registry) : Registry :=
  r.settle (·.complete outcome) name

/-- Gives the task up, if the name may still decide. -/
def abandon (name : String) (r : Registry) : Registry := r.settle (·.abandon) name

/-- A name for one more completion. -/
def watch (name : String) (c : Completion) (r : Registry) : Registry :=
  { r with
    completions := r.completions ++ [c]
    watched := (name, r.completions.length) :: r.watched }

/-- A name for a completion that it may decide.  A completion that it could decide before is given
up. -/
def pending (name : String) (r : Registry) : Registry :=
  let r := r.abandon name
  { r.watch name .pending with owned := (name, r.completions.length) :: r.owned }

/-- A name for the completion of another name. -/
def share (source name : String) (r : Registry) : Registry :=
  match r.watched.lookup source with
  | none => r
  | some n => { r with watched := (name, n) :: r.watched }

end Registry

end SlotStore
