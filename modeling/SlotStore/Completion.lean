import SlotStore.Error

/-!
# Completions

A completion tells how far a task has come.  It is decided once: by the task's outcome, or by the
task being given up.

* `Completion.complete`, `Completion.abandon` : the two ways to decide;
* `Completion.outcome?` : what somebody who waits is told.
-/

namespace SlotStore

/-- How far a task has come. -/
inductive Completion
  | pending
  | succeeded
  | failed (reason : String)
deriving DecidableEq, Repr, Inhabited

namespace Completion

/-- The completion of a task that has ended. -/
def ofOutcome : Except Error Unit → Completion
  | .ok () => succeeded
  | .error e => failed e.message

/-- Reports the outcome; a completion that is decided stays as it is. -/
def complete (outcome : Except Error Unit) : Completion → Completion
  | pending => ofOutcome outcome
  | decided => decided

/-- What is said of a task that nobody will finish. -/
def abandonedReason : String := "task dropped before completion"

/-- Gives the task up; a completion that is decided stays as it is. -/
def abandon : Completion → Completion
  | pending => failed abandonedReason
  | decided => decided

def isComplete : Completion → Bool
  | pending => false
  | _ => true

/-- The outcome, once there is one. -/
def outcome? : Completion → Option (Except Error Unit)
  | pending => none
  | succeeded => some (.ok ())
  | failed reason => some (.error (.background reason))

end Completion

end SlotStore
