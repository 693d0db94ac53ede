import SlotStore.Completion

/-!
# A scheduler of background tasks

Tasks wait in a bounded queue, start in the order they came, and run on a fixed number of workers.
A task may have to wait for somebody to let it go on.  A shut-down scheduler takes no more tasks but
still runs those in its queue.

* `Scheduler.schedule` : takes a task, or fails its completion at once;
* `Scheduler.unblock` : lets a task go on;
* `Scheduler.shutDown` : takes no more tasks.
-/

namespace SlotStore

/-- How the work of a task ends. -/
inductive Work
  | returns (outcome : Except Error Unit)
  | panics
  /-- The work succeeds once somebody lets it go on. -/
  | blocks

/-- A task on its way through a scheduler.  Several tasks may have one name. -/
structure Job where
  /-- How many tasks came before. -/
  number : Nat
  name : String
  work : Work

/-- A scheduler and its tasks. -/
structure Scheduler where
  workers : Nat
  /-- How many tasks may wait. -/
  capacity : Nat
  stopping : Bool
  queue : List Job
  /-- Tasks on a worker, all of them blocked between two operations. -/
  running : List Job
  finished : Nat
  /-- Names of the tasks in the order they started. -/
  started : List String
  /-- Names of the tasks that may go on. -/
  released : List String
  /-- What has become of each task, by its number. -/
  completions : List Completion
  /-- The numbers of names, the latest first. -/
  numbers : List (String × Nat)

namespace Scheduler

/-- A scheduler without tasks; it has at least one worker. -/
def create (workers capacity : Nat) : Scheduler where
  workers := max workers 1
  capacity
  stopping := false
  queue := []
  running := []
  finished := 0
  started := []
  released := []
  completions := []
  numbers := []

/-- What becomes of a task that runs; `none` while it is blocked. -/
def result? (s : Scheduler) (t : Job) : Option Completion :=
  match t.work with
  | .returns outcome => some (.complete outcome .pending)
  | .panics => some (.abandon .pending)
  | .blocks => if s.released.contains t.name then some .succeeded else none

/-- Starts the first tasks in the queue while a worker is free. -/
def start (s : Scheduler) : List Job → Scheduler
  | [] => { s with queue := [] }
  | t :: queue =>
    if s.running.length < s.workers then
      let s := { s with started := s.started ++ [t.name] }
      match s.result? t with
      | some c =>
        start { s with
          finished := s.finished + 1
          completions := s.completions.set t.number c } queue
      | none => start { s with running := s.running ++ [t] } queue
    else { s with queue := t :: queue }

/-- Takes a task.  A refused one has failed at once. -/
def schedule (name : String) (work : Work) (s : Scheduler) : Scheduler :=
  let number := s.completions.length
  let note (c : Completion) : Scheduler :=
    { s with completions := s.completions ++ [c], numbers := (name, number) :: s.numbers }
  let refuse (why : String) : Scheduler := note (.ofOutcome (.error (.background why)))
  if s.stopping then refuse "scheduler is shut down"
  else if s.capacity ≤ s.queue.length then refuse "scheduler queue is full"
  else (note .pending).start (s.queue ++ [⟨number, name, work⟩])

/-- Lets a task go on. -/
def unblock (name : String) (s : Scheduler) : Scheduler :=
  let s := { s with released := name :: s.released }
  let (done, running) := s.running.partition fun t => t.name == name
  let completions := done.foldl (fun cs t => cs.set t.number .succeeded) s.completions
  start { s with running, finished := s.finished + done.length, completions } s.queue

/-- Takes no more tasks. -/
def shutDown (s : Scheduler) : Scheduler := { s with stopping := true }

/-- What has become of the latest task of a name. -/
def completion? (name : String) (s : Scheduler) : Option Completion :=
  (s.numbers.lookup name).bind fun n => s.completions[n]?

end Scheduler

end SlotStore
