import SlotStore.Lock.Gate
import SlotStore.Lock.KeyLocks

/-!
# Parties waiting for locks

Any number of parties wait for one lock, for locks by key, or at a gate.  Whenever something
happens, those whose wait is over end it, the first to arrive going first.  A wait may be bounded,
and ends when its token is cancelled.

* `Door` : what parties wait for;
* `Hall.arrive` : a party begins to wait;
* `Hall.change`, `Hall.cancel`, `Hall.advance` : what may end waits;
* `Hall.await` : the outcome of a party's wait;
* `Hall.keep`, `Hall.letGo` : holds kept under names.
-/

namespace SlotStore

/-- What parties wait for: how they arrive, what they find, how they depart, and how those who
entered give up their hold. -/
structure Door (σ : Type) where
  arrive : Key → LockMode → σ → Except Error σ
  look? : Key → LockMode → (cancelled expired : Bool) → σ → Option WaitEnd
  depart : Key → LockMode → WaitEnd → σ → σ
  leave : Key → LockMode → σ → Except Error Unit × σ

namespace Door

/-- A single lock; keys play no part. -/
def lock : Door Lock where
  arrive _ mode l := .ok (l.arrive mode)
  look? _ := Lock.look?
  depart _ := Lock.depart
  leave _ := Lock.release

/-- Locks by key. -/
def keyLocks : Door KeyLocks where
  arrive := KeyLocks.arrive
  look? := KeyLocks.look?
  depart := KeyLocks.depart
  leave := KeyLocks.leave

/-- A gate; keys play no part. -/
def gate : Door Gate where
  arrive _ := Gate.arrive
  look? _ := Gate.look?
  depart _ := Gate.depart
  leave _ mode g := (.ok (), g.leave mode)

/-- The same door for parties whose guards are worth nothing: a hold outlives its guard. -/
def unguarded {σ : Type} (d : Door σ) : Door σ := { d with leave := fun _ _ s => (.ok (), s) }

/-- A party that does not wait. -/
def attempt {σ : Type} (d : Door σ) (k : Key) (mode : LockMode) (cancelled : Bool) (s : σ) :
    Except Error WaitEnd × σ :=
  match d.arrive k mode s with
  | .error e => (.error e, s)
  | .ok s =>
    let result := (d.look? k mode cancelled true s).getD .timedOut
    (.ok result, d.depart k mode result s)

end Door

/-- A party that waits, or has ended its wait. -/
structure Party where
  name : String
  key : Key
  mode : LockMode
  /-- What cancels the wait. -/
  token : Option String
  /-- When the wait ends at the latest. -/
  deadline : Option Nat
  outcome : Option (Except Error WaitEnd)

/-- A hold that is kept under a name. -/
structure Guard where
  name : String
  key : Key
  mode : LockMode
deriving DecidableEq, Repr

/-- Parties and what they wait for. -/
structure Hall (σ : Type) where
  place : σ
  /-- In the order of their arrival. -/
  parties : List Party
  guards : List Guard
  /-- Tokens that were cancelled. -/
  cancelled : List String
  clock : Nat

namespace Hall

variable {σ : Type}

/-- Nobody waits. -/
def ofPlace (s : σ) : Hall σ := ⟨s, [], [], [], 0⟩

def isCancelled (h : Hall σ) (token : Option String) : Bool :=
  token.any fun t => h.cancelled.contains t

/-- What a party finds. -/
def finds? (d : Door σ) (h : Hall σ) (p : Party) : Option WaitEnd :=
  if p.outcome.isSome then none
  else
    let expired := p.deadline.any fun t => t ≤ h.clock
    d.look? p.key p.mode (h.isCancelled p.token) expired h.place

/-- Ends the wait of the first party whose wait is over, among some; `none` if there is none. -/
def settleFirst? (d : Door σ) (h : Hall σ) : List Party → Option (σ × List Party)
  | [] => none
  | p :: ps =>
    match h.finds? d p with
    | some result =>
      some (d.depart p.key p.mode result h.place, { p with outcome := some (.ok result) } :: ps)
    | none => (settleFirst? d h ps).map fun (s, ps) => (s, p :: ps)

/-- Ends at most `fuel` waits that are over. -/
def settleWith (d : Door σ) : (fuel : Nat) → Hall σ → Hall σ
  | 0, h => h
  | fuel + 1, h =>
    match h.settleFirst? d h.parties with
    | none => h
    | some (place, parties) => settleWith d fuel { h with place, parties }

/-- Ends all waits that are over. -/
def settle (d : Door σ) (h : Hall σ) : Hall σ := h.settleWith d h.parties.length

/-- A change of what the parties wait for. -/
def change {α : Type} (d : Door σ) (act : σ → α × σ) (h : Hall σ) : α × Hall σ :=
  let (x, place) := act h.place
  (x, { h with place }.settle d)

/-- Cancels a token for good. -/
def cancel (d : Door σ) (token : String) (h : Hall σ) : Hall σ :=
  { h with cancelled := token :: h.cancelled }.settle d

/-- The deadlines that waiting parties have up to a time, the earliest first. -/
def deadlines (h : Hall σ) (time : Nat) : List Nat :=
  let waiting := h.parties.filter fun p => p.outcome.isNone
  ((waiting.filterMap (·.deadline)).filter (· ≤ time)).mergeSort

/-- Lets time pass up to a moment. -/
def advance (d : Door σ) (time : Nat) (h : Hall σ) : Hall σ :=
  let h := (h.deadlines time).foldl (fun h t => { h with clock := max h.clock t }.settle d) h
  { h with clock := max h.clock time }.settle d

/-- A party begins to wait, for a while or without bound. -/
def arrive (d : Door σ) (name : String) (k : Key) (mode : LockMode) (token : Option String)
    (patience : Option Nat) (h : Hall σ) : Hall σ :=
  let party (outcome : Option (Except Error WaitEnd)) : Party :=
    ⟨name, k, mode, token, patience.map (h.clock + ·), outcome⟩
  match d.arrive k mode h.place with
  | .error e => { h with parties := h.parties ++ [party (some (.error e))] }
  | .ok place => { h with place, parties := h.parties ++ [party none] }.settle d

/-- The party of a name. -/
def party? (h : Hall σ) (name : String) : Option Party := h.parties.find? fun p => p.name == name

/-- Lets time pass until the wait of a party ends, and gives its outcome.  There is none if there is
no such party, or if its wait has no bound and nobody else does anything. -/
def await (d : Door σ) (name : String) (h : Hall σ) :
    Option (Party × Except Error WaitEnd) × Hall σ :=
  let h := match h.party? name with
    | some { outcome := none, deadline := some t, .. } => h.advance d t
    | _ => h
  match h.party? name with
  | some p =>
    match p.outcome with
    | some result =>
      (some (p, result), { h with parties := h.parties.eraseP fun q => q.name == name })
    | none => (none, h)
  | none => (none, h)

/-! ## Holds -/

/-- Gives up the hold that is kept under a name, if there is one. -/
def letGo (d : Door σ) (name : String) (h : Hall σ) : Option (Except Error Unit) × Hall σ :=
  match h.guards.find? fun g => g.name == name with
  | none => (none, h)
  | some g =>
    let kept := h.guards.filter fun g => g.name != name
    let (result, h) := { h with guards := kept }.change d (d.leave g.key g.mode)
    (some result, h)

/-- Keeps the hold of a party that entered, in place of the one that was kept under the name. -/
def keep (d : Door σ) (name : String) (p : Party) (h : Hall σ) : Hall σ :=
  let h := (h.letGo d name).2
  { h with guards := ⟨name, p.key, p.mode⟩ :: h.guards }

end Hall

end SlotStore
