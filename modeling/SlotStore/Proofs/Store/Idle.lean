import Mathlib.Tactic.Common
import SlotStore.Proofs.Volume.Rebuild
import SlotStore.Store.Entities
import SlotStore.Store.Lifecycle

/-!
# Operations on an idle store

Between two operations nobody is inside the gate of a store or holds the lock of a key.  An
operation then passes the gate and takes its lock at once, and gives both back whatever comes of it.
A store that was closed lets no operation pass and stays as it is.

* `Store.Idle`, `Store.Shut` : an open store and a closed one between two operations;
* `Store.throughGate_idle`, `Store.throughGate_shut` : passing the gate for an action;
* `Store.find_idle`, `Store.find_shut` : passing the gate and taking the lock of a key;
* `Store.Poised` : an idle store whose table is ready;
* `Store.Serves` : an idle store that holds payloads.
-/

namespace SlotStore

/-! ## Gate and locks that nobody else uses -/

namespace Gate

/-- A gate that one party has passed. -/
def passed (mode : LockMode) : Gate := ⟨(Lock.free.arrive mode).depart mode .entered, false⟩

variable {mode : LockMode}

/-- An open gate lets a party through. -/
lemma attempt_opened :
    Door.gate.attempt Key.reserved mode false .opened = (.ok .entered, .passed mode) := by
  cases mode <;> rfl

/-- A closed gate lets nobody through. -/
lemma attempt_closed {g : Gate} (hg : g.closed = true) {cancelled : Bool} :
    Door.gate.attempt Key.reserved mode cancelled g = (.error .closed, g) := by
  have harrive : Door.gate.arrive Key.reserved mode g = .error .closed := by
    show (if g.closed then _ else _) = _
    rw [if_pos hg]
  rw [Door.attempt, harrive]

lemma leave_passed : (passed mode).leave mode = .opened := by
  cases mode <;> rfl

end Gate

namespace KeyLocks

/-- The lock of one key, and no other. -/
def only (k : Key) (lock : Lock) : KeyLocks := ⟨Keyed.empty.put ⟨k, 1, lock⟩, false⟩

variable {k : Key} {lock : Lock} {mode : LockMode}

lemma slot_only : (only k lock).slot k = ⟨k, 1, lock⟩ := by
  rw [slot, only, Keyed.get?_put, if_pos rfl]
  rfl

lemma onLock_only (change : Lock → Lock) :
    (only k lock).onLock k change = only k (change lock) := by
  rw [onLock, slot_only]
  simp [only, Keyed.put, Keyed.erase, Keyed.empty]

lemma giveBack_only : (only k lock).giveBack k = .empty := by
  rw [giveBack, slot_only]
  simp [only, empty, Keyed.put, Keyed.erase, Keyed.empty]

/-- The locks while one party holds that of a key. -/
def holding (k : Key) (mode : LockMode) : KeyLocks :=
  only k ((Lock.free.arrive mode).depart mode .entered)

lemma attempt_empty :
    Door.keyLocks.attempt k mode false .empty = (.ok .entered, .holding k mode) := by
  have harrive : Door.keyLocks.arrive k mode .empty = .ok (only k (Lock.free.arrive mode)) := rfl
  have hlook : Door.keyLocks.look? k mode false true (only k (Lock.free.arrive mode)) =
      some .entered := by
    show ((only k (Lock.free.arrive mode)).slot k).lock.look? mode false true = some .entered
    rw [slot_only]
    cases mode <;> rfl
  have hdepart : Door.keyLocks.depart k mode .entered (only k (Lock.free.arrive mode)) =
      holding k mode := onLock_only _
  rw [Door.attempt, harrive]
  dsimp only
  rw [hlook, Option.getD_some, hdepart]

lemma leave_holding : ((holding k mode).leave k mode).2 = .empty := by
  rw [holding, leave]
  dsimp only
  rw [onLock_only, giveBack_only]

end KeyLocks

namespace Store

open Steps

variable {α : Type} {s : Store} {k : Key} {mode : LockMode} {act : StoreM α}

/-- **An open store between two operations.** -/
structure Idle (s : Store) : Prop where
  gate : s.gate = .opened
  locks : s.locks = .empty
  cancelled : s.cancelled = false
  closed : s.closed = false

/-- **A closed store.** -/
structure Shut (s : Store) : Prop where
  gate : s.gate.closed = true
  closed : s.closed = true

/-! ## Through the gate -/

/-- A store whose gate one party has passed. -/
def inside (mode : LockMode) (s : Store) : Store := { s with gate := .passed mode }

/-- A store as the last party to leave it leaves it. -/
def rested (s : Store) : Store := { s with gate := .opened, locks := .empty }

lemma Idle.rested (hi : s.Idle) : s.rested = s := by
  rw [Store.rested, ← hi.gate, ← hi.locks]

lemma unbounded_idle (hi : s.Idle) : s.unbounded = ⟨none, some false⟩ := by
  rw [unbounded, hi.cancelled]

/-- Whoever comes to an idle store is inside. -/
lemma enterGate_idle (hi : s.Idle) {p : Patience} (hp : p.cancelled ≠ some true) :
    enterGate mode p s = .ok true (s.inside mode) := by
  rw [enterGate, get_bind, decide_eq_false hp, hi.gate, Gate.attempt_opened]
  rfl

/-- Nobody gets into a store that is shut. -/
lemma enterGate_shut (hs : s.Shut) {p : Patience} : enterGate mode p s = .error .closed s := by
  rw [enterGate, get_bind, Gate.attempt_closed hs.gate]
  rfl

/-- The result of an action whose state is changed afterwards. -/
def after (change : Store → Store) : EStateM.Result Error Store α → EStateM.Result Error Store α
  | .ok x s => .ok x (change s)
  | .error e s => .error e (change s)

/-- What is ensured is done after a success and after a failure. -/
lemma ensuring_eq (change : Store → Store) : ensuring change act s = after change (act s) := by
  rw [ensuring]
  cases act s <;> rfl

lemma final_after (change : Store → Store) (r : EStateM.Result Error Store α) :
    final (after change r) = change (final r) := by
  cases r <;> rfl

lemma final_orFail (r : Except Error α) (s : Store) : final (orFail r s) = s := by
  cases r <;> rfl

lemma maintains_orFail {P : Store → Prop} (r : Except Error α) : Maintains P (orFail r) :=
  fun s hs => by rwa [final_orFail]

lemma ensureOpen_inside (hi : s.Idle) : ensureOpen (s.inside mode) = .ok () (s.inside mode) := by
  rw [ensureOpen, get_bind, if_neg (by rw [inside, hi.closed]; exact Bool.false_ne_true)]
  rfl

/-- **An action behind the gate** of an idle store. -/
lemma throughGate_idle (hi : s.Idle) :
    throughGate mode act s = after (leaveGate mode) (act (s.inside mode)) := by
  have hpatience : s.unbounded.cancelled ≠ some true := by
    rw [unbounded_idle hi]
    exact fun h => by cases h
  rw [throughGate, get_bind, bind_of_ok (enterGate_idle hi hpatience), if_pos rfl, ensuring_eq,
    bind_of_ok (ensureOpen_inside hi)]

/-- Nothing is done in a store that is shut. -/
lemma throughGate_shut (hs : s.Shut) : throughGate mode act s = .error .closed s := by
  rw [throughGate, get_bind, bind_of_error (enterGate_shut hs)]

/-- Leaving the gate leaves the store at rest. -/
lemma leaveGate_passed {t : Store} (hg : t.gate = .passed mode) (hl : t.locks = .empty) :
    leaveGate mode t = t.rested := by
  rw [leaveGate, hg, Gate.leave_passed, rested, ← hl]

lemma Idle.leaveGate_inside (hi : s.Idle) (mode : LockMode) :
    leaveGate mode (s.inside mode) = s :=
  have hgate : (s.inside mode).gate = .passed mode := rfl
  (leaveGate_passed hgate hi.locks).trans hi.rested

/-! ## Holding the lock of a key -/

/-- A store in which one party holds the lock of a key. -/
def holding (k : Key) (mode : LockMode) (s : Store) : Store :=
  { s with gate := .passed .shared, locks := .holding k mode }

/-- Finishing leaves the store at rest. -/
lemma finish_holding {t : Store} (hg : t.gate = .passed .shared) (hl : t.locks = .holding k mode) :
    finish k mode t = t.rested := by
  rw [finish, leaveGate, hg, hl, KeyLocks.leave_holding, Gate.leave_passed, rested]

lemma recovering_of_ok {change : Store → Store} {x : α} {t : Store} (h : act s = .ok x t) :
    recovering change act s = .ok x t := by
  rw [recovering, h]

/-- The lock of a key is free for whoever is inside. -/
lemma lockKey_inside (hi : s.Idle) {p : Patience} (hp : p.cancelled ≠ some true) :
    lockKey k mode p (s.inside .shared) = .ok true (s.holding k mode) := by
  have hlocks : (s.inside .shared).locks = .empty := hi.locks
  rw [lockKey, get_bind, decide_eq_false hp, hlocks, KeyLocks.attempt_empty]
  rfl

/-- The live entry of a key. -/
def live? (s : Store) (k : Key) : Option Entry := (s.toc.find? k).filter fun e => !e.isFree

/-- **A ready table answers at once.** -/
lemma lookup_ready {p : Patience} (hready : s.toc.ready = true)
    (hreserved : k.isReserved = true → s.toc.find? k = none) :
    lookup k p s = .ok (some (s.live? k)) s := by
  rw [lookup, get_bind]
  by_cases hk : k.isReserved = true
  · rw [if_pos hk, live?, hreserved hk]
    rfl
  · rw [if_neg hk, if_pos (show _ ∨ s.toc.ready = true from Or.inr hready)]
    rfl

/-- **The search for an entity** in an idle store gets as far as the table, and holds the lock of
the key if there is a live entry. -/
lemma find_idle (hi : s.Idle) (hready : s.toc.ready = true)
    (hreserved : k.isReserved = true → s.toc.find? k = none) :
    find k mode ⟨none, some false⟩ s = match s.live? k with
      | some e => .ok (.held e) (s.holding k mode)
      | none => .ok .absent s := by
  have hp : (⟨none, some false⟩ : Patience).cancelled ≠ some true := fun h => by cases h
  have hlookup : lookup k ⟨none, some false⟩ (s.holding k mode) =
      .ok (some (s.live? k)) (s.holding k mode) := lookup_ready hready hreserved
  rw [find, bind_of_ok (enterGate_idle hi hp), if_pos rfl,
    bind_of_ok (recovering_of_ok (ensureOpen_inside hi)),
    bind_of_ok (recovering_of_ok (lockKey_inside hi hp)), if_pos rfl,
    bind_of_ok (recovering_of_ok hlookup)]
  cases s.live? k with
  | some e => rfl
  | none =>
    have hfinish : finish k mode (s.holding k mode) = s :=
      (finish_holding rfl rfl).trans hi.rested
    exact congrArg (EStateM.Result.ok Found.absent) hfinish

/-- Nothing is found in a store that is shut. -/
lemma find_shut (hs : s.Shut) {p : Patience} : find k mode p s = .error .closed s := by
  rw [find, bind_of_error (enterGate_shut hs)]

lemma patiently_idle (hi : s.Idle) {act : Patience → StoreM (Option α)} :
    patiently act s = match act ⟨none, some false⟩ s with
      | .ok (some x) s => .ok x s
      | .ok none s => .error (.concurrency .waitEnded) s
      | .error e s => .error e s := by
  rw [patiently, get_bind, unbounded_idle hi]
  simp only [bind, EStateM.bind]
  rcases act ⟨none, some false⟩ s with ⟨_ | _, _⟩ | ⟨_, _⟩ <;> rfl

lemma patiently_error {act : Patience → StoreM (Option α)} {e : Error} {t : Store}
    (h : ∀ p, act p s = .error e t) : patiently act s = .error e t := by
  rw [patiently, get_bind, bind_of_error (h _)]

/-! ## What a store serves -/

/-- **An open store whose table is ready**, and has no entry for the reserved key. -/
structure Poised (s : Store) : Prop where
  idle : s.Idle
  ready : s.toc.ready = true
  signal : s.toc.signal = .succeeded
  reserved : ∀ {k}, k.isReserved = true → s.toc.find? k = none

/-- **An open store between two operations** that holds payloads under keys. -/
structure Serves (s : Store) (held : Key → Option Bytes) (used : List Key) (drawn : Nat) :
    Prop where
  idle : s.Idle
  holds : s.volume.Holds held used drawn

section Serves

variable {t : Store} {held : Key → Option Bytes} {used : List Key} {drawn : Nat}

/-- A store that serves finds its entities. -/
lemma Serves.poised (hs : s.Serves held used drawn) : s.Poised := by
  obtain ⟨row, hsound⟩ := hs.holds.sound
  exact ⟨hs.idle, hsound.ready, hsound.signal, hsound.find?_reserved⟩

/-- A store serves again when the gate is left. -/
lemma Serves.of_leaveGate (hg : t.gate = .passed mode) (hl : t.locks = .empty)
    (hcancelled : t.cancelled = false) (hclosed : t.closed = false)
    (hv : t.volume.Holds held used drawn) : (leaveGate mode t).Serves held used drawn := by
  rw [leaveGate_passed hg hl]
  exact ⟨⟨rfl, rfl, hcancelled, hclosed⟩, hv⟩

end Serves

end Store

end SlotStore
