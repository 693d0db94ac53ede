import Mathlib.Tactic.Common
import SlotStore.Proofs.Store.Idle

/-!
# Operations on a store at rest

A store is at rest while nobody is inside its gate and no key is locked.  It may be closed, its
token may be cancelled, its table may not be ready, and nothing is known of what is in its file.
Even then it is clear how far an operation gets: what it is told at the gate, at the lock and by the
table is computed here from the store, and whatever it does behind them it does with both held.

* `Store.Resting` : a store at rest;
* `Store.admitted`, `Store.throughGate_resting`, `Store.throughGate_cases` : an action behind the
  gate;
* `Store.found`, `Store.find_resting`, `Store.find_cases` : the search for an entity, and what
  follows it;
* `Store.got`, `Store.get?_resting` : what a reader is told.
-/

namespace SlotStore

namespace Gate

variable {g : Gate} {mode : LockMode}

/-- At a gate that nobody has passed whoever is let in passes at once. -/
lemma attempt_free (hg : g.lock = .free) (cancelled : Bool) :
    Door.gate.attempt Key.reserved mode cancelled g =
      if g.closed then (.error .closed, g)
      else if cancelled then (.ok .cancelled, g) else (.ok .entered, .passed mode) := by
  obtain ⟨lock, closed⟩ := g
  obtain rfl : lock = .free := hg
  cases closed <;> cases cancelled <;> cases mode <;> rfl

end Gate

namespace KeyLocks

variable {m : KeyLocks} {k : Key} {mode : LockMode}

lemma depart_only_cancelled {lock : Lock} : (only k lock).depart k mode .cancelled = .empty := by
  show ((only k lock).onLock k (·.depart mode .cancelled)).giveBack k = .empty
  rw [onLock_only, giveBack_only]

/-- Where no key is locked whoever is let in takes the lock at once. -/
lemma attempt_unlocked (hm : m.slots = .empty) (cancelled : Bool) :
    Door.keyLocks.attempt k mode cancelled m =
      if m.closed then (.error (.concurrency .managerClosed), m)
      else if cancelled then (.ok .cancelled, m) else (.ok .entered, .holding k mode) := by
  obtain ⟨slots, closed⟩ := m
  obtain rfl : slots = .empty := hm
  cases closed with
  | true => rfl
  | false =>
    cases cancelled with
    | false => exact attempt_empty
    | true =>
      have harrive : Door.keyLocks.arrive k mode ⟨.empty, false⟩ =
          .ok (only k (Lock.free.arrive mode)) := rfl
      rw [Door.attempt, harrive]
      exact congrArg (Prod.mk _) depart_only_cancelled

end KeyLocks

namespace Store

open Steps

variable {α β : Type} {s t : Store} {k : Key} {mode : LockMode} {act : StoreM α} {p : Patience}
  {c : Coding α}

/-- **A store at rest**: nobody is inside the gate, and no key is locked. -/
structure Resting (s : Store) : Prop where
  gate : s.gate.lock = .free
  locks : s.locks.slots = .empty

lemma Idle.resting (hi : s.Idle) : s.Resting :=
  ⟨by rw [hi.gate]; rfl, by rw [hi.locks]; rfl⟩

/-- What an action with a known result gives. -/
lemma orFail_bind (r : Except Error α) (next : α → StoreM β) :
    (orFail r >>= next) s = match r with
      | .ok x => next x s
      | .error e => .error e s := by
  cases r <;> rfl

/-! ## The gate -/

/-- What a party is told at the gate of a store at rest, and by the store behind it. -/
def admitted (s : Store) (p : Patience) : Except Error Unit :=
  if s.gate.closed then .error .closed
  else if p.cancelled = some true then .error .cancelled
  else if s.closed then .error .closed
  else .ok ()

/-- Whoever is admitted finds the gate open. -/
lemma gate_open_of_admitted (h : s.admitted p = .ok ()) : ¬ s.gate.closed = true := by
  intro hclosed
  rw [admitted, if_pos hclosed] at h
  cases h

/-- **Whoever comes to a store at rest** is inside, unless it is closed or the party cancelled. -/
lemma enterGate_resting (hr : s.Resting) : enterGate mode p s =
    if s.gate.closed then .error .closed s
    else if p.cancelled = some true then .error .cancelled s else .ok true (s.inside mode) := by
  rw [enterGate, get_bind, Gate.attempt_free hr.gate]
  by_cases hclosed : s.gate.closed = true
  · simp only [hclosed, if_true]
    rfl
  · by_cases hcancelled : p.cancelled = some true
    · simp only [hclosed, hcancelled, decide_true, if_true, if_false, Bool.false_eq_true]
      rfl
    · simp only [hclosed, hcancelled, decide_false, if_false, Bool.false_eq_true]
      rfl

/-- The gate of a store at rest is open unless it is closed. -/
lemma Resting.gate_opened (hr : s.Resting) (hopen : ¬ s.gate.closed = true) : s.gate = .opened := by
  have hlock := hr.gate
  cases hg : s.gate with
  | mk lock closed =>
    rw [hg] at hlock hopen
    obtain rfl : lock = .free := hlock
    cases closed with
    | true => exact absurd rfl hopen
    | false => rfl

/-- No key of a store at rest is locked unless the locks are closed. -/
lemma Resting.locks_empty (hr : s.Resting) (hopen : ¬ s.locks.closed = true) :
    s.locks = .empty := by
  have hslots := hr.locks
  cases hl : s.locks with
  | mk slots closed =>
    rw [hl] at hslots hopen
    obtain rfl : slots = .empty := hslots
    cases closed with
    | true => exact absurd rfl hopen
    | false => rfl

/-- Whoever leaves leaves the store as it was. -/
lemma leaveGate_inside (hopen : s.gate = .opened) (mode : LockMode) :
    leaveGate mode (s.inside mode) = s := by
  rw [leaveGate, inside, Gate.leave_passed, ← hopen]

/-- **An action behind the gate** of a store at rest. -/
lemma throughGate_resting (hr : s.Resting) : throughGate mode act s =
    match s.admitted s.unbounded with
    | .error e => .error e s
    | .ok () => after (leaveGate mode) (act (s.inside mode)) := by
  rw [throughGate, get_bind, admitted]
  by_cases hclosed : s.gate.closed = true
  · have henter : enterGate mode s.unbounded s = .error .closed s := by
      rw [enterGate_resting hr, if_pos hclosed]
    rw [bind_of_error henter, if_pos hclosed]
  · by_cases hcancelled : s.unbounded.cancelled = some true
    · have henter : enterGate mode s.unbounded s = .error .cancelled s := by
        rw [enterGate_resting hr, if_neg hclosed, if_pos hcancelled]
      rw [bind_of_error henter, if_neg hclosed, if_pos hcancelled]
    · have henter : enterGate mode s.unbounded s = .ok true (s.inside mode) := by
        rw [enterGate_resting hr, if_neg hclosed, if_neg hcancelled]
      rw [bind_of_ok henter, if_pos rfl, if_neg hclosed, if_neg hcancelled, ensuring_eq]
      have hleave := leaveGate_inside (hr.gate_opened hclosed) mode
      by_cases hshut : s.closed = true
      · have hensure : ensureOpen (s.inside mode) = .error .closed (s.inside mode) := by
          rw [ensureOpen, get_bind, if_pos (show (s.inside mode).closed = true from hshut)]
          rfl
        rw [bind_of_error hensure, if_pos hshut, after, hleave]
      · have hensure : ensureOpen (s.inside mode) = .ok () (s.inside mode) := by
          rw [ensureOpen, get_bind, if_neg (show ¬ (s.inside mode).closed = true from hshut)]
          rfl
        rw [bind_of_ok hensure, if_neg hshut]

/-- What holds of a refusal, and of an action behind the gate with the way back. -/
lemma throughGate_cases {Q : EStateM.Result Error Store α → Prop} (hr : s.Resting)
    (hrefused : ∀ e, Q (.error e s))
    (hact : s.gate = .opened → Q (after (leaveGate mode) (act (s.inside mode)))) :
    Q (throughGate mode act s) := by
  rw [throughGate_resting hr]
  cases hadmitted : s.admitted s.unbounded with
  | error e => exact hrefused e
  | ok _ => exact hact (hr.gate_opened (gate_open_of_admitted hadmitted))

/-! ## The lock of a key and the table -/

/-- What a party that waits for the table is told. -/
def awaited (s : Store) (p : Patience) : Except Error Bool :=
  if s.toc.ready then .ok true
  else if p.cancelled = some true then .error .cancelled
  else if p.timeout = some 0 then .ok false
  else match s.toc.signal.outcome? with
    | none => .ok false
    | some outcome => outcome.map fun _ => true

/-- Waiting for the table changes nothing. -/
lemma awaitReady_eq (s : Store) (p : Patience) : awaitReady p s = orFail (s.awaited p) s := by
  rw [awaitReady, get_bind, awaited]
  by_cases hready : s.toc.ready = true
  · rw [if_pos hready, if_pos hready]
    rfl
  · rw [if_neg hready, if_neg hready]
    by_cases hcancelled : p.cancelled = some true
    · rw [if_pos hcancelled]
      simp only [hcancelled, if_true]
      rfl
    · simp only [if_neg hcancelled]
      by_cases htimeout : p.timeout = some 0
      · rw [if_pos htimeout, if_pos htimeout]
        rfl
      · rw [if_neg htimeout, if_neg htimeout]
        cases s.toc.signal.outcome? with
        | none => rfl
        | some outcome => cases outcome <;> rfl

/-- What the table says of a key, if the time is enough. -/
def looked (s : Store) (k : Key) (p : Patience) : Except Error (Option (Option Entry)) :=
  if k.isReserved then .ok (some none)
  else if (s.toc.find? k).isSome ∨ s.toc.ready then .ok (some (s.live? k))
  else (s.awaited p).map fun b => if b then some (s.live? k) else none

/-- Looking a key up changes nothing. -/
lemma lookup_eq (s : Store) (k : Key) (p : Patience) : lookup k p s = orFail (s.looked k p) s := by
  rw [lookup, get_bind, looked]
  split
  · rfl
  · split
    · rfl
    · cases hawait : s.awaited p with
      | error e =>
        have h : awaitReady p s = .error e s := by rw [awaitReady_eq, hawait]; rfl
        rw [bind_of_error h]
        rfl
      | ok b =>
        have h : awaitReady p s = .ok b s := by rw [awaitReady_eq, hawait]; rfl
        rw [bind_of_ok h]
        cases b <;> rfl

/-- **What the search for an entity comes to** in a store at rest. -/
def found (s : Store) (k : Key) (p : Patience) : Except Error Found :=
  match s.admitted p with
  | .error e => .error e
  | .ok () =>
    if s.locks.closed then .error (.concurrency .managerClosed)
    else (s.looked k p).map fun
      | some (some e) => .held e
      | some none => .absent
      | none => .timedOut

/-- The lock of a key is free unless the locks are closed. -/
lemma lockKey_resting (hr : s.Resting) (hp : p.cancelled ≠ some true) :
    lockKey k mode p (s.inside .shared) =
      if s.locks.closed then .error (.concurrency .managerClosed) (s.inside .shared)
      else .ok true (s.holding k mode) := by
  have hslots : (s.inside .shared).locks.slots = .empty := hr.locks
  rw [lockKey, get_bind, KeyLocks.attempt_unlocked hslots, decide_eq_false hp]
  by_cases hclosed : s.locks.closed = true
  · rw [if_pos (show (s.inside .shared).locks.closed = true from hclosed), if_pos hclosed]
    rfl
  · rw [if_neg (show ¬ (s.inside .shared).locks.closed = true from hclosed), if_neg hclosed]
    rfl

lemma finish_holding_resting (hr : s.Resting) (hgate : ¬ s.gate.closed = true)
    (hlocks : ¬ s.locks.closed = true) (v : Volume) (indexes : List FieldIndex) :
    finish k mode { s.holding k mode with volume := v, indexes := indexes } =
      { s with volume := v, indexes := indexes } := by
  rw [finish_holding rfl rfl, rested]
  simp only [holding, hr.gate_opened hgate, hr.locks_empty hlocks]

/-- What the search for an entity finds, taken for the store in which it ends. -/
def foundIn (k : Key) (mode : LockMode) (s : Store) : Except Error Found →
    EStateM.Result Error Store Found
  | .error e => .error e s
  | .ok (.held e) => .ok (.held e) (s.holding k mode)
  | .ok x => .ok x s

/-- **The search for an entity** leaves a store at rest as it is, unless the entity is alive. -/
lemma find_resting (hr : s.Resting) (k : Key) (mode : LockMode) (p : Patience) :
    find k mode p s = foundIn k mode s (s.found k p) := by
  rw [find, found, admitted]
  by_cases hclosed : s.gate.closed = true
  · have henter : enterGate .shared p s = .error .closed s := by
      rw [enterGate_resting hr, if_pos hclosed]
    rw [bind_of_error henter, if_pos hclosed]
    rfl
  · by_cases hcancelled : p.cancelled = some true
    · have henter : enterGate .shared p s = .error .cancelled s := by
        rw [enterGate_resting hr, if_neg hclosed, if_pos hcancelled]
      rw [bind_of_error henter, if_neg hclosed, if_pos hcancelled]
      rfl
    · have henter : enterGate .shared p s = .ok true (s.inside .shared) := by
        rw [enterGate_resting hr, if_neg hclosed, if_neg hcancelled]
      have hleave := leaveGate_inside (hr.gate_opened hclosed) .shared
      rw [bind_of_ok henter, if_pos rfl, if_neg hclosed, if_neg hcancelled]
      by_cases hshut : s.closed = true
      · have hensure : recovering (leaveGate .shared) ensureOpen (s.inside .shared) =
            .error .closed s := by
          rw [recovering, ensureOpen, get_bind,
            if_pos (show (s.inside .shared).closed = true from hshut)]
          exact congrArg (EStateM.Result.error _) hleave
        rw [bind_of_error hensure, if_pos hshut]
        rfl
      · have hensure : recovering (leaveGate .shared) ensureOpen (s.inside .shared) =
            .ok () (s.inside .shared) := by
          rw [recovering, ensureOpen, get_bind,
            if_neg (show ¬ (s.inside .shared).closed = true from hshut)]
          rfl
        rw [bind_of_ok hensure, if_neg hshut]
        dsimp only
        by_cases hlocked : s.locks.closed = true
        · have hlock : recovering (leaveGate .shared) (lockKey k mode p) (s.inside .shared) =
              .error (.concurrency .managerClosed) s := by
            rw [recovering, lockKey_resting hr hcancelled, if_pos hlocked]
            exact congrArg (EStateM.Result.error _) hleave
          rw [bind_of_error hlock, if_pos hlocked]
          rfl
        · have hlock : recovering (leaveGate .shared) (lockKey k mode p) (s.inside .shared) =
              .ok true (s.holding k mode) := by
            rw [recovering, lockKey_resting hr hcancelled, if_neg hlocked]
          have hfinish : finish k mode (s.holding k mode) = s :=
            finish_holding_resting hr hclosed hlocked s.volume s.indexes
          rw [bind_of_ok hlock, if_pos rfl, if_neg hlocked]
          cases hlooked : s.looked k p with
          | error e =>
            have hlookup : recovering (finish k mode) (lookup k p) (s.holding k mode) =
                .error e s := by
              rw [recovering, lookup_eq, show (s.holding k mode).looked k p = s.looked k p from rfl,
                hlooked]
              exact congrArg (EStateM.Result.error _) hfinish
            rw [bind_of_error hlookup]
            rfl
          | ok r =>
            have hlookup : recovering (finish k mode) (lookup k p) (s.holding k mode) =
                .ok r (s.holding k mode) := by
              rw [recovering, lookup_eq, show (s.holding k mode).looked k p = s.looked k p from rfl,
                hlooked]
              rfl
            rw [bind_of_ok hlookup]
            rcases r with _ | _ | e
            · exact congrArg (EStateM.Result.ok _) hfinish
            · exact congrArg (EStateM.Result.ok _) hfinish
            · rfl

/-- What is known of a store in which the search finds an entity. -/
structure Holdable (s : Store) (k : Key) (p : Patience) (e : Entry) : Prop where
  gate : ¬ s.gate.closed = true
  locks : ¬ s.locks.closed = true
  cancelled : p.cancelled ≠ some true
  live : s.live? k = some e
  unreserved : k.isReserved = false

lemma looked_eq_some {e : Entry} (h : s.looked k p = .ok (some (some e))) :
    s.live? k = some e ∧ k.isReserved = false := by
  rw [looked] at h
  split at h
  · cases h
  · rename_i hreserved
    have hunreserved : k.isReserved = false := by simpa using hreserved
    split at h
    · exact ⟨Option.some.inj (Except.ok.inj h), hunreserved⟩
    · cases hawait : s.awaited p with
      | error e' =>
        rw [hawait] at h
        cases h
      | ok b =>
        rw [hawait] at h
        cases b with
        | false => cases h
        | true => exact ⟨Option.some.inj (Except.ok.inj h), hunreserved⟩

lemma found_eq_held {e : Entry} (h : s.found k p = .ok (.held e)) : s.Holdable k p e := by
  rw [found, admitted] at h
  split at h
  · cases h
  · rename_i hadmitted
    split at hadmitted
    · cases hadmitted
    · rename_i hgate
      split at hadmitted
      · cases hadmitted
      · rename_i hcancelled
        split at h
        · cases h
        · rename_i hlocks
          cases hlooked : s.looked k p with
          | error e' =>
            rw [hlooked] at h
            cases h
          | ok r =>
            rw [hlooked] at h
            match r, hlooked, h with
            | some (some e'), hlooked, h =>
              cases h
              obtain ⟨hlive, hunreserved⟩ := looked_eq_some hlooked
              exact ⟨hgate, hlocks, hcancelled, hlive, hunreserved⟩

/-- What holds of a refusal, and of all that may follow the search for an entity. -/
lemma find_cases {next : Found → StoreM α} {Q : EStateM.Result Error Store α → Prop}
    (hr : s.Resting) (hrefused : ∀ e, Q (.error e s)) (htimedOut : Q (next .timedOut s))
    (habsent : Q (next .absent s))
    (hheld : ∀ e, s.Holdable k p e → Q (next (.held e) (s.holding k mode))) :
    Q ((find k mode p >>= next) s) := by
  have hfind := find_resting hr k mode p
  cases hfound : s.found k p with
  | error e =>
    rw [hfound] at hfind
    rw [bind_of_error hfind]
    exact hrefused e
  | ok x =>
    rw [hfound] at hfind
    cases x with
    | timedOut => rwa [bind_of_ok hfind]
    | absent => rwa [bind_of_ok hfind]
    | held e =>
      rw [bind_of_ok hfind]
      exact hheld e (found_eq_held hfound)

/-- **Finishing leaves what was done** to volume and indexes, and nothing else. -/
lemma Holdable.finish_holding {e : Entry} (h : s.Holdable k p e) (hr : s.Resting)
    (mode : LockMode) (v : Volume) (indexes : List FieldIndex) :
    finish k mode { s.holding k mode with volume := v, indexes := indexes } =
      { s with volume := v, indexes := indexes } :=
  finish_holding_resting hr h.gate h.locks v indexes

/-! ## Reading -/

/-- A wait without a bound, by what it comes to. -/
lemma patiently_eq (act : Patience → StoreM (Option α)) (s : Store) : patiently act s =
    match act s.unbounded s with
    | .ok (some x) s => .ok x s
    | .ok none s => .error (.concurrency .waitEnded) s
    | .error e s => .error e s := by
  rw [patiently, get_bind]
  simp only [bind, EStateM.bind]
  rcases act s.unbounded s with ⟨_ | _, _⟩ | ⟨_, _⟩ <;> rfl

/-- An operation that waits as long as it takes leaves what the bounded one leaves. -/
lemma final_patiently (act : Patience → StoreM (Option α)) (s : Store) :
    final (patiently act s) = final (act s.unbounded s) := by
  rw [patiently_eq]
  rcases act s.unbounded s with ⟨_ | _, _⟩ | ⟨_, _⟩ <;> rfl

/-- **What a reader of a key is told**, if the time is enough. -/
def gotWithin (c : Coding α) (k : Key) (p : Patience) (s : Store) :
    Except Error (Option (Option α)) :=
  match s.found k p with
  | .error e => .error e
  | .ok .timedOut => .ok none
  | .ok .absent => .ok (some none)
  | .ok (.held e) =>
    (Volume.readEntry s.file e).bind fun r => (c.decode r.2).map fun x => some (some x)

/-- **What a reader of a key is told** that waits as long as it takes. -/
def got (c : Coding α) (k : Key) (s : Store) : Except Error (Option α) :=
  (s.gotWithin c k s.unbounded).bind fun
    | some x => .ok x
    | none => .error (.concurrency .waitEnded)

/-- **Reading begins** with the payload of a live entry, or fails. -/
lemma hold_payloadOf (hr : s.Resting) : hold k .shared payloadOf p s =
    match s.found k p with
    | .error e => .error e s
    | .ok .timedOut => .ok none s
    | .ok .absent => .ok (some none) s
    | .ok (.held e) =>
      match Volume.readEntry s.file e with
      | .error err => .error err s
      | .ok r => .ok (some (some (e, r.2))) (s.holding k .shared) := by
  have hfind := find_resting hr k .shared p
  rw [hold]
  cases hfound : s.found k p with
  | error e =>
    rw [hfound] at hfind
    rw [bind_of_error hfind]
  | ok x =>
    rw [hfound] at hfind
    cases x with
    | timedOut =>
      rw [bind_of_ok hfind]
      rfl
    | absent =>
      rw [bind_of_ok hfind]
      rfl
    | held e =>
      have hfinish : finish k .shared (s.holding k .shared) = s :=
        (found_eq_held hfound).finish_holding hr .shared s.volume s.indexes
      rw [bind_of_ok hfind]
      dsimp only
      cases hentry : Volume.readEntry s.file e with
      | error err =>
        have hread : payloadOf e (s.holding k .shared) = .error err (s.holding k .shared) := by
          rw [payloadOf, get_bind, orFail_bind]
          simp only [show (s.holding k .shared).file = s.file from rfl, hentry]
        rw [recovering, bind_of_error hread]
        exact congrArg (EStateM.Result.error err) hfinish
      | ok r =>
        have hread : payloadOf e (s.holding k .shared) = .ok r.2 (s.holding k .shared) := by
          rw [payloadOf, get_bind, orFail_bind]
          simp only [show (s.holding k .shared).file = s.file from rfl, hentry]
          rfl
        exact recovering_of_ok ((bind_of_ok hread).trans rfl)

/-- **Reading with a bound** leaves a store at rest as it is. -/
theorem getWithin_resting (hr : s.Resting) :
    getWithin c k p s = orFail (s.gotWithin c k p) s := by
  have hhold := hold_payloadOf (k := k) (p := p) hr
  rw [getWithin, gotWithin]
  cases hfound : s.found k p with
  | error e =>
    rw [hfound] at hhold
    rw [bind_of_error hhold]
    rfl
  | ok x =>
    rw [hfound] at hhold
    cases x with
    | timedOut =>
      rw [bind_of_ok hhold]
      rfl
    | absent =>
      rw [bind_of_ok hhold]
      rfl
    | held e =>
      have hfinish : finish k .shared (s.holding k .shared) = s :=
        (found_eq_held hfound).finish_holding hr .shared s.volume s.indexes
      cases hentry : Volume.readEntry s.file e with
      | error err =>
        simp only [hentry] at hhold
        rw [bind_of_error hhold]
        dsimp only
        rw [hentry]
        rfl
      | ok r =>
        simp only [hentry] at hhold
        rw [bind_of_ok hhold]
        dsimp only
        rw [ensuring_eq, orFail_bind, hentry]
        dsimp only [Except.bind]
        cases c.decode r.2 with
        | ok x => exact congrArg (EStateM.Result.ok _) hfinish
        | error err => exact congrArg (EStateM.Result.error err) hfinish

/-- **Reading** leaves a store at rest as it is. -/
theorem get?_resting (hr : s.Resting) : get? c k s = orFail (s.got c k) s := by
  rw [get?, patiently_eq, getWithin_resting hr, got]
  cases s.gotWithin c k s.unbounded with
  | error e => rfl
  | ok x => cases x <;> rfl

end Store

end SlotStore
