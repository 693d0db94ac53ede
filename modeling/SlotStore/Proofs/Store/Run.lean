import Mathlib.Tactic.Common
import SlotStore.Proofs.Store.Lifecycle

/-!
# Runs of a store

A run begins with a store on an empty file and performs one operation after another, as a caller
would, whatever each of them answers.  Nobody else changes the file.

* `Operation`, `Answer`, `Store.perform` : operations and what they answer;
* `Event`, `Run` : runs and their histories;
* `Answers` : what an operation comes to in terms of payloads under keys;
* `Store.Serves.perform`, `Store.Parked.perform` : one step, on an open store and a closed one;
* `Run.stands` : the whole run.
-/

namespace SlotStore

open Steps Volume

variable {α : Type}

/-! ## Operations -/

/-- An operation that a caller asks a store for. -/
inductive Operation (α : Type)
  | add (k : Key) (x : α)
  | get (k : Key)
  | update (k : Key) (x : α)
  | delete (k : Key)
  | contains (k : Key)
  | size
  | keys
  | shrink
  | checkpoint
  /-- The store is closed, and opened again on its file. -/
  | reopen (config : Config)

/-- What a caller is told. -/
inductive Answer (α : Type)
  | done
  | entity (x : Option α)
  | truth (b : Bool)
  | count (n : Nat)
  | keys (ks : List Key)
  | failed (e : Error)

namespace Store

/-- Closes the store and opens one on its file. -/
def reopen (config : Config) : StoreM Unit := do
  close
  let s ← get
  let opened ← orFail (openFile config (.ok s.file.content) s.shadow)
  set opened

/-- What a caller is told of a result. -/
def tell {β : Type} (wrap : β → Answer α) : EStateM.Result Error Store β → Answer α × Store
  | .ok y s => (wrap y, s)
  | .error e s => (.failed e, s)

/-- **An operation is performed**: the answer and the store after it. -/
def perform (c : Coding α) (s : Store) : Operation α → Answer α × Store
  | .add k x => tell (fun _ => .done) (add c k x s)
  | .get k => tell .entity (get? c k s)
  | .update k x => tell (fun _ => .done) (update c k x s)
  | .delete k => tell (fun _ => .done) (delete k s)
  | .contains k => tell .truth (contains k s)
  | .size => tell .count (orFail s.size s)
  | .keys => tell .keys (orFail s.keys s)
  | .shrink => tell (fun _ => .done) (shrink s)
  | .checkpoint => tell (fun _ => .done) (checkpoint s)
  | .reopen config => tell (fun _ => .done) (reopen config s)

/-- How many versions an operation has the table hand out: one for each entity that it goes about to
write. -/
def draws (c : Coding α) (s : Store) : Operation α → Nat
  | .add _ x => if s.closed = false ∧ (c.encode x).toBool = true then 1 else 0
  | .update k x =>
    if s.closed = false ∧ s.live? k ≠ none ∧ (c.encode x).toBool = true then 1 else 0
  | _ => 0

end Store

/-! ## Runs -/

/-- An operation that was performed. -/
structure Event (α : Type) where
  op : Operation α
  answer : Answer α
  /-- How many versions were handed out. -/
  draws : Nat

/-- The key that an operation adds an entity under. -/
def Operation.adds : Operation α → List Key
  | .add k _ => [k]
  | _ => []

/-- The keys that entities were added under, or should have been. -/
def added (h : List (Event α)) : List Key := h.flatMap (·.op.adds)

/-- How many versions were handed out. -/
def drawn : List (Event α) → Nat
  | [] => 0
  | e :: h => drawn h + e.draws

/-- **A run of a store** on a file that was empty at first.  The last event comes first, and each
operation is one that the rules of the run allow. -/
inductive Run (c : Coding α) (Allows : List (Event α) → Store → Operation α → Prop) :
    List (Event α) → Store → Prop
  | opened {config : Config} {shadow : RecordFile.ShadowNode} {s : Store}
    (h : Store.openFile config (.ok .empty) shadow = .ok s) : Run c Allows [] s
  | next {h : List (Event α)} {s : Store} {op : Operation α} (run : Run c Allows h s)
    (allowed : Allows h s op) :
    Run c Allows (⟨op, (s.perform c op).1, s.draws c op⟩ :: h) (s.perform c op).2

/-- Entities are added under new keys only. -/
def Operation.Fresh (h : List (Event α)) : Operation α → Prop
  | .add k _ => k.isReserved = false ∧ k ∉ added h
  | _ => True

/-- A store is opened again on a file that was sealed with its table, or on one whose slots are
scanned. -/
def Operation.Reopens (s : Store) : Operation α → Prop
  | .reopen _ => ∀ s', s.close = .ok () s' → s'.file.isSealed = true ∨ Volume.Bare s'.file.content
  | _ => True

/-! ## What operations come to -/

/-- A list of the keys under which something is held. -/
def Lists {β : Type} (held : Key → Option β) (ks : List Key) : Prop :=
  ks.Nodup ∧ ∀ k, k ∈ ks ↔ (held k).isSome = true

/-- **What an operation comes to**: its answer, and the payloads that are held after it. -/
inductive Answers (c : Coding α) (s : Store) (held : Key → Option Bytes) :
    Operation α → Answer α → (Key → Option Bytes) → Prop
  | added {k : Key} {x : α} {payload : Bytes} (hx : c.encode x = .ok payload) :
    Answers c s held (.add k x) .done fun j => if j = k then some payload else held j
  | addFull {k : Key} {x : α} {payload : Bytes} {e : Error} (hx : c.encode x = .ok payload)
    (hroom : NoRoom s.volume payload e) : Answers c s held (.add k x) (.failed e) held
  | addRefused {k : Key} {x : α} {e : Error} (hx : c.encode x = .error e) :
    Answers c s held (.add k x) (.failed e) held
  | got {k : Key} {x : α} {payload : Bytes} (hk : held k = some payload)
    (hx : c.decode payload = .ok x) : Answers c s held (.get k) (.entity (some x)) held
  | garbled {k : Key} {payload : Bytes} {e : Error} (hk : held k = some payload)
    (hx : c.decode payload = .error e) : Answers c s held (.get k) (.failed e) held
  | missed {k : Key} (hk : held k = none) : Answers c s held (.get k) (.entity none) held
  | updated {k : Key} {x : α} {payload : Bytes} (hk : held k ≠ none)
    (hx : c.encode x = .ok payload) :
    Answers c s held (.update k x) .done fun j => if j = k then some payload else held j
  | updateFull {k : Key} {x : α} {payload : Bytes} {e : Error} (hk : held k ≠ none)
    (hx : c.encode x = .ok payload) (hroom : NoRoom s.volume payload e) :
    Answers c s held (.update k x) (.failed e) held
  | updateRefused {k : Key} {x : α} {e : Error} (hk : held k ≠ none) (hx : c.encode x = .error e) :
    Answers c s held (.update k x) (.failed e) held
  | updateAbsent {k : Key} {x : α} (hk : held k = none) :
    Answers c s held (.update k x) (.failed (.entityNotFound k)) held
  | deleted {k : Key} (hk : held k ≠ none) :
    Answers c s held (.delete k) .done fun j => if j = k then none else held j
  | deleteAbsent {k : Key} (hk : held k = none) :
    Answers c s held (.delete k) (.failed (.entityNotFound k)) held
  | contained {k : Key} : Answers c s held (.contains k) (.truth (held k).isSome) held
  | counted {ks : List Key} (hks : Lists held ks) : Answers c s held .size (.count ks.length) held
  | listed {ks : List Key} (hks : Lists held ks) : Answers c s held .keys (.keys ks) held
  | shrunk : Answers c s held .shrink .done held
  | blocked (hshadow : s.shadow = .directory) :
    Answers c s held .shrink (.failed (.file .isDirectory)) held
  | sealed : Answers c s held .checkpoint .done held
  | unsealed {e : Error} (hseal : NoSeal s.volume) : Answers c s held .checkpoint (.failed e) held
  | reopened {config : Config} : Answers c s held (.reopen config) .done held
  | unopened {config : Config} {e : Error} (h : config.validate = .error e ∨ NoSeal s.volume) :
    Answers c s held (.reopen config) (.failed e) held

namespace Store

variable {s : Store} {held : Key → Option Bytes} {used : List Key} {n : Nat} {c : Coding α}

/-- **A store between two operations**, open or closed, that holds payloads under keys. -/
inductive Stands (s : Store) (held : Key → Option Bytes) (used : List Key) (n : Nat) : Prop
  | serves (h : s.Serves held used n)
  | parked (h : s.Parked held used n)

/-- A store that stands holds its entities, open or shut. -/
lemma Stands.holds (hs : s.Stands held used n) : s.volume.Holds held used n := by
  cases hs with
  | serves h => exact h.holds
  | parked h => exact h.holds

/-- What a store has to be like to be opened again. -/
def Ways (s : Store) (n : Nat) : Prop :=
  ∀ s', s.close = .ok () s' →
    s'.file.isSealed = true ∨ n + 1 < versionLimit ∧ Bare s'.file.content

/-- **A parked store is opened again**, or its configuration is refused. -/
lemma Parked.openFile (hs : s.Parked held used n) (config : Config)
    (hway : s.file.isSealed = true ∨ n + 1 < versionLimit ∧ Bare s.file.content) :
    (∃ s', Store.openFile config (.ok s.file.content) s.shadow = .ok s' ∧ s'.Serves held used n) ∨
      ∃ e, Store.openFile config (.ok s.file.content) s.shadow = .error e ∧
        config.validate = .error e := by
  cases hvalid : config.validate with
  | ok => exact Or.inl (serves_openFile hs.holds hvalid hway s.shadow)
  | error e => exact Or.inr ⟨e, openFile_invalid hvalid, rfl⟩

/-- **A store is opened again** unless it cannot be sealed or the configuration is wrong. -/
theorem Stands.reopen (hs : s.Stands held used n) (config : Config) (hway : s.Ways n) :
    (∃ s', Store.reopen config s = .ok () s' ∧ s'.Serves held used n) ∨
      ∃ e s', Store.reopen config s = .error e s' ∧ s'.Parked held used n ∧
        (config.validate = .error e ∨ NoSeal s.volume) := by
  -- Closed now or before, the store is opened on the file of a closed one.
  have hopens : ∀ s', s.close = .ok () s' → s'.Parked held used n →
      (∃ s'', Store.reopen config s = .ok () s'' ∧ s''.Serves held used n) ∨
        ∃ e s'', Store.reopen config s = .error e s'' ∧ s''.Parked held used n ∧
          (config.validate = .error e ∨ NoSeal s.volume) := by
    intro s' hclose hparked
    rw [Store.reopen, bind_of_ok hclose, get_bind]
    rcases hparked.openFile config (hway s' hclose) with ⟨t, hopen, ht⟩ | ⟨e, hopen, hvalid⟩
    · exact Or.inl ⟨t, by rw [hopen]; rfl, ht⟩
    · exact Or.inr ⟨e, s', by rw [hopen]; rfl, hparked, Or.inl hvalid⟩
  cases hs with
  | serves h =>
    obtain ⟨s', ⟨hclose, _⟩ | ⟨e, hclose, _, hseal⟩, hparked⟩ := h.close
    · exact hopens s' hclose hparked
    · exact Or.inr ⟨e, s', by rw [Store.reopen, bind_of_error hclose], hparked, Or.inr hseal⟩
  | parked h => exact hopens s h.shut.close h

/-- What one step of a run comes to. -/
structure Outcome (c : Coding α) (s : Store) (held : Key → Option Bytes) (op : Operation α)
    (held' : Key → Option Bytes) (used : List Key) (n : Nat) (r : Answer α × Store) : Prop where
  answers : Answers c s held op r.1 held'
  stands : r.2.Stands held' used n
  opened : (∀ config, op ≠ .reopen config) ∨ r.1 = .done → r.2.closed = false

lemma Outcome.of_serves {op : Operation α} {held' : Key → Option Bytes} {r : Answer α × Store}
    (ha : Answers c s held op r.1 held') (hs : r.2.Serves held' used n) :
    Outcome c s held op held' used n r :=
  ⟨ha, .serves hs, fun _ => hs.idle.closed⟩

lemma Serves.use (hs : s.Serves held used n) (k : Key) : s.Serves held (k :: used) n :=
  have ⟨_, hsound⟩ := hs.holds.sound
  ⟨hs.idle, ⟨_, hsound.use k⟩, hs.holds.held⟩

section Step

variable {k : Key} {x : α}

lemma tell_ok {β : Type} {wrap : β → Answer α} {r : EStateM.Result Error Store β} {y : β}
    {s' : Store} (h : r = .ok y s') : tell wrap r = (wrap y, s') := by
  rw [h, tell]

lemma tell_error {β : Type} {wrap : β → Answer α} {r : EStateM.Result Error Store β} {e : Error}
    {s' : Store} (h : r = .error e s') : tell wrap r = (.failed e, s') := by
  rw [h, tell]

/-- **Adding an entity** is answered and leaves the store as the map says. -/
lemma Serves.perform_add (hs : s.Serves held used n) (hr : k.isReserved = false)
    (hfresh : k ∉ used) : ∃ held', Outcome c s held (.add k x) held' (k :: used)
      (n + s.draws c (.add k x)) (s.perform c (.add k x)) := by
  rw [perform]
  cases hx : c.encode x with
  | ok payload =>
    have hdraws : s.draws c (.add k x) = 1 := if_pos ⟨hs.idle.closed, by rw [hx]; rfl⟩
    rw [hdraws]
    rcases hs.add hr hfresh hx with ⟨s', hadd, hs'⟩ | ⟨e, s', hadd, hroom, hs'⟩
    · rw [tell_ok hadd]
      exact ⟨_, .of_serves (.added hx) hs'⟩
    · rw [tell_error hadd]
      exact ⟨_, .of_serves (.addFull hx hroom) (hs'.use k)⟩
  | error e =>
    have hdraws : s.draws c (.add k x) = 0 := if_neg fun h => by
      rw [hx] at h
      cases h.2
    rw [hdraws, tell_error (hs.poised.add_refused hx)]
    exact ⟨_, .of_serves (.addRefused hx) (hs.use k)⟩

/-- **Updating an entity** is answered and leaves the store as the map says. -/
lemma Serves.perform_update (hs : s.Serves held used n) : ∃ held', Outcome c s held (.update k x)
    held' used (n + s.draws c (.update k x)) (s.perform c (.update k x)) := by
  obtain ⟨row, hsound⟩ := hs.holds.sound
  have hlive : s.live? k = none ↔ held k = none := by
    rw [live?_eq_none hsound, hs.holds.held]
  rw [perform]
  by_cases hk : held k = none
  · have hdraws : s.draws c (.update k x) = 0 := if_neg fun h => h.2.1 (hlive.mpr hk)
    rw [hdraws, tell_error (hs.poised.update_absent (hs.live_eq_none hk))]
    exact ⟨_, .of_serves (.updateAbsent hk) hs⟩
  · cases hx : c.encode x with
    | ok payload =>
      have hdraws : s.draws c (.update k x) = 1 :=
        if_pos ⟨hs.idle.closed, hlive.not.mpr hk, by rw [hx]; rfl⟩
      rw [hdraws]
      rcases hs.update hk hx with ⟨s', hupdate, hs'⟩ | ⟨e, s', hupdate, hroom, hs'⟩
      · rw [tell_ok hupdate]
        exact ⟨_, .of_serves (.updated hk hx) hs'⟩
      · rw [tell_error hupdate]
        exact ⟨_, .of_serves (.updateFull hk hx hroom) hs'⟩
    | error e =>
      have hdraws : s.draws c (.update k x) = 0 := if_neg fun h => by
        rw [hx] at h
        cases h.2.2
      obtain ⟨_, hlive⟩ := hs.live hk
      rw [hdraws, tell_error (hs.poised.update_refused hlive hx)]
      exact ⟨_, .of_serves (.updateRefused hk hx) hs⟩

/-- **Deleting an entity** is answered and leaves the store as the map says. -/
lemma Serves.perform_delete (hs : s.Serves held used n) : ∃ held', Outcome c s held (.delete k)
    held' used n (s.perform c (.delete k)) := by
  rw [perform]
  by_cases hk : held k = none
  · rw [tell_error (hs.poised.delete_absent (hs.live_eq_none hk))]
    exact ⟨_, .of_serves (.deleteAbsent hk) hs⟩
  · obtain ⟨s', hdelete, hs'⟩ := hs.delete hk
    rw [tell_ok hdelete]
    exact ⟨_, .of_serves (.deleted hk) hs'⟩

/-- **Reading an entity** is answered as the map says. -/
lemma Serves.perform_get (hs : s.Serves held used n) : ∃ held', Outcome c s held (.get k) held'
    used n (s.perform c (.get k)) := by
  have hget := hs.get? (c := c) (k := k)
  rw [perform]
  cases hk : held k with
  | none =>
    rw [hk] at hget
    rw [tell_ok hget]
    exact ⟨_, .of_serves (.missed hk) hs⟩
  | some payload =>
    rw [hk] at hget
    cases hx : c.decode payload with
    | ok x =>
      simp only [hx] at hget
      rw [tell_ok hget]
      exact ⟨_, .of_serves (.got hk hx) hs⟩
    | error e =>
      simp only [hx] at hget
      rw [tell_error hget]
      exact ⟨_, .of_serves (.garbled hk hx) hs⟩

/-- **Opening the store again** keeps the map. -/
lemma Serves.perform_reopen (hs : s.Serves held used n) {config : Config} (hways : s.Ways n) :
    ∃ held', Outcome c s held (.reopen config) held' used n (s.perform c (.reopen config)) := by
  rw [perform]
  rcases (Stands.serves hs).reopen config hways with
    ⟨s', hreopen, hs'⟩ | ⟨e, s', hreopen, hs', hcause⟩
  · rw [tell_ok hreopen]
    exact ⟨_, .of_serves .reopened hs'⟩
  · rw [tell_error hreopen]
    refine ⟨_, .unopened hcause, .parked hs', ?_⟩
    rintro (h | h)
    · exact absurd rfl (h config)
    · cases h

/-- **One step on an open store.** -/
theorem Serves.perform (hs : s.Serves held used n) (op : Operation α)
    (hfresh : ∀ k x, op = .add k x → k.isReserved = false ∧ k ∉ used)
    (hways : ∀ config, op = .reopen config → s.Ways n) :
    ∃ held', Outcome c s held op held' (op.adds ++ used) (n + s.draws c op) (s.perform c op) := by
  cases op with
  | add k x => exact hs.perform_add (hfresh k x rfl).1 (hfresh k x rfl).2
  | get k => exact hs.perform_get
  | update k x => exact hs.perform_update
  | delete k => exact hs.perform_delete
  | contains k =>
    rw [Store.perform, tell_ok hs.contains]
    exact ⟨_, .of_serves .contained hs⟩
  | size =>
    obtain ⟨ks, _, hsize, hks⟩ := keys_eq hs.holds
    have hcount : orFail s.size s = .ok ks.length s := by
      rw [hsize]
      rfl
    rw [Store.perform, tell_ok hcount]
    exact ⟨_, .of_serves (.counted hks) hs⟩
  | keys =>
    obtain ⟨ks, hkeys, _, hks⟩ := keys_eq hs.holds
    have hlist : orFail s.keys s = .ok ks s := by
      rw [hkeys]
      rfl
    rw [Store.perform, tell_ok hlist]
    exact ⟨_, .of_serves (.listed hks) hs⟩
  | shrink =>
    rw [Store.perform]
    rcases hs.shrink with ⟨r, s', hshrink, hs'⟩ | ⟨hshadow, hshrink⟩
    · rw [tell_ok hshrink]
      exact ⟨_, .of_serves .shrunk hs'⟩
    · rw [tell_error hshrink]
      exact ⟨_, .of_serves (.blocked hshadow) hs⟩
  | checkpoint =>
    rw [Store.perform]
    obtain ⟨s', ⟨hcheckpoint, _⟩ | ⟨e, hcheckpoint, hseal⟩, hs'⟩ := hs.checkpoint
    · rw [tell_ok hcheckpoint]
      exact ⟨_, .of_serves .sealed hs'⟩
    · rw [tell_error hcheckpoint]
      exact ⟨_, .of_serves (.unsealed hseal) hs'⟩
  | reopen config => exact hs.perform_reopen (hways config rfl)

lemma Shut.delete (hs : s.Shut) : Store.delete k s = .error .closed s :=
  patiently_error fun p => by rw [deleteWithin, bind_of_error (find_shut hs)]

/-- Nothing is updated in a store that is shut. -/
lemma Shut.update (hs : s.Shut) : Store.update c k x s = .error .closed s :=
  patiently_error fun p => by rw [updateWithin, bind_of_error (find_shut hs)]

/-- An operation on a closed store leaves it as it is, unless it opens the store again. -/
lemma Shut.perform (hs : s.Shut) {op : Operation α} (hop : ∀ config, op ≠ .reopen config) :
    (s.perform c op).2 = s := by
  have hfind : ∀ k mode p, find k mode p s = .error .closed s := fun _ _ _ => find_shut hs
  cases op with
  | add k x => exact congrArg Prod.snd (tell_error (throughGate_shut hs))
  | get k =>
    have hget : get? c k s = .error .closed s := patiently_error fun p => by
      rw [getWithin, bind_of_error (show hold k .shared payloadOf p s = .error .closed s by
        rw [hold, bind_of_error (hfind _ _ _)])]
    rw [Store.perform, tell_error hget]
  | update k x => rw [Store.perform, tell_error hs.update]
  | delete k => rw [Store.perform, tell_error hs.delete]
  | contains k => exact congrArg Prod.snd (tell_error (throughGate_shut hs))
  | size => rw [Store.perform]; cases s.size <;> rfl
  | keys => rw [Store.perform]; cases s.keys <;> rfl
  | shrink => exact congrArg Prod.snd (tell_error (throughGate_shut hs))
  | checkpoint => exact congrArg Prod.snd (tell_error (throughGate_shut hs))
  | reopen config => exact absurd rfl (hop config)

lemma Shut.draws (hs : s.Shut) (op : Operation α) : s.draws c op = 0 := by
  have hclosed : s.closed ≠ false := by
    rw [hs.closed]
    exact Bool.noConfusion
  cases op with
  | add k x => exact if_neg fun h => hclosed h.1
  | update k x => exact if_neg fun h => hclosed h.1
  | _ => rfl

/-- **One step on a closed store.** -/
theorem Parked.perform (hs : s.Parked held used n) (op : Operation α)
    (hways : ∀ config, op = .reopen config → s.Ways n) :
    (s.perform c op).2.Stands held (op.adds ++ used) (n + s.draws c op) := by
  rw [hs.shut.draws]
  cases op with
  | add k x =>
    obtain ⟨row, hsound⟩ := hs.holds.sound
    rw [hs.shut.perform fun _ h => by cases h]
    exact .parked ⟨hs.shut, ⟨row, hsound.use k⟩, hs.holds.held⟩
  | reopen config =>
    rw [Store.perform]
    rcases (Stands.parked hs).reopen config (hways config rfl) with
      ⟨s', hreopen, hs'⟩ | ⟨e, s', hreopen, hs', _⟩
    · rw [tell_ok hreopen]
      exact .serves hs'
    · rw [tell_error hreopen]
      exact .parked hs'
  | _ =>
    rw [hs.shut.perform fun _ h => by cases h]
    exact .parked hs

/-- **One step**, on an open store or a closed one. -/
theorem Stands.perform (hs : s.Stands held used n) (op : Operation α)
    (hfresh : ∀ k x, op = .add k x → k.isReserved = false ∧ k ∉ used)
    (hways : ∀ config, op = .reopen config → s.Ways n) :
    ∃ held', (s.perform c op).2.Stands held' (op.adds ++ used) (n + s.draws c op) := by
  cases hs with
  | serves h =>
    obtain ⟨held', hout⟩ := h.perform op hfresh hways
    exact ⟨held', hout.stands⟩
  | parked h => exact ⟨held, h.perform op hways⟩

end Step

/-- A store on an empty file serves nothing yet. -/
lemma serves_opened {config : Config} {shadow : RecordFile.ShadowNode}
    (h : openFile config (.ok .empty) shadow = .ok s) : s.Serves (fun _ => none) [] 0 := by
  have hv : Holds ⟨.ofContent .empty, .empty⟩ (fun _ => none) [] 0 := ⟨⟨[], .empty⟩, fun _ => rfl⟩
  have hbare : Bare .empty := fun start s hp => absurd hp.room (by decide)
  cases hvalid : config.validate with
  | ok =>
    obtain ⟨s', hopen, hs'⟩ := serves_openFile hv hvalid (Or.inr ⟨by decide, hbare⟩) shadow
    cases h.symm.trans hopen
    exact hs'
  | error e =>
    rw [openFile_invalid hvalid] at h
    cases h

end Store

/-! ## The whole run -/

lemma drawn_cons (e : Event α) (h : List (Event α)) : drawn (e :: h) = drawn h + e.draws := rfl

/-- **Every run leaves a store that stands** on a sound volume, as long as entities are added under
new keys, the store is opened again on its own file, and versions do not run out. -/
theorem Run.stands {c : Coding α} {Allows : List (Event α) → Store → Operation α → Prop}
    (hrules : ∀ h s op, Allows h s op → op.Fresh h ∧ op.Reopens s) {h : List (Event α)} {s : Store}
    (run : Run c Allows h s) (hn : drawn h + 1 < versionLimit) :
    ∃ held, s.Stands held (added h) (drawn h) := by
  induction run with
  | opened hopen => exact ⟨_, .serves (Store.serves_opened hopen)⟩
  | @next h s op run allowed ih =>
    rw [drawn_cons] at hn ⊢
    obtain ⟨held, hs⟩ := ih (by omega)
    obtain ⟨hfresh, hreopens⟩ := hrules h s op allowed
    refine hs.perform op (fun k x hop => ?_) fun config hop s' hclose => ?_
    · subst hop
      exact hfresh
    · subst hop
      exact (hreopens s' hclose).imp_right fun hbare => ⟨by omega, hbare⟩

/-! ## A small run -/

/-- The event of an operation that is performed. -/
def Store.event (c : Coding α) (s : Store) (op : Operation α) : Event α :=
  ⟨op, (s.perform c op).1, s.draws c op⟩

/-- A history and the store after it, taken one operation further. -/
def Store.advance (c : Coding α) (op : Operation α) (r : List (Event α) × Store) :
    List (Event α) × Store :=
  (r.2.event c op :: r.1, (r.2.perform c op).2)

/-- Entities that are their own payloads. -/
def Coding.plain : Coding Bytes := ⟨.ok, .ok, fun _ => .null⟩

/-- The store that is opened on an empty file. -/
def Store.fresh : Store where
  config := .testing
  volume := ⟨.ofContent .empty, .empty⟩
  gate := .opened
  locks := .empty
  indexes := []
  cancelled := false
  closed := false
  scheduler := none
  shadow := .absent

lemma Store.openFile_fresh : openFile .testing (.ok .empty) .absent = .ok fresh := rfl

end SlotStore
