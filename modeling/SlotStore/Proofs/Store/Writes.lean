import Mathlib.Tactic.Common
import SlotStore.Proofs.Store.Reads
import SlotStore.Proofs.Volume.Writes

/-!
# Writing to a store

An operation that writes to an open store between two operations is a write to its volume, and the
indexes follow if that succeeds.  Hence it changes what the store holds under one key, or fails and
changes nothing.  It fails only if the entity cannot be encoded, if the key is not alive, or if the
file would reach past the last position.

* `Store.Poised.add_eq`, `Store.Poised.update_eq`, `Store.Poised.delete_eq` : the writes to the
  volume;
* `Store.Poised.update_absent`, `Store.Poised.delete_absent` : a key that is not alive;
* `Store.Serves.add`, `Store.Serves.update`, `Store.Serves.delete` : what the three operations come
  to in terms of payloads.
-/

namespace SlotStore.Store

open Steps Volume

variable {α : Type} {s : Store} {k : Key} {e : Entry} {held : Key → Option Bytes} {row : Row}
  {used : List Key} {drawn : Nat} {c : Coding α} {x : α} {payload : Bytes} {err : Error}

/-! ## Actions on the volume -/

section Volume

variable {β γ : Type} {act : VolumeM β} {v : Volume}

/-- What succeeds on the volume succeeds in the store. -/
lemma onVolume_ok {y : β} (h : act s.volume = .ok y v) :
    onVolume act s = .ok y { s with volume := v } := by
  rw [onVolume, h]

/-- What fails on the volume fails in the store. -/
lemma onVolume_error (h : act s.volume = .error err v) :
    onVolume act s = .error err { s with volume := v } := by
  rw [onVolume, h]

lemma onVolume_bind (act : VolumeM β) (next : β → VolumeM γ) :
    onVolume (act >>= next) = onVolume act >>= fun y => onVolume (next y) := by
  funext s
  simp only [onVolume, bind, EStateM.bind]
  cases act s.volume <;> rfl

end Volume

/-- Placing an entity is entering its payload. -/
lemma placeEntity_eq (k : Key) (payload : Bytes) :
    placeEntity k payload = onVolume (enter k payload) := by
  rw [enter, onVolume_bind]
  refine congrArg (allocateVersion >>= ·) (funext fun version => ?_)
  rw [onVolume_bind]
  rfl

/-- Replacing an entity is exchanging its payload, and the indexes follow, as long as the wait for
the table is over where another slot is needed. -/
lemma replace_awaited (hx : c.encode x = .ok payload) {p : Patience}
    (hawait : ¬ payload.length ≤ e.capacity → awaitReady p s = .ok true s) :
    replace c k e p x s = (do
      onVolume (exchange k e payload)
      modify (indexEntity k (c.document x))
      return some ()) s := by
  have hencode : orFail (c.encode x) s = .ok payload s := by
    rw [hx]
    rfl
  rw [replace, bind_of_ok hencode]
  by_cases hfit : payload.length ≤ e.capacity
  · rw [if_pos hfit, exchange, if_pos hfit]
    simp only [onVolume_bind, bind_assoc]
    rfl
  · rw [if_neg hfit, bind_of_ok (hawait hfit), exchange, if_neg hfit]
    simp only [onVolume_bind, bind_assoc, placeEntity_eq]
    rfl

/-- A ready table has nobody wait. -/
lemma replace_eq (hready : s.toc.ready = true) (hx : c.encode x = .ok payload) (p : Patience) :
    replace c k e p x s = (do
      onVolume (exchange k e payload)
      modify (indexEntity k (c.document x))
      return some ()) s := by
  refine replace_awaited hx fun _ => ?_
  rw [awaitReady, get_bind, if_pos hready]
  rfl

/-! ## Operations as writes to the volume -/

/-- What a write to the volume comes to for the store, whose indexes change if it succeeds. -/
def written (s : Store) (index : FieldIndex → FieldIndex) :
    EStateM.Result Error Volume Unit → EStateM.Result Error Store Unit
  | .ok () v => .ok () { s with volume := v, indexes := s.indexes.map index }
  | .error err v => .error err { s with volume := v }

lemma Idle.change (hi : s.Idle) (v : Volume) (indexes : List FieldIndex) :
    Idle { s with volume := v, indexes := indexes } :=
  ⟨hi.gate, hi.locks, hi.cancelled, hi.closed⟩

/-- **Finishing keeps what was done** to volume and indexes. -/
lemma Idle.finish_change (hi : s.Idle) (v : Volume) (indexes : List FieldIndex) (mode : LockMode) :
    finish k mode { s.holding k mode with volume := v, indexes := indexes } =
      { s with volume := v, indexes := indexes } :=
  (finish_holding rfl rfl).trans (hi.change v indexes).rested

lemma Idle.leaveGate_change (hi : s.Idle) (v : Volume) (indexes : List FieldIndex)
    (mode : LockMode) :
    leaveGate mode { s.inside mode with volume := v, indexes := indexes } =
      { s with volume := v, indexes := indexes } :=
  (hi.change v indexes).leaveGate_inside mode

namespace Poised

/-- **Adding an entity** enters its payload. -/
theorem add_eq (hp : s.Poised) (hx : c.encode x = .ok payload) :
    Store.add c k x s = s.written (·.upsert k (c.document x)) (enter k payload s.volume) := by
  have hencode : orFail (c.encode x) (s.inside .shared) = .ok payload (s.inside .shared) := by
    rw [hx]
    rfl
  rw [Store.add, throughGate_idle hp.idle, get_bind, bind_of_ok (waitReady_inside hp.signal _),
    bind_of_ok hencode, placeEntity_eq]
  cases h : enter k payload s.volume with
  | ok _ v =>
    rw [bind_of_ok (onVolume_ok (s := s.inside .shared) h)]
    exact congrArg (EStateM.Result.ok ()) (hp.idle.leaveGate_change v _ .shared)
  | error err v =>
    rw [bind_of_error (onVolume_error (s := s.inside .shared) h)]
    exact congrArg (EStateM.Result.error err) (hp.idle.leaveGate_change v s.indexes .shared)

/-- An entity that cannot be encoded is not added. -/
theorem add_refused (hp : s.Poised) (hx : c.encode x = .error err) :
    Store.add c k x s = .error err s := by
  have hencode : orFail (c.encode x) (s.inside .shared) = .error err (s.inside .shared) := by
    rw [hx]
    rfl
  rw [Store.add, throughGate_idle hp.idle, get_bind, bind_of_ok (waitReady_inside hp.signal _),
    bind_of_error hencode]
  exact congrArg (EStateM.Result.error err) (hp.idle.leaveGate_inside .shared)

/-- **Updating an entity** exchanges the payload of its live entry. -/
theorem update_eq (hp : s.Poised) (he : s.live? k = some e) (hx : c.encode x = .ok payload) :
    Store.update c k x s =
      s.written (·.upsert k (c.document x)) (exchange k e payload s.volume) := by
  have hreplace := replace_eq (s := s.holding k .exclusive) (k := k) (e := e) hp.ready hx
    ⟨none, some false⟩
  rw [Store.update, patiently_idle hp.idle, updateWithin, bind_of_ok (hp.find_held .exclusive he)]
  dsimp only
  rw [ensuring_eq, hreplace]
  cases h : exchange k e payload s.volume with
  | ok _ v =>
    rw [bind_of_ok (onVolume_ok (s := s.holding k .exclusive) h)]
    exact congrArg (EStateM.Result.ok ()) (hp.idle.finish_change v _ .exclusive)
  | error err v =>
    rw [bind_of_error (onVolume_error (s := s.holding k .exclusive) h)]
    exact congrArg (EStateM.Result.error err) (hp.idle.finish_change v s.indexes .exclusive)

/-- A live entity is not updated to one that cannot be encoded. -/
theorem update_refused (hp : s.Poised) (he : s.live? k = some e) (hx : c.encode x = .error err) :
    Store.update c k x s = .error err s := by
  have hencode :
      orFail (c.encode x) (s.holding k .exclusive) = .error err (s.holding k .exclusive) := by
    rw [hx]
    rfl
  rw [Store.update, patiently_idle hp.idle, updateWithin, bind_of_ok (hp.find_held .exclusive he)]
  dsimp only
  rw [ensuring_eq, replace, bind_of_error hencode]
  exact congrArg (EStateM.Result.error err) (hp.idle.finish_change s.volume s.indexes .exclusive)

/-- An entity that is not there is not updated. -/
theorem update_absent (hp : s.Poised) (he : s.live? k = none) :
    Store.update c k x s = .error (.entityNotFound k) s := by
  rw [Store.update, patiently_idle hp.idle, updateWithin, bind_of_ok (hp.find_absent .exclusive he)]
  rfl

/-- **Deleting an entity** gives its live entry up. -/
theorem delete_eq (hp : s.Poised) (he : s.live? k = some e) :
    Store.delete k s = s.written (·.remove k) (giveUp k e s.volume) := by
  have hgive : onVolume (giveUp k e) = (do
      onFile (RecordFile.markUnused e.offset)
      onToc (Toc.markFree k)) := onVolume_bind _ _
  rw [Store.delete, patiently_idle hp.idle, deleteWithin, bind_of_ok (hp.find_held .exclusive he)]
  dsimp only
  rw [ensuring_eq, ← bind_assoc, ← hgive]
  cases h : giveUp k e s.volume with
  | ok _ v =>
    rw [bind_of_ok (onVolume_ok (s := s.holding k .exclusive) h)]
    exact congrArg (EStateM.Result.ok ()) (hp.idle.finish_change v _ .exclusive)
  | error err v =>
    rw [bind_of_error (onVolume_error (s := s.holding k .exclusive) h)]
    exact congrArg (EStateM.Result.error err) (hp.idle.finish_change v s.indexes .exclusive)

/-- An entity that is not there is not deleted. -/
theorem delete_absent (hp : s.Poised) (he : s.live? k = none) :
    Store.delete k s = .error (.entityNotFound k) s := by
  rw [Store.delete, patiently_idle hp.idle, deleteWithin, bind_of_ok (hp.find_absent .exclusive he)]
  rfl

end Poised

/-! ## Operations in terms of payloads -/

lemma Serves.written_ok {v : Volume} {held' : Key → Option Bytes} {used' : List Key} {n : Nat}
    (hs : s.Serves held used drawn) (hv : v.Holds held' used' n) (indexes : List FieldIndex) :
    Serves { s with volume := v, indexes := indexes } held' used' n :=
  ⟨hs.idle.change v indexes, hv⟩

/-- The live entry of a key that something is held under. -/
lemma Serves.live (hs : s.Serves held used drawn) (hk : held k ≠ none) :
    ∃ e, s.live? k = some e := by
  obtain ⟨row, hsound⟩ := hs.holds.sound
  rw [← hs.holds.held k] at hk
  exact Option.ne_none_iff_exists'.mp ((live?_eq_none hsound).not.mpr hk)

/-- A key without a payload has no live entry. -/
lemma Serves.live_eq_none (hs : s.Serves held used drawn) (hk : held k = none) :
    s.live? k = none := by
  obtain ⟨row, hsound⟩ := hs.holds.sound
  exact (live?_eq_none hsound).mpr ((hs.holds.held k).trans hk)

/-- **An entity is added** under a key that nobody used, unless there is no room for it. -/
theorem Serves.add (hs : s.Serves held used drawn) (hr : k.isReserved = false) (hfresh : k ∉ used)
    (hx : c.encode x = .ok payload) :
    (∃ s', Store.add c k x s = .ok () s' ∧
      s'.Serves (fun j => if j = k then some payload else held j) (k :: used) (drawn + 1)) ∨
    ∃ err s', Store.add c k x s = .error err s' ∧ NoRoom s.volume payload err ∧
      s'.Serves held used (drawn + 1) := by
  obtain ⟨row, hsound⟩ := hs.holds.sound
  obtain rfl : s.volume.payload? = held := funext hs.holds.held
  rw [hs.poised.add_eq hx]
  rcases hsound.enter hr hfresh payload with ⟨v, henter, hv⟩ | ⟨err, v, henter, hroom, hv⟩
  · rw [henter]
    exact Or.inl ⟨_, rfl, hs.written_ok hv _⟩
  · rw [henter]
    exact Or.inr ⟨err, _, rfl, hroom, hs.written_ok hv s.indexes⟩

/-- **A live entity is updated** unless there is no room for it. -/
theorem Serves.update (hs : s.Serves held used drawn) (hk : held k ≠ none)
    (hx : c.encode x = .ok payload) :
    (∃ s', Store.update c k x s = .ok () s' ∧
      s'.Serves (fun j => if j = k then some payload else held j) used (drawn + 1)) ∨
    ∃ err s', Store.update c k x s = .error err s' ∧ NoRoom s.volume payload err ∧
      s'.Serves held used (drawn + 1) := by
  obtain ⟨e, he⟩ := hs.live hk
  obtain ⟨hentry, hlive⟩ := mem_live?.mp he
  obtain ⟨row, hsound⟩ := hs.holds.sound
  obtain rfl : s.volume.payload? = held := funext hs.holds.held
  rw [hs.poised.update_eq he hx]
  rcases hsound.exchange hentry hlive payload with
    ⟨v, hexchange, hv⟩ | ⟨err, v, hexchange, hroom, hv⟩
  · rw [hexchange]
    exact Or.inl ⟨_, rfl, hs.written_ok hv _⟩
  · rw [hexchange]
    exact Or.inr ⟨err, _, rfl, hroom, hs.written_ok hv s.indexes⟩

/-- **A live entity is deleted.** -/
theorem Serves.delete (hs : s.Serves held used drawn) (hk : held k ≠ none) :
    ∃ s', Store.delete k s = .ok () s' ∧
      s'.Serves (fun j => if j = k then none else held j) used drawn := by
  obtain ⟨e, he⟩ := hs.live hk
  obtain ⟨hentry, hlive⟩ := mem_live?.mp he
  obtain ⟨row, hsound⟩ := hs.holds.sound
  obtain rfl : s.volume.payload? = held := funext hs.holds.held
  obtain ⟨v, hgive, hv⟩ := hsound.giveUp hentry hlive
  rw [hs.poised.delete_eq he, hgive]
  exact ⟨_, rfl, hs.written_ok hv _⟩

end SlotStore.Store
