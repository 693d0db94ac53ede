import Mathlib.Tactic.Common
import SlotStore.Proofs.Store.Life

/-!
# Mutations that fail

Adding, updating and deleting an entity take several steps, and each of them may fail.  As long as
the table offers slots inside the file, and the header of a slot that an update leaves for another
one can be read, they only fail before anything but the version counter is changed.  An update that
puts its entity into another slot and then finds that header damaged reports a failure, and yet the
entity has been replaced.

* `Store.Unchanged` : a store as it was but for the version counter;
* `Store.Spared` : the ways an action on a store may go that changes nothing if it fails;
* `Store.spared_replace`, `Mutation.spared` : one action, and every mutation;
* `Mutation.Backed` : what a mutation relies on;
* `Life.refused_unchanged` : a mutation that fails changes nothing;
* `Life.refused_replaced` : an update that fails and changes what is read.
-/

namespace SlotStore

open Steps Volume

variable {α β γ : Type}

namespace Store

variable {s : Store} {k : Key} {mode : LockMode} {p : Patience} {c : Coding α} {x : α} {e : Entry}
  {act : StoreM β} {done : β → Prop}

/-! ## Failing without a change -/

/-- A store that has handed out a version. -/
def drawn (s : Store) : Store := { s with volume := s.volume.draw }

/-- **Nothing but the version counter has changed**: neither the entries of the table nor its
retired slots, neither the indexes nor the file, and a reader of any key is told what it would have
been told before. -/
structure Unchanged (s s' : Store) : Prop where
  entries : s'.toc.entries = s.toc.entries
  retired : s'.toc.retired = s.toc.retired
  indexes : s'.indexes = s.indexes
  file : s'.file = s.file
  answers : ∀ (γ : Type) (c : Coding γ) (k : Key),
    (s'.perform c (.get k)).1 = (s.perform c (.get k)).1

lemma Unchanged.refl (s : Store) : s.Unchanged s := ⟨rfl, rfl, rfl, rfl, fun _ _ _ => rfl⟩

/-- A version that is handed out changes nothing else. -/
lemma Resting.unchanged_drawn (hr : s.Resting) : s.Unchanged s.drawn := by
  refine ⟨rfl, rfl, rfl, rfl, fun γ c k => ?_⟩
  have hr' : s.drawn.Resting := ⟨hr.gate, hr.locks⟩
  have hgot : s.drawn.got c k = s.got c k := rfl
  rw [perform, perform, get?_resting hr, get?_resting hr', hgot]
  cases s.got c k <;> rfl

/-- **An action is done, or it has changed nothing** but the version counter. -/
inductive Spared (s : Store) (done : β → Prop) : EStateM.Result Error Store β → Prop
  | done {y : β} {t : Store} (h : done y) : Spared s done (.ok y t)
  | undone {y : β} : Spared s done (.ok y s)
  | refused {e : Error} : Spared s done (.error e s)
  | drawn {e : Error} : Spared s done (.error e s.drawn)

lemma spared_orFail {result : Except Error γ} {next : γ → StoreM β}
    (h : ∀ y, result = .ok y → s.Spared done (next y s)) :
    s.Spared done ((orFail result >>= next) s) := by
  rw [orFail_bind]
  cases hresult : result with
  | ok y => exact h y hresult
  | error e => exact .refused

/-- Waiting for the table changes nothing. -/
lemma spared_awaitReady {next : Bool → StoreM β}
    (h : ∀ b, s.awaited p = .ok b → s.Spared done (next b s)) :
    s.Spared done ((awaitReady p >>= next) s) := by
  have hawait : (awaitReady p >>= next) s = (orFail (s.awaited p) >>= next) s := by
    simp only [bind, EStateM.bind, awaitReady_eq]
  rw [hawait]
  exact spared_orFail h

/-- An action on the volume that fails without a change. -/
lemma spared_onVolume {act : VolumeM Unit} {next : Unit → StoreM β} {y : β}
    (h : (∃ err, act s.volume = .error err s.volume) ∨
      (∃ err, act s.volume = .error err s.volume.draw) ∨ ∃ v, act s.volume = .ok () v)
    (hnext : ∀ t, ∃ t', next () t = .ok y t') (hdone : done y) :
    s.Spared done ((onVolume act >>= next) s) := by
  rcases h with ⟨err, hact⟩ | ⟨err, hact⟩ | ⟨v, hact⟩
  · rw [bind_of_error (onVolume_error hact)]
    exact .refused
  · rw [bind_of_error (onVolume_error hact)]
    exact .drawn
  · obtain ⟨t', ht'⟩ := hnext { s with volume := v }
    rw [bind_of_ok (onVolume_ok hact), ht']
    exact .done hdone

/-- Passing the gate changes nothing. -/
lemma spared_throughGate (hr : s.Resting)
    (h : (s.inside mode).Spared done (act (s.inside mode))) :
    s.Spared done (throughGate mode act s) := by
  refine throughGate_cases hr (fun _ => .refused) fun hopen => ?_
  have hleave := leaveGate_inside hopen mode
  have hdrawn : leaveGate mode (s.inside mode).drawn = s.drawn := congrArg drawn hleave
  cases hact : act (s.inside mode) <;> rw [hact] at h <;> rw [after]
  · cases h with
    | done hy => exact .done hy
    | undone => exact hleave ▸ .undone
  · cases h with
    | refused => exact hleave ▸ .refused
    | drawn => exact hdrawn ▸ .drawn

/-- An action under the lock of a live entity. -/
lemma Holdable.spared (hh : s.Holdable k p e) (hr : s.Resting)
    (h : (s.holding k mode).Spared done (act (s.holding k mode))) :
    s.Spared done (ensuring (finish k mode) act (s.holding k mode)) := by
  have hfinish : finish k mode (s.holding k mode) = s :=
    hh.finish_holding hr mode s.volume s.indexes
  have hdrawn : finish k mode (s.holding k mode).drawn = s.drawn :=
    hh.finish_holding hr mode s.volume.draw s.indexes
  rw [ensuring_eq]
  cases hact : act (s.holding k mode) <;> rw [hact] at h <;> rw [after]
  · cases h with
    | done hy => exact .done hy
    | undone => exact hfinish ▸ .undone
  · cases h with
    | refused => exact hfinish ▸ .refused
    | drawn => exact hdrawn ▸ .drawn

lemma spared_patiently {act : Patience → StoreM (Option Unit)}
    (h : s.Spared (· = some ()) (act s.unbounded s)) :
    s.Spared (fun _ => True) (patiently act s) := by
  rw [patiently_eq]
  cases hact : act s.unbounded s with
  | ok y t =>
    rw [hact] at h
    cases y with
    | some y => exact .done trivial
    | none =>
      cases h with
      | done hy => cases hy
      | undone => exact .refused
  | error e t =>
    rw [hact] at h
    cases h with
    | refused => exact .refused
    | drawn => exact .drawn

lemma spared_some {act : StoreM Unit} (h : s.Spared (fun _ => True) (act s)) :
    s.Spared (· = some ()) ((some <$> act) s) := by
  simp only [Functor.map, EStateM.map]
  cases hact : act s <;> rw [hact] at h
  · exact .done rfl
  · cases h with
    | refused => exact .refused
    | drawn => exact .drawn

/-! ## The three mutations -/

/-- **Adding** is done, or changes nothing. -/
lemma spared_add (hs : s.Still) (hr : s.file.Roomy)
    (hoffers : ∀ payload, c.encode x = .ok payload → s.volume.Offers payload) :
    s.Spared (fun _ => True) (add c k x s) := by
  refine spared_throughGate hs.resting ?_
  rw [get_bind]
  refine spared_orFail fun _ _ => spared_orFail fun payload hx => ?_
  rw [placeEntity_eq]
  refine spared_onVolume (Or.inr ?_) (fun t => ⟨_, rfl⟩) trivial
  rcases enter_cases hs.seated hr (hoffers payload hx) k with hrefused | ⟨v, henter, _⟩
  · exact Or.inl hrefused
  · exact Or.inr ⟨v, henter⟩

/-- **Replacing** is done, or changes nothing. -/
lemma spared_replace (hs : s.file.Seated) (hr : s.file.Roomy)
    (hmoves : ∀ payload, c.encode x = .ok payload → e.capacity < payload.length →
      s.volume.Offers payload ∧ s.volume.Leaves e payload) :
    s.Spared (· = some ()) (replace c k e p x s) := by
  by_cases hgo : ∃ payload, c.encode x = .ok payload ∧
      (¬ payload.length ≤ e.capacity → s.awaited p = .ok true)
  · obtain ⟨payload, hx, hawaited⟩ := hgo
    have hready : ¬ payload.length ≤ e.capacity → awaitReady p s = .ok true s := fun hfit => by
      rw [awaitReady_eq, hawaited hfit]
      rfl
    rw [replace_awaited hx hready]
    exact spared_onVolume (Or.inr (exchange_cases hs hr (hmoves payload hx) k))
      (fun t => ⟨_, rfl⟩) rfl
  · -- The payload is not written at all.
    refine spared_orFail fun payload hx => ?_
    have hfit : ¬ payload.length ≤ e.capacity := fun hfit =>
      hgo ⟨payload, hx, fun h => absurd hfit h⟩
    rw [if_neg hfit]
    refine spared_awaitReady fun b hawaited => ?_
    cases b with
    | false => exact .undone
    | true => exact absurd ⟨payload, hx, fun _ => hawaited⟩ hgo

/-- **Updating** is done, or changes nothing. -/
lemma spared_updateWithin (hs : s.Still) (hr : s.file.Roomy)
    (hmoves : ∀ payload e, c.encode x = .ok payload → s.live? k = some e →
      e.capacity < payload.length → s.volume.Offers payload ∧ s.volume.Leaves e payload) :
    s.Spared (· = some ()) (updateWithin c k x p s) :=
  find_cases hs.resting (fun _ => .refused) .undone .refused fun e hh => hh.spared hs.resting
    (spared_replace hs.seated hr fun payload hx => hmoves payload e hx hh.live)

/-- **Deleting** is done, or changes nothing. -/
lemma spared_deleteWithin (hs : s.Still) (hr : s.file.Roomy) :
    s.Spared (· = some ()) (deleteWithin k p s) := by
  refine find_cases hs.resting (fun _ => .refused) .undone .refused fun e hh =>
    hh.spared hs.resting ?_
  have hgive : onVolume (giveUp k e) = (do
      onFile (RecordFile.markUnused e.offset)
      onToc (Toc.markFree k)) := onVolume_bind _ _
  rw [← bind_assoc, ← hgive]
  refine spared_onVolume ?_ (fun t => ⟨_, rfl⟩) rfl
  exact (giveUp_cases hs.seated hr k e).imp_right Or.inr

end Store

/-! ## Every mutation -/

namespace Mutation

variable {s : Store} {c : Coding α}

/-- **What a mutation relies on**: the slot that the table offers for its payload lies in the file,
and if an update moves its entity there, the slot that it leaves has a header that can be read and
is not touched.  Deleting relies on nothing. -/
def Backed (c : Coding α) (s : Store) : Mutation α → Prop
  | .add _ x => ∀ payload, c.encode x = .ok payload → s.volume.Offers payload
  | .update k x => Moves k x
  | .updateWithin k x _ => Moves k x
  | .delete _ => True
  | .deleteWithin _ _ => True
where
  /-- What an update relies on. -/
  Moves (k : Key) (x : α) : Prop :=
    ∀ payload e, c.encode x = .ok payload → s.live? k = some e → e.capacity < payload.length →
      s.volume.Offers payload ∧ s.volume.Leaves e payload

/-- A table that describes the slots of its file backs every mutation, whatever the payloads are. -/
lemma backed {row shown : Row} (hl : Loose s.volume row shown) (m : Mutation α) : m.Backed c s := by
  have hmoves : ∀ k x, Backed.Moves c s k x := fun k x payload e _ he _ => by
    obtain ⟨hentry, hlive⟩ := Store.mem_live?.mp he
    exact ⟨hl.offers payload, hl.leaves hentry hlive payload⟩
  cases m with
  | add k x => exact fun payload _ => hl.offers payload
  | update k x => exact hmoves k x
  | updateWithin k x p => exact hmoves k x
  | delete k => trivial
  | deleteWithin k p => trivial

/-- **Every mutation** is performed, or changes nothing. -/
theorem spared (hs : s.Still) (hr : s.file.Roomy) {m : Mutation α} (hbacked : m.Backed c s) :
    s.Spared (· = some ()) (m.run c s) := by
  cases m with
  | add k x => exact Store.spared_some (Store.spared_add hs hr hbacked)
  | update k x =>
    exact Store.spared_some (Store.spared_patiently (Store.spared_updateWithin hs hr hbacked))
  | delete k => exact Store.spared_some (Store.spared_patiently (Store.spared_deleteWithin hs hr))
  | updateWithin k x p => exact Store.spared_updateWithin hs hr hbacked
  | deleteWithin k p => exact Store.spared_deleteWithin hs hr

end Mutation

/-- **A mutation that fails changes nothing** in the life of a store, whatever its file holds, as
long as the mutation is backed.  That it is as long as the table describes the slots. -/
theorem Life.refused_unchanged {c : Coding α} {s : Store} (life : Life c s) (hr : s.file.Roomy) :
    (∀ (m : Mutation α) e s', m.Backed c s → m.run c s = .error e s' → s.Unchanged s') ∧
      ∀ row shown, Loose s.volume row shown → ∀ m : Mutation α, m.Backed c s := by
  refine ⟨fun m e s' hbacked hrun => ?_, fun row shown hl m => m.backed hl⟩
  have hspared := Mutation.spared life.still hr hbacked
  rw [hrun] at hspared
  cases hspared with
  | refused => exact .refl s
  | drawn => exact life.still.resting.unchanged_drawn

/-! ## Mutations that are refused -/

namespace Damaged

/-- A store with one entity. -/
def before : Store := (Store.fresh.perform .plain (.add .sample [7])).2

/-- The same store after the first byte of its file was overwritten. -/
def store : Store :=
  { before.setContent (before.file.content.write 0 [0]) with shadow := .absent }

/-- The store after the entity could not be deleted. -/
def kept : Store := final ((Mutation.delete .sample).run .plain store)

/-- The store after the entity could not be updated. -/
def replaced : Store := final ((Mutation.update .sample [8, 9]).run .plain store)

lemma life : Life .plain store :=
  .altered (.performed (.opened Store.openFile_fresh) (.add .sample [7])) _ _

lemma roomy : store.file.Roomy := by
  rw [RecordFile.Roomy]
  decide +kernel

/-- Why the header cannot be read. -/
def damage : Error := .corruption 0 (.badMarker 0)

lemma delete_fails : (Mutation.delete .sample).run .plain store = .error damage kept := by rfl

lemma update_fails : (Mutation.update .sample [8, 9]).run .plain store = .error damage replaced :=
  by rfl

lemma get_store : (store.perform .plain (.get .sample)).1 = .failed damage := by rfl

set_option maxRecDepth 4096 in
lemma get_replaced : (replaced.perform .plain (.get .sample)).1 = .entity (some [8, 9]) := by rfl

end Damaged

namespace Strayed

/-- A table that has the only entity in a slot past the end of the data. -/
def table : Snapshot where
  format := Snapshot.currentFormat
  dataEnd := 0
  nextVersion := 2
  entries := [⟨.sample, 100, 40, false, 1⟩]
  retired := []

/-- A closed store whose file was replaced by the tail with that table. -/
def before : Store :=
  { (final (Store.close .fresh)).setContent
      (.ofBytes (RecordFile.tail 0 ⟨.reserved, 1⟩ table.write)) with shadow := .absent }

/-- The store when it was opened again. -/
def store : Store := (before.perform .plain (.reopen .testing)).2

lemma life : Life .plain store :=
  .performed (.altered (.closed (.opened Store.openFile_fresh)) _ _) (.reopen .testing)

lemma roomy : store.file.Roomy := by
  rw [RecordFile.Roomy]
  decide +kernel

/-- The payload fits into the slot. -/
lemma backed : (Mutation.update .sample [8]).Backed .plain store := by
  intro payload e hencode hlive hlarge
  have hfound : (store.live? .sample).map (·.capacity) = some 4 := by decide +kernel
  cases hencode
  rw [hlive] at hfound
  have hcapacity : e.capacity = 4 := Option.some.inj hfound
  rw [hcapacity] at hlarge
  exact absurd hlarge (by decide)

lemma update_fails : (Mutation.update .sample [8]).run .plain store =
    .error (.range (.writePastEnd 100 0)) (final ((Mutation.update .sample [8]).run .plain store)) :=
  eq_error_of_failure? (by decide +kernel)

end Strayed

namespace Cancelled

/-- A store with one entity and the slot of another, which was cancelled. -/
def store : Store :=
  let first := (Store.fresh.perform .plain (.add .sample [7])).2
  let second := (first.perform .plain (.add (.filled 2) [9, 9])).2
  final (Store.cancel (second.perform .plain (.delete (.filled 2))).2)

lemma life : Life .plain store :=
  .cancelled (.performed (.performed (.performed (.opened Store.openFile_fresh) (.add .sample [7]))
    (.add (.filled 2) [9, 9])) (.delete (.filled 2)))

lemma roomy : store.file.Roomy := by
  rw [RecordFile.Roomy]
  decide +kernel

/-- The slot that is offered to the longer payload. -/
def slot : Entry := ⟨.filled 2, 37, 38, true, 2⟩

lemma freeSlot?_eq : store.toc.freeSlot? 38 = some slot := by decide +kernel

/-- The payload would go to the slot of the other entity. -/
lemma backed : (Mutation.update .sample [8, 9]).Backed .plain store := by
  intro payload e hencode hlive _
  have hoffset : (store.live? .sample).map (·.offset) = some 0 := by decide +kernel
  have hread : (store.file.readHeader 0).isOk = true := by decide +kernel
  cases hencode
  rw [hlive] at hoffset
  have hstart : e.offset = 0 := Option.some.inj hoffset
  refine ⟨fun e' he' => ?_, ?_, fun e' he' => ?_⟩
  · cases freeSlot?_eq.symm.trans he'
    decide +kernel
  · rw [hstart]
    cases hheader : store.volume.file.readHeader 0 with
    | ok h => exact ⟨h, rfl⟩
    | error err =>
      rw [Store.file, hheader] at hread
      cases hread
  · cases freeSlot?_eq.symm.trans he'
    rw [hstart]
    exact Or.inl (by decide)

lemma update_fails : (Mutation.update .sample [8, 9]).run .plain store =
    .error .cancelled (final ((Mutation.update .sample [8, 9]).run .plain store)) :=
  eq_error_of_failure? (by decide +kernel)

end Cancelled

/-- Nothing changes when an entity whose header is damaged is not deleted, when one whose slot is
past the end is not updated, and when one is not moved to the free slot that it is offered because
the store was cancelled. -/
theorem Life.refused_unchanged_damaged : ∃ (s s' t t' u u' : Store) (e₁ e₂ e₃ : Error),
    (Life .plain s ∧ s.file.Roomy ∧ (Mutation.delete (α := Bytes) .sample).Backed .plain s ∧
      (Mutation.delete .sample).run .plain s = .error e₁ s' ∧ s.Unchanged s') ∧
    (Life .plain t ∧ t.file.Roomy ∧ (Mutation.update .sample [8]).Backed .plain t ∧
      (Mutation.update .sample [8]).run .plain t = .error e₂ t' ∧ t.Unchanged t' ∧
      t'.toc.nextVersion ≠ t.toc.nextVersion) ∧
    Life .plain u ∧ u.file.Roomy ∧ (Mutation.update .sample [8, 9]).Backed .plain u ∧
      u.toc.freeSlot? 38 ≠ none ∧ (Mutation.update .sample [8, 9]).run .plain u = .error e₃ u' ∧
      u.Unchanged u' := by
  have hdelete : (Mutation.delete (α := Bytes) .sample).Backed .plain Damaged.store := trivial
  have hdamaged := (Damaged.life.refused_unchanged Damaged.roomy).1 _ _ _ hdelete
    Damaged.delete_fails
  have hstrayed := (Strayed.life.refused_unchanged Strayed.roomy).1 _ _ _ Strayed.backed
    Strayed.update_fails
  have hcancelled := (Cancelled.life.refused_unchanged Cancelled.roomy).1 _ _ _ Cancelled.backed
    Cancelled.update_fails
  have hdrawn : (final ((Mutation.update .sample [8]).run .plain Strayed.store)).toc.nextVersion ≠
    Strayed.store.toc.nextVersion := by decide +kernel
  have hoffered : Cancelled.store.toc.freeSlot? 38 ≠ none :=
    Cancelled.freeSlot?_eq ▸ Option.some_ne_none _
  exact ⟨_, _, _, _, _, _, _, _, _,
    ⟨Damaged.life, Damaged.roomy, hdelete, Damaged.delete_fails, hdamaged⟩,
    ⟨Strayed.life, Strayed.roomy, Strayed.backed, Strayed.update_fails, hstrayed, hdrawn⟩,
    Cancelled.life, Cancelled.roomy, Cancelled.backed, hoffered, Cancelled.update_fails, hcancelled⟩

/-- **An update may fail and replace the entity**: the longer payload goes to a slot of its own, and
only then the damage of the slot that it leaves is found. -/
theorem Life.refused_replaced : ∃ (s s' : Store) (m : Mutation Bytes) (e : Error),
    Life .plain s ∧ s.file.Roomy ∧ m.run .plain s = .error e s' ∧
      (s.perform .plain (.get .sample)).1 = .failed e ∧
      (s'.perform .plain (.get .sample)).1 = .entity (some [8, 9]) ∧ ¬ s.Unchanged s' := by
  refine ⟨Damaged.store, Damaged.replaced, .update .sample [8, 9], Damaged.damage, Damaged.life,
    Damaged.roomy, Damaged.update_fails, Damaged.get_store, Damaged.get_replaced, fun hsame => ?_⟩
  have hanswers := hsame.answers Bytes .plain .sample
  rw [Damaged.get_store, Damaged.get_replaced] at hanswers
  cases hanswers

end SlotStore
