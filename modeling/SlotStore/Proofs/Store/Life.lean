import Mathlib.Tactic.Common
import SlotStore.Proofs.Store.Resting
import SlotStore.Proofs.Store.Run
import SlotStore.Proofs.Volume.Unknown

/-!
# The life of a store

A store is opened on any file, callers ask it for one operation after another and give up waiting
when they like, and somebody else may change the file in between.  Whatever happens, the store is
at rest between two operations, and what it takes for the tail of its file begins at the cursor.

* `Mutation` : adding, updating and deleting an entity;
* `Life` : the states of a store;
* `Store.Still` : what holds of all of them;
* `Store.Inward` : what an action behind the gate has to keep for that;
* `Store.still_perform`, `Life.still` : one operation, and the whole life.
-/

namespace SlotStore

open Steps

variable {α β : Type}

/-- Adding, updating or deleting an entity.  Who updates or deletes may bound the wait. -/
inductive Mutation (α : Type)
  | add (k : Key) (x : α)
  | update (k : Key) (x : α)
  | delete (k : Key)
  | updateWithin (k : Key) (x : α) (p : Patience)
  | deleteWithin (k : Key) (p : Patience)

namespace Mutation

/-- Performs a mutation; gives `none` if the time was not enough. -/
def run (c : Coding α) : Mutation α → StoreM (Option Unit)
  | .add k x => some <$> Store.add c k x
  | .update k x => some <$> Store.update c k x
  | .delete k => some <$> Store.delete k
  | .updateWithin k x p => Store.updateWithin c k x p
  | .deleteWithin k p => Store.deleteWithin k p

end Mutation

/-- **The states of a store** whose file, and what stands at the path of the shadow, may be changed
behind its back. -/
inductive Life (c : Coding α) : Store → Prop
  | opened {config : Config} {content : Except FileFault Content} {shadow : RecordFile.ShadowNode}
    {s : Store} (h : Store.openFile config content shadow = .ok s) : Life c s
  | performed {s : Store} (life : Life c s) (op : Operation α) : Life c (s.perform c op).2
  | mutated {s : Store} (life : Life c s) (m : Mutation α) : Life c (final (m.run c s))
  | read {s : Store} (life : Life c s) (k : Key) (p : Patience) :
    Life c (final (Store.getWithin c k p s))
  | attached {s : Store} (life : Life c s) (x : FieldIndex) : Life c (final (Store.attach x s))
  | reindexed {s : Store} (life : Life c s) : Life c (final (Store.reindex c s))
  | cancelled {s : Store} (life : Life c s) : Life c (final (Store.cancel s))
  | closed {s : Store} (life : Life c s) : Life c (final (Store.close s))
  | altered {s : Store} (life : Life c s) (content : Content) (shadow : RecordFile.ShadowNode) :
    Life c { s.setContent content with shadow := shadow }

namespace Store

variable {s t : Store} {g : Gate} {l : KeyLocks} {k : Key} {mode : LockMode} {p : Patience}
  {c : Coding α} {act : StoreM β}

/-- **A store at rest** whose tail begins at the cursor. -/
structure Still (s : Store) : Prop where
  resting : s.Resting
  seated : s.file.Seated

/-! ## Behind the gate -/

/-- The gate and the locks of a store are as given, and its tail begins at the cursor. -/
structure Inward (g : Gate) (l : KeyLocks) (s : Store) : Prop where
  gate : s.gate = g
  locks : s.locks = l
  seated : s.file.Seated

/-- A change of other parts leaves gate and locks. -/
lemma inward_modify {change : Store → Store} (hgate : ∀ s, (change s).gate = s.gate)
    (hlocks : ∀ s, (change s).locks = s.locks) (hfile : ∀ s, (change s).file = s.file) :
    Maintains (Inward g l) (modify change) :=
  .modify fun s h => ⟨(hgate s).trans h.gate, (hlocks s).trans h.locks, by
    rw [hfile]
    exact h.seated⟩

lemma inward_index (change : FieldIndex → FieldIndex) :
    Maintains (Inward g l) (modify fun s => { s with indexes := s.indexes.map change }) :=
  inward_modify (fun _ => rfl) (fun _ => rfl) fun _ => rfl

/-- What is done to the volume leaves gate and locks. -/
lemma inward_onVolume {act : VolumeM β}
    (h : Maintains (fun v : Volume => v.file.Seated) act) :
    Maintains (Inward g l) (onVolume act) := by
  intro s hs
  have hfinal := h s.volume hs.seated
  rw [onVolume]
  cases hact : act s.volume <;> rw [hact] at hfinal <;> exact ⟨hs.gate, hs.locks, hfinal⟩

lemma inward_onFile {act : FileM β} (h : Maintains RecordFile.Seated act) :
    Maintains (Inward g l) (onFile act) := inward_onVolume (Volume.seated_onFile h)

lemma inward_onToc (change : Toc → Toc) : Maintains (Inward g l) (onToc change) :=
  inward_onVolume (Volume.seated_onToc change)

lemma inward_lookup (k : Key) (p : Patience) : Maintains (Inward g l) (lookup k p) := by
  intro s hs
  rw [lookup_eq]
  exact maintains_orFail _ s hs

lemma inward_awaitReady (p : Patience) : Maintains (Inward g l) (awaitReady p) := by
  intro s hs
  rw [awaitReady_eq]
  exact maintains_orFail _ s hs

/-- **Placing an entity** keeps to the volume. -/
lemma inward_placeEntity (k : Key) (payload : Bytes) :
    Maintains (Inward g l) (placeEntity k payload) := by
  have hallocate : Maintains (fun v : Volume => v.file.Seated) Volume.allocate := fun _ h => h
  rw [placeEntity_eq]
  exact inward_onVolume (hallocate.bind fun _ => (Volume.seated_place _ _).bind fun _ =>
    Volume.seated_onToc _)

lemma inward_replace (c : Coding α) (k : Key) (e : Entry) (p : Patience) (x : α) :
    Maintains (Inward g l) (replace c k e p x) := by
  have hindexed : Maintains (Inward g l) (do
      modify (indexEntity k (c.document x))
      return some ()) := (inward_index _).bind fun _ => .pure
  refine (maintains_orFail _).bind fun payload => .ite (fun _ => ?_) fun _ => ?_
  · have hallocate : Maintains (Inward g l) allocateVersion :=
      fun _ h => ⟨h.gate, h.locks, h.seated⟩
    exact hallocate.bind fun _ =>
      (inward_onFile (RecordFile.cuts_writePayload _ _ _ _).seated).bind fun _ =>
        (inward_onToc _).bind fun _ => hindexed
  · refine (inward_awaitReady p).bind fun b => .ite (fun _ => ?_) fun _ => .pure
    exact (inward_placeEntity k payload).bind fun _ =>
      (inward_onFile (RecordFile.cuts_markUnused _).seated).bind fun _ =>
        (inward_onToc _).bind fun _ => hindexed

/-! ## Through the gate and back -/

/-- Who passed the gate last leaves it, and the store is at rest again. -/
lemma Inward.leaveGate (h : t.Inward g s.locks) (hg : (g.leave mode).lock = .free)
    (hs : s.Still) : (Store.leaveGate mode t).Still :=
  ⟨⟨by rw [Store.leaveGate, h.gate]; exact hg, by
    rw [Store.leaveGate, h.locks]
    exact hs.resting.locks⟩, h.seated⟩

/-- Whoever finishes leaves the store still. -/
lemma Inward.finish (h : t.Inward (.passed .shared) (.holding k mode)) :
    (Store.finish k mode t).Still := by
  rw [finish_holding h.gate h.locks]
  exact ⟨⟨rfl, rfl⟩, h.seated⟩

/-- **What is done inside the gate** leaves the store still. -/
lemma still_throughGate (h : ∀ g l, Maintains (Inward g l) act) :
    Maintains Still (throughGate mode act) := by
  intro s hs
  refine throughGate_cases (Q := fun r => (final r).Still) hs.resting (fun _ => hs) fun _ => ?_
  have hinward := h (.passed mode) s.locks (s.inside mode) ⟨rfl, rfl, hs.seated⟩
  have hleave : ((Gate.passed mode).leave mode).lock = .free := by rw [Gate.leave_passed]; rfl
  rw [final_after]
  exact hinward.leaveGate hleave hs

/-- What follows the search for an entity gives the lock back. -/
lemma still_find {next : Found → StoreM β}
    (hother : ∀ x, (∀ e, x ≠ .held e) → Maintains Still (next x))
    (hheld : ∀ e, ∃ inner, next (.held e) = ensuring (finish k mode) inner ∧
      ∀ g l, Maintains (Inward g l) inner) :
    Maintains Still (find k mode p >>= next) := by
  intro s hs
  refine find_cases (Q := fun r => (final r).Still) hs.resting (fun _ => hs)
    (hother _ (fun _ h => by cases h) s hs) (hother _ (fun _ h => by cases h) s hs) fun e _ => ?_
  obtain ⟨inner, hnext, hinner⟩ := hheld e
  rw [hnext, ensuring_eq, final_after]
  exact (hinner _ _ (s.holding k mode) ⟨rfl, rfl, hs.seated⟩).finish

lemma still_patiently {act : Patience → StoreM (Option β)} (h : ∀ p, Maintains Still (act p)) :
    Maintains Still (patiently act) := by
  intro s hs
  rw [final_patiently]
  exact h _ s hs

/-! ## Operations -/

/-- **Adding** leaves the store still. -/
lemma still_add (c : Coding α) (k : Key) (x : α) : Maintains Still (add c k x) :=
  still_throughGate fun _ _ => .get_bind fun _ => (maintains_orFail _).bind fun _ =>
    (maintains_orFail _).bind fun payload => (inward_placeEntity k payload).bind fun _ =>
      inward_index _

/-- **Updating** leaves the store still. -/
lemma still_updateWithin (c : Coding α) (k : Key) (x : α) (p : Patience) :
    Maintains Still (updateWithin c k x p) := by
  refine still_find (fun r hr => ?_) fun e => ⟨_, rfl, fun _ _ => inward_replace c k e p x⟩
  cases r with
  | timedOut => exact .pure
  | absent => exact .throw
  | held e => exact absurd rfl (hr e)

/-- **Deleting** leaves the store still. -/
lemma still_deleteWithin (k : Key) (p : Patience) : Maintains Still (deleteWithin k p) := by
  refine still_find (fun r hr => ?_) fun e => ⟨_, rfl, fun _ _ => ?_⟩
  · cases r with
    | timedOut => exact .pure
    | absent => exact .throw
    | held e => exact absurd rfl (hr e)
  · exact (inward_onFile (RecordFile.cuts_markUnused _).seated).bind fun _ =>
      (inward_onToc _).bind fun _ => (inward_index _).bind fun _ => .pure

lemma still_map (f : β → α) (h : Maintains Still act) : Maintains Still (f <$> act) := by
  intro s hs
  rw [final_map]
  exact h s hs

/-- **Every mutation** leaves the store still. -/
lemma still_run (c : Coding α) (m : Mutation α) : Maintains Still (m.run c) := by
  cases m with
  | add k x => exact still_map _ (still_add c k x)
  | update k x => exact still_map _ (still_patiently (still_updateWithin c k x))
  | delete k => exact still_map _ (still_patiently (still_deleteWithin k))
  | updateWithin k x p => exact still_updateWithin c k x p
  | deleteWithin k p => exact still_deleteWithin k p

/-- **Reading** leaves the store still. -/
lemma still_getWithin (c : Coding α) (k : Key) (p : Patience) :
    Maintains Still (getWithin c k p) := by
  intro s hs
  rw [getWithin_resting hs.resting, final_orFail]
  exact hs

lemma still_contains (k : Key) : Maintains Still (contains k) := by
  refine still_throughGate fun _ _ => .get_bind fun _ => (inward_lookup k _).bind fun x => ?_
  match x with
  | some (some _) => exact .pure
  | some none => exact .pure
  | none => exact .pure

/-- The file that is put in place has no tail. -/
lemma inward_installCopy (copy : RecordFile) :
    Maintains (Inward g l) (installCopy {} copy (.file copy)) :=
  fun _ hs => ⟨hs.gate, hs.locks, RecordFile.seated_of_none rfl⟩

/-- **A shrink** leaves the store still, whether it succeeds or not. -/
lemma still_shrink : Maintains Still shrink := by
  refine still_throughGate fun _ _ s hs => ?_
  -- The copy is made from the store as it was found, and clearing it away leaves that store.
  have hcleared : ∀ shadow, Inward _ _ { s with shadow := shadow } :=
    fun _ => ⟨hs.gate, hs.locks, hs.seated⟩
  rw [get_bind]
  refine Maintains.bind (maintains_orFail s.waitReady) (fun _ => ?_) s hs
  cases s.makeShadow with
  | error e => exact fun _ _ => hcleared _
  | ok r =>
    exact (inward_installCopy _).bind fun _ => (inward_onToc _).bind fun _ =>
      .get_bind fun _ => .pure

/-- **A checkpoint** leaves the store still. -/
lemma still_checkpoint : Maintains Still checkpoint :=
  still_throughGate fun _ _ => .get_bind fun _ => (maintains_orFail _).bind fun _ =>
    (inward_onVolume Volume.seated_persist).bind fun _ => .pure

lemma inward_flush : Maintains (Inward g l) flush := by
  refine .get_bind fun s => .ite (fun _ => ?_) fun _ => .pure
  cases s.waitReady with
  | ok _ => exact (inward_onVolume Volume.seated_persist).bind fun _ => .pure
  | error e => exact .pure

/-- **Closing** leaves the store still. -/
lemma still_close : Maintains Still close := by
  intro s hs
  rw [Store.close, get_bind]
  by_cases hclosed : s.closed = true
  · rw [if_pos hclosed]
    exact hs
  · rw [if_neg hclosed]
    have henter : enterGate .exclusive ⟨none, none⟩ s = _ := enterGate_resting hs.resting
    rw [if_neg (fun h : (none : Option Bool) = some true => by cases h)] at henter
    by_cases hgate : s.gate.closed = true
    · rw [if_pos hgate] at henter
      rw [bind_of_error henter]
      exact hs
    · rw [if_neg hgate] at henter
      rw [bind_of_ok henter, modify_bind, ensuring_eq, final_after]
      have hflush := inward_flush s.closing (g := s.closing.gate) (l := s.closing.locks)
        ⟨rfl, rfl, hs.seated⟩
      refine ⟨⟨?_, ?_⟩, hflush.seated⟩
      · show ((final (flush s.closing)).gate.leave .exclusive).lock = .free
        rw [hflush.gate]
        rfl
      · show (final (flush s.closing)).locks.slots = .empty
        rw [hflush.locks]
        exact hs.resting.locks

/-- A store that was opened is at rest, and its table is that of the tail or of a scan. -/
lemma opened_cases {config : Config} {content : Except FileFault Content}
    {shadow : RecordFile.ShadowNode} (h : openFile config content shadow = .ok s) :
    s.gate = .opened ∧ s.locks = .empty ∧ ∃ bytes,
      s.volume = (Volume.mount (.ofContent bytes)).1 ∨
        ∃ limit,
          s.volume = final (Volume.runRebuild limit (Volume.mount (.ofContent bytes)).1) := by
  simp only [openFile, bind, Except.bind] at h
  split at h
  · cases h
  split at h
  · cases h
  rename_i bytes _
  split at h
  · cases h
    exact ⟨rfl, rfl, bytes, Or.inl rfl⟩
  · rename_i limit _
    have hvolume : s.gate = .opened ∧ s.locks = .empty ∧
        s.volume = final (Volume.runRebuild limit (Volume.mount (.ofContent bytes)).1) := by
      cases hrun : Volume.runRebuild limit (Volume.mount (.ofContent bytes)).1 <;>
        simp only [hrun] at h <;> (repeat' split at h) <;> cases h <;> exact ⟨rfl, rfl, rfl⟩
    exact ⟨hvolume.1, hvolume.2.1, bytes, Or.inr ⟨limit, hvolume.2.2⟩⟩

/-- A store that is opened is still. -/
lemma still_openFile {config : Config} {content : Except FileFault Content}
    {shadow : RecordFile.ShadowNode} (h : openFile config content shadow = .ok s) : s.Still := by
  obtain ⟨hgate, hlocks, bytes, hvolume⟩ := opened_cases h
  have hmounted := Volume.seated_mount bytes
  refine ⟨⟨by rw [hgate]; rfl, by rw [hlocks]; rfl⟩, ?_⟩
  rcases hvolume with hvolume | ⟨limit, hvolume⟩
  · rw [file, hvolume]
    exact hmounted
  · rw [file, hvolume]
    exact Volume.seated_runRebuild limit _ hmounted

/-- A store that is opened again is still. -/
lemma still_reopen (config : Config) : Maintains Still (reopen config) := by
  refine still_close.bind fun _ => .get_bind fun s t ht => ?_
  cases hopen : openFile config (.ok s.file.content) s.shadow with
  | ok opened => exact still_openFile hopen
  | error e => exact ht

lemma tell_final (wrap : β → Answer α) (r : EStateM.Result Error Store β) :
    (tell wrap r).2 = final r := by
  cases r <;> rfl

/-- **One operation** leaves a store at rest. -/
theorem still_perform (c : Coding α) (op : Operation α) (hs : s.Still) :
    (s.perform c op).2.Still := by
  cases op with
  | add k x => exact tell_final _ _ ▸ still_add c k x s hs
  | get k => exact tell_final _ _ ▸ still_patiently (still_getWithin c k) s hs
  | update k x => exact tell_final _ _ ▸ still_patiently (still_updateWithin c k x) s hs
  | delete k => exact tell_final _ _ ▸ still_patiently (still_deleteWithin k) s hs
  | contains k => exact tell_final _ _ ▸ still_contains k s hs
  | size => rwa [perform, tell_final, final_orFail]
  | keys => rwa [perform, tell_final, final_orFail]
  | shrink => exact tell_final _ _ ▸ still_shrink s hs
  | checkpoint => exact tell_final _ _ ▸ still_checkpoint s hs
  | reopen config => exact tell_final _ _ ▸ still_reopen config s hs

/-- What does not depend on the indexes is maintained when they are rebuilt. -/
lemma maintains_indexAll {P : Store → Prop}
    (h : ∀ s indexes, P s → P { s with indexes := indexes }) (c : Coding α) (ks : List Key) :
    Maintains P (indexAll c ks) := by
  induction ks with
  | nil => exact .pure
  | cons k ks ih =>
    rw [indexAll]
    refine .get_bind fun s => (maintains_orFail _).bind fun x => ?_
    cases x with
    | none => exact ih
    | some x => exact Maintains.bind (.modify fun s => h s _) fun _ => ih.bind fun _ => .pure

lemma maintains_reindex {P : Store → Prop}
    (h : ∀ s indexes, P s → P { s with indexes := indexes }) (c : Coding α) :
    Maintains P (reindex c) :=
  .get_bind fun _ => (maintains_orFail _).bind fun _ =>
    Maintains.bind (.modify fun s => h s _) fun _ => .get_bind fun _ => maintains_indexAll h c _

lemma still_indexes (s : Store) (indexes : List FieldIndex) (hs : s.Still) :
    Still { s with indexes := indexes } := ⟨⟨hs.resting.gate, hs.resting.locks⟩, hs.seated⟩

end Store

/-- **A store is at rest all its life.** -/
theorem Life.still {c : Coding α} {s : Store} (life : Life c s) : s.Still := by
  induction life with
  | opened h => exact Store.still_openFile h
  | performed _ op ih => exact Store.still_perform c op ih
  | mutated _ m ih => exact Store.still_run c m _ ih
  | read _ k p ih => exact Store.still_getWithin c k p _ ih
  | attached _ x ih => exact Store.still_indexes _ _ ih
  | reindexed _ ih => exact Store.maintains_reindex Store.still_indexes c _ ih
  | cancelled _ ih => exact ⟨⟨ih.resting.gate, ih.resting.locks⟩, ih.seated⟩
  | closed _ ih => exact Store.still_close _ ih
  | altered _ content shadow ih => exact ⟨⟨ih.resting.gate, ih.resting.locks⟩, ih.seated⟩

end SlotStore
