import Mathlib.Tactic.Common
import SlotStore.Proofs.Store.Queries

/-!
# What operations do to indexes

A write hands the entity to all indexes if it succeeds, a store that is opened again has none, and
no other operation touches them.  Hence indexes that follow the live entities go on to do so.  A
rebuild makes all indexes follow the live entities, whatever they held before.

* `Event.indexes`, `Store.Serves.perform_indexes` : the indexes after an operation;
* `Event.indexes_follow` : they go on to follow the entities;
* `Store.Serves.reindex` : the rebuild.
-/

namespace SlotStore

open Steps

variable {α : Type} {c : Coding α}

/-- The entity that an event put under its key. -/
def Event.wrote (e : Event α) : List α :=
  match e.op.write?, e.answer with
  | some (_, some x), .done => [x]
  | _, _ => []

/-- **What an event leaves of the indexes.** -/
def Event.indexes (c : Coding α) (e : Event α) (xs : List FieldIndex) : List FieldIndex :=
  match e.op, e.answer with
  | .add k x, .done => xs.map (·.upsert k (c.document x))
  | .update k x, .done => xs.map (·.upsert k (c.document x))
  | .delete k, .done => xs.map (·.remove k)
  | .reopen _, .done => []
  | _, _ => xs

namespace Store

variable {s : Store} {k : Key} {held : Key → Option Bytes} {live : Key → Option α}
  {used : List Key} {n : Nat} {known : Document → Prop} {xs : List FieldIndex}

/-! ## Operations that leave the indexes alone -/

section Alone

variable {β : Type}

/-- What is done to the volume leaves the indexes alone. -/
lemma maintains_onVolume (act : VolumeM β) :
    Maintains (fun s : Store => s.indexes = xs) (onVolume act) := by
  intro s hs
  rw [onVolume]
  cases act s.volume <;> exact hs

/-- What an action behind the gate leaves of the indexes. -/
lemma indexes_throughGate (hi : s.Idle) {mode : LockMode} {act : StoreM β}
    (hact : (final (act (s.inside mode))).indexes = s.indexes) :
    (final (throughGate mode act s)).indexes = s.indexes := by
  rw [throughGate_idle hi, ← hact]
  cases act (s.inside mode) <;> rfl

/-- **A shrink** leaves the indexes alone. -/
lemma Idle.indexes_shrink (hi : s.Idle) : (final (Store.shrink s)).indexes = s.indexes := by
  refine indexes_throughGate hi ?_
  rw [get_bind]
  refine Maintains.bind (P := fun t : Store => t.indexes = s.indexes) (maintains_orFail _)
    (fun _ => ?_) (s.inside .exclusive) rfl
  -- The copy reads the store only; what follows it changes the file, the shadow and the table.
  cases (s.inside .exclusive).makeShadow with
  | error e => exact fun _ _ => rfl
  | ok made =>
    have hinstall : Maintains (fun t : Store => t.indexes = s.indexes)
        (installCopy {} made.1 (.file made.1)) := fun _ ht => ht
    exact hinstall.bind fun _ => (maintains_onVolume _).bind fun _ => .get_bind fun _ => .pure

/-- A checkpoint leaves the indexes alone. -/
lemma Idle.indexes_checkpoint (hi : s.Idle) :
    (final (Store.checkpoint s)).indexes = s.indexes := by
  have hact : Maintains (fun t : Store => t.indexes = s.indexes) (do
      orFail (← get).waitReady
      let _ ← onVolume Volume.persist) :=
    .get_bind fun _ => (maintains_orFail _).bind fun _ => (maintains_onVolume _).bind fun _ => .pure
  exact indexes_throughGate hi (hact _ rfl)

/-- Closing the store leaves the indexes alone. -/
lemma Idle.indexes_close (hi : s.Idle) : (final (Store.close s)).indexes = s.indexes := by
  have hflush : Maintains (fun t : Store => t.indexes = s.indexes) flush := by
    refine .get_bind fun t => .ite (fun _ => ?_) fun _ => .pure
    cases t.waitReady with
    | ok => exact (maintains_onVolume _).bind fun _ => .pure
    | error e => exact .pure
  have hkept : (final (flush s.closing)).indexes = s.indexes := hflush _ rfl
  rw [close_idle hi, ← hkept]
  cases flush s.closing <;> rfl

/-- A store that is opened has no index. -/
lemma indexes_openFile {config : Config} {content : Except FileFault Content}
    {shadow : RecordFile.ShadowNode} (h : openFile config content shadow = .ok s) :
    s.indexes = [] := by
  simp only [openFile, bind, Except.bind] at h
  split at h
  · cases h
  split at h
  · cases h
  split at h
  · cases h
    rfl
  · split at h
    · split at h
      · cases h
      · cases h
        rfl
    · cases h
      rfl

/-- **Opening a store again** drops its indexes if it succeeds. -/
lemma Idle.indexes_reopen (hi : s.Idle) (config : Config) :
    (∀ {s'}, Store.reopen config s = .ok () s' → s'.indexes = []) ∧
      ∀ {e s'}, Store.reopen config s = .error e s' → s'.indexes = s.indexes := by
  have hkept := hi.indexes_close
  rw [Store.reopen]
  cases hclose : s.close with
  | error e t =>
    rw [hclose] at hkept
    rw [bind_of_error hclose]
    refine ⟨fun h => (by cases h), fun h => ?_⟩
    cases h
    exact hkept
  | ok _ t =>
    rw [hclose] at hkept
    rw [bind_of_ok hclose, get_bind]
    cases hopen : openFile config (.ok t.file.content) t.shadow with
    | error e =>
      refine ⟨fun h => (by cases h), fun h => ?_⟩
      cases h
      exact hkept
    | ok t' =>
      refine ⟨fun h => ?_, fun h => by cases h⟩
      cases h
      exact indexes_openFile hopen

end Alone

/-! ## Every operation -/

lemma tell_snd {β : Type} (wrap : β → Answer α) (r : EStateM.Result Error Store β) :
    (tell wrap r).2 = final r := by
  cases r <;> rfl

/-- What a write leaves of the indexes: they change if it succeeds. -/
lemma indexes_written {op : Operation α} (index : FieldIndex → FieldIndex)
    (r : EStateM.Result Error Volume Unit)
    (hdone : ∀ xs, Event.indexes c ⟨op, .done, n⟩ xs = xs.map index)
    (hfailed : ∀ e xs, Event.indexes c ⟨op, .failed e, n⟩ xs = xs) :
    (tell (fun _ => (.done : Answer α)) (s.written index r)).2.indexes =
      Event.indexes c ⟨op, (tell (fun _ => .done) (s.written index r)).1, n⟩ s.indexes := by
  cases r with
  | ok _ v => exact (hdone _).symm
  | error e v => exact (hfailed _ _).symm

/-- **What a step leaves of the indexes.** -/
theorem Serves.perform_indexes (hs : s.Serves held used n) (op : Operation α) (draws : Nat) :
    (s.perform c op).2.indexes = Event.indexes c ⟨op, (s.perform c op).1, draws⟩ s.indexes := by
  have hp := hs.poised
  cases op with
  | add k x =>
    rw [Store.perform]
    cases hx : c.encode x with
    | ok payload =>
      rw [hp.add_eq hx]
      exact indexes_written _ _ (fun _ => rfl) fun _ _ => rfl
    | error e =>
      rw [hp.add_refused hx]
      rfl
  | update k x =>
    rw [Store.perform]
    cases he : s.live? k with
    | none =>
      rw [hp.update_absent he]
      rfl
    | some entry =>
      cases hx : c.encode x with
      | ok payload =>
        rw [hp.update_eq he hx]
        exact indexes_written _ _ (fun _ => rfl) fun _ _ => rfl
      | error e =>
        rw [hp.update_refused he hx]
        rfl
  | delete k =>
    rw [Store.perform]
    cases he : s.live? k with
    | none =>
      rw [hp.delete_absent he]
      rfl
    | some entry =>
      rw [hp.delete_eq he]
      exact indexes_written _ _ (fun _ => rfl) fun _ _ => rfl
  | get k =>
    rw [Store.perform, tell_snd, hs.get?]
    split
    · rfl
    · split <;> rfl
  | contains k =>
    rw [Store.perform, hs.contains]
    rfl
  | size =>
    rw [Store.perform, tell_snd]
    cases s.size <;> rfl
  | keys =>
    rw [Store.perform, tell_snd]
    cases s.keys <;> rfl
  | shrink =>
    rw [Store.perform, tell_snd]
    exact hs.idle.indexes_shrink
  | checkpoint =>
    rw [Store.perform, tell_snd]
    exact hs.idle.indexes_checkpoint
  | reopen config =>
    obtain ⟨hok, herror⟩ := hs.idle.indexes_reopen config
    rw [Store.perform]
    cases h : Store.reopen config s with
    | ok _ s' => exact hok h
    | error e s' => exact herror h

end Store

/-- **Indexes that follow the entities of a history go on to follow them** after one more event. -/
theorem Event.indexes_follow {known known' : Document → Prop} {live : Key → Option α}
    {xs : List FieldIndex} (e : Event α)
    (hxs : ∀ x ∈ xs, x.Follows known fun k => (live k).map c.document)
    (hknown : ∀ d, known d → known' d)
    (hwrote : ∀ y ∈ e.wrote, known' (c.document y)) :
    ∀ x ∈ e.indexes c xs, x.Follows known' fun k => (e.leaves live k).map c.document := by
  have hmono : ∀ x ∈ xs, x.Follows known' fun k => (live k).map c.document :=
    fun x hx => (hxs x hx).mono hknown
  have hput : ∀ k y, known' (c.document y) → ∀ x ∈ xs.map (·.upsert k (c.document y)),
      x.Follows known' fun j => (if j = k then some y else live j).map c.document := by
    intro k y hy x hx
    obtain ⟨old, hold, rfl⟩ := List.mem_map.mp hx
    have hupsert := (hmono old hold).upsert k hy
    simp only [apply_ite (Option.map c.document)]
    exact hupsert
  have herase : ∀ k, ∀ x ∈ xs.map (·.remove k),
      x.Follows known' fun j => (if j = k then none else live j).map c.document := by
    intro k x hx
    obtain ⟨old, hold, rfl⟩ := List.mem_map.mp hx
    have hremove := (hmono old hold).remove k
    simp only [apply_ite (Option.map c.document)]
    exact hremove
  obtain ⟨op, answer, draws⟩ := e
  cases answer with
  | done =>
    cases op with
    | add k y => exact hput k y (hwrote y List.mem_cons_self)
    | update k y => exact hput k y (hwrote y List.mem_cons_self)
    | delete k => exact herase k
    | reopen config => exact fun x hx => by cases hx
    | _ => exact hmono
  | _ => cases op <;> exact hmono

namespace Store

variable {s : Store} {k : Key} {held : Key → Option Bytes} {live : Key → Option α}
  {used : List Key} {n : Nat} {known : Document → Prop}

/-! ## Rebuilding -/

/-- **Entities are put into all indexes**, one after another. -/
lemma Serves.indexAll (hs : s.Serves held used n) (hl : Spelled c live held) (ks : List Key)
    (hlive : ∀ k ∈ ks, ∃ x, live k = some x ∧ known (c.document x)) {docs : Key → Option Document}
    (hfollows : ∀ x ∈ s.indexes, x.Follows known docs) :
    ∃ xs, Store.indexAll c ks s = .ok ks.length { s with indexes := xs } ∧
      ∀ x ∈ xs, x.Follows known fun j => if j ∈ ks then (live j).map c.document else docs j := by
  -- The indexes change from key to key, and so do the documents that they follow.
  induction ks generalizing s docs with
  | nil =>
    refine ⟨s.indexes, rfl, fun x hx => ?_⟩
    simp only [List.not_mem_nil, if_false]
    exact hfollows x hx
  | cons k ks ih =>
    obtain ⟨y, hy, hknown⟩ := hlive k List.mem_cons_self
    have hdecode : orFail (Store.decode? c s k) s = .ok (some y) s := by
      rw [hs.decode? hl k, hy]
      rfl
    have hput : ∀ x ∈ (indexEntity k (c.document y) s).indexes,
        x.Follows known fun j => if j = k then some (c.document y) else docs j := by
      intro x hx
      obtain ⟨old, hold, rfl⟩ := List.mem_map.mp hx
      exact (hfollows old hold).upsert k hknown
    obtain ⟨xs, hrun, hxs⟩ := ih (s := indexEntity k (c.document y) s)
      (hs.written_ok hs.holds _) (fun j hj => hlive j (List.mem_cons_of_mem k hj)) hput
    refine ⟨xs, ?_, fun x hx => ?_⟩
    · rw [Store.indexAll, get_bind, bind_of_ok hdecode]
      dsimp only
      rw [modify_bind, bind_of_ok hrun]
      rfl
    · have hsame : (fun j => if j ∈ k :: ks then (live j).map c.document else docs j) =
          fun j => if j ∈ ks then (live j).map c.document
            else if j = k then some (c.document y) else docs j := by
        funext j
        by_cases hj : j = k
        · simp only [hj, List.mem_cons_self, if_true, hy, Option.map_some, ite_self]
        · simp only [List.mem_cons, hj, false_or, if_false]
      rw [hsame]
      exact hxs x hx

/-- **A rebuild** makes all indexes follow the live entities, and counts these. -/
theorem Serves.reindex (hs : s.Serves held used n) (hl : Spelled c live held)
    (known : Document → Prop) (hknown : ∀ k x, live k = some x → known (c.document x)) :
    ∃ xs, Store.reindex c s = .ok s.toc.activeEntries.length { s with indexes := xs } ∧
      ∀ x ∈ xs, x.Follows known fun k => (live k).map c.document := by
  have hlists := (hs.roll hl).lists
  have hcleared : ∀ x ∈ s.indexes.map (·.clear), x.Follows known fun _ => none := by
    intro x hx
    obtain ⟨old, _, rfl⟩ := List.mem_map.mp hx
    exact .ofPaths old.paths known
  obtain ⟨xs, hrun, hxs⟩ := Serves.indexAll (s := { s with indexes := s.indexes.map (·.clear) })
    (hs.written_ok hs.holds _) hl (s.toc.activeEntries.map (·.key))
    (fun k hk => by
      obtain ⟨x, hx⟩ := Option.isSome_iff_exists.mp ((hlists.2 k).mp hk)
      exact ⟨x, hx, hknown k x hx⟩) hcleared
  refine ⟨xs, ?_, fun x hx => ?_⟩
  · have hwait : orFail s.waitReady s = .ok () s := by
      rw [waitReady_of_succeeded hs.poised.signal]
      rfl
    rw [Store.reindex, get_bind, bind_of_ok hwait, modify_bind, get_bind]
    rw [List.length_map] at hrun
    exact hrun
  · have hsame : (fun j => if j ∈ s.toc.activeEntries.map (·.key) then (live j).map c.document
        else none) = fun j => (live j).map c.document := by
      funext j
      split
      · rfl
      · rename_i hj
        rw [Option.not_isSome_iff_eq_none.mp ((hlists.2 j).not.mp hj)]
        rfl
    rw [← hsame]
    exact hxs x hx

end Store

end SlotStore
