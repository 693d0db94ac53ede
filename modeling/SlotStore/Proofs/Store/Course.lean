import Mathlib.Tactic.Common
import SlotStore.Proofs.Store.Compact
import SlotStore.Proofs.Store.Deleted
import SlotStore.Proofs.Store.Life
import SlotStore.Proofs.Volume.Faithful

/-!
# Stores whose file is left alone

A store is opened on a file of slots and asked for one operation after another, with a bound on the
wait or without, while its token may be cancelled and indexes come and go; it is closed and opened
again.  As long as nobody else writes to its file and entities are added under new keys, its table
shows slots of the file with their versions, however many versions were handed out.

* `Course` : the states of such a store;
* `Store.faithful_throughGate` : what is kept behind the gate;
* `Store.faithful_perform`, `Store.faithful_run`, `Course.faithful` : one operation, one mutation,
  and the whole course;
* `Life.shrunk` : what a shrink comes to;
* `Life.shrunk_forged` : a shrink after a payload was taken for the table.
-/

namespace SlotStore

open Steps Volume

variable {α β : Type}

/-- The key that a mutation adds an entity under. -/
def Mutation.adds : Mutation α → List Key
  | .add k _ => [k]
  | _ => []

/-- New keys are not reserved, and not among those used before. -/
def New (ks used : List Key) : Prop := ∀ k ∈ ks, k.isReserved = false ∧ k ∉ used

instance (ks used : List Key) : Decidable (New ks used) :=
  inferInstanceAs (Decidable (∀ k ∈ ks, k.isReserved = false ∧ k ∉ used))

/-- **The states of a store whose file is left alone**, with the keys that were used so far.  It is
opened again with its own table or by a scan, after it was closed or without that. -/
inductive Course (c : Coding α) : List Key → Store → Prop
  | opened {config : Config} {content : Content} {row : Row} {stop : Nat}
    {shadow : RecordFile.ShadowNode} {s : Store} (strewn : Strewn content row stop)
    (h : Store.openFile config (.ok content) shadow = .ok s) :
    Course c (row.map fun p => p.2.key) s
  | performed {used : List Key} {s : Store} (course : Course c used s) (op : Operation α)
    (fresh : New op.adds used) (reopens : op.Reopens s) :
    Course c (op.adds ++ used) (s.perform c op).2
  | mutated {used : List Key} {s : Store} (course : Course c used s) (m : Mutation α)
    (fresh : New m.adds used) : Course c (m.adds ++ used) (final (m.run c s))
  | read {used : List Key} {s : Store} (course : Course c used s) (k : Key) (p : Patience) :
    Course c used (final (Store.getWithin c k p s))
  | attached {used : List Key} {s : Store} (course : Course c used s) (x : FieldIndex) :
    Course c used (final (Store.attach x s))
  | reindexed {used : List Key} {s : Store} (course : Course c used s) :
    Course c used (final (Store.reindex c s))
  | cancelled {used : List Key} {s : Store} (course : Course c used s) :
    Course c used (final (Store.cancel s))
  | closed {used : List Key} {s : Store} (course : Course c used s) :
    Course c used (final (Store.close s))
  | restarted {used : List Key} {s s' : Store} (course : Course c used s) {config : Config}
    {shadow : RecordFile.ShadowNode} (way : s.file.isSealed = true ∨ Bare s.file.content)
    (h : Store.openFile config (.ok s.file.content) shadow = .ok s') : Course c used s'

lemma Course.life {c : Coding α} {used : List Key} {s : Store} (course : Course c used s) :
    Life c s := by
  induction course with
  | opened _ h => exact .opened h
  | performed _ op _ _ ih => exact .performed ih op
  | mutated _ m _ ih => exact .mutated ih m
  | read _ k p ih => exact .read ih k p
  | attached _ x ih => exact .attached ih x
  | reindexed _ ih => exact .reindexed ih
  | cancelled _ ih => exact .cancelled ih
  | closed _ ih => exact .closed ih
  | restarted _ _ h => exact .opened h

namespace Store

variable {s : Store} {k : Key} {mode : LockMode} {p : Patience} {c : Coding α} {x : α} {e : Entry}
  {used : List Key} {act : StoreM β}

/-! ## Behind the gate -/

/-- What is kept behind the gate is kept. -/
lemma faithful_throughGate (hr : s.Resting) (hs : s.volume.Faithful used)
    (h : (final (act (s.inside mode))).volume.Faithful used) :
    (final (throughGate mode act s)).volume.Faithful used := by
  refine throughGate_cases (Q := fun r => (final r).volume.Faithful used) hr (fun _ => hs)
    fun _ => ?_
  rw [final_after]
  exact h

/-- An action on the volume, and what follows it and leaves the volume. -/
lemma faithful_onVolume {γ : Type} {act : VolumeM γ} {next : γ → StoreM β}
    (hnext : ∀ y t, (final (next y t)).volume = t.volume)
    (h : (final (act s.volume)).Faithful used) :
    (final ((onVolume act >>= next) s)).volume.Faithful used := by
  cases hact : act s.volume with
  | ok y v =>
    rw [hact] at h
    rw [bind_of_ok (onVolume_ok hact), hnext]
    exact h
  | error e v =>
    rw [hact] at h
    rw [bind_of_error (onVolume_error hact)]
    exact h

/-! ## Mutations -/

/-- **An entity that is added** leaves the volume faithful. -/
lemma faithful_add (hr : s.Resting) (hv : s.volume.Faithful used) (hk : New [k] used) :
    (final (add c k x s)).volume.Faithful (k :: used) := by
  have hmore : s.volume.Faithful (k :: used) := hv.mono fun j => List.mem_cons_of_mem k
  obtain ⟨hreserved, hfresh⟩ := hk k List.mem_cons_self
  refine faithful_throughGate hr hmore ?_
  rw [get_bind, orFail_bind]
  cases (s.inside .shared).waitReady with
  | error e => exact hmore
  | ok _ =>
    dsimp only
    rw [orFail_bind]
    cases c.encode x with
    | error e => exact hmore
    | ok payload =>
      dsimp only
      rw [placeEntity_eq]
      exact faithful_onVolume (fun _ _ => rfl) (hv.enter hreserved hfresh payload)

lemma faithful_replace (hv : s.volume.Faithful used) (he : s.live? k = some e) (p : Patience) :
    (final (replace c k e p x s)).volume.Faithful used := by
  obtain ⟨hfind, hlive⟩ := mem_live?.mp he
  cases hx : c.encode x with
  | error err =>
    have hfail : orFail (c.encode x) s = .error err s := by
      rw [hx]
      rfl
    rw [replace, bind_of_error hfail]
    exact hv
  | ok payload =>
    obtain ⟨row, shown, hl, _⟩ := hv.shows
    rw [replace_eq hl.ready hx]
    exact faithful_onVolume (fun _ _ => rfl) (hv.exchange hfind hlive payload)

lemma faithful_updateWithin (hr : s.Resting) (hv : s.volume.Faithful used) (p : Patience) :
    (final (updateWithin c k x p s)).volume.Faithful used := by
  refine find_cases (Q := fun r => (final r).volume.Faithful used) hr (fun _ => hv) hv hv
    fun e hh => ?_
  dsimp only
  rw [ensuring_eq, final_after]
  exact faithful_replace (s := s.holding k .exclusive) hv hh.live p

/-- **An entity that is deleted** leaves the volume faithful. -/
lemma faithful_deleteWithin (hr : s.Resting) (hv : s.volume.Faithful used) (p : Patience) :
    (final (deleteWithin k p s)).volume.Faithful used := by
  refine find_cases (Q := fun r => (final r).volume.Faithful used) hr (fun _ => hv) hv hv
    fun e hh => ?_
  obtain ⟨hfind, hlive⟩ := mem_live?.mp hh.live
  have hgive : onVolume (giveUp k e) = (do
      onFile (RecordFile.markUnused e.offset)
      onToc (Toc.markFree k)) := onVolume_bind _ _
  dsimp only
  rw [ensuring_eq, final_after, ← bind_assoc, ← hgive]
  exact faithful_onVolume (s := s.holding k .exclusive) (fun _ _ => rfl) (hv.giveUp hfind hlive)

/-- **One mutation** keeps the table faithful. -/
theorem faithful_run (hr : s.Resting) (hv : s.volume.Faithful used) {m : Mutation α}
    (hfresh : New m.adds used) : (final (m.run c s)).volume.Faithful (m.adds ++ used) := by
  cases m with
  | add k x =>
    rw [Mutation.run, final_map]
    exact faithful_add hr hv hfresh
  | update k x =>
    rw [Mutation.run, final_map, update, final_patiently]
    exact faithful_updateWithin hr hv _
  | delete k =>
    rw [Mutation.run, final_map, delete, final_patiently]
    exact faithful_deleteWithin hr hv _
  | updateWithin k x p => exact faithful_updateWithin hr hv p
  | deleteWithin k p => exact faithful_deleteWithin hr hv p

/-! ## Reading and indexes -/

lemma final_getWithin (hr : s.Resting) : final (getWithin c k p s) = s := by
  rw [getWithin_resting hr, final_orFail]

lemma faithful_contains (hr : s.Resting) (hv : s.volume.Faithful used) :
    (final (contains k s)).volume.Faithful used := by
  refine faithful_throughGate hr hv ?_
  rw [get_bind]
  have hlookup := lookup_eq (s.inside .shared) k (s.inside .shared).unbounded
  cases hlooked : (s.inside .shared).looked k (s.inside .shared).unbounded with
  | error e =>
    rw [hlooked] at hlookup
    rw [bind_of_error hlookup]
    exact hv
  | ok r =>
    rw [hlooked] at hlookup
    rw [bind_of_ok hlookup]
    match r with
    | some (some _) => exact hv
    | some none => exact hv
    | none => exact hv

lemma volume_reindex (c : Coding α) (s : Store) : (final (reindex c s)).volume = s.volume :=
  maintains_reindex (P := fun t => t.volume = s.volume) (fun _ _ h => h) c s rfl

/-! ## The whole file -/

/-- A checkpoint leaves the volume faithful. -/
lemma faithful_checkpoint (hr : s.Resting) (hv : s.volume.Faithful used) :
    (final (checkpoint s)).volume.Faithful used := by
  refine faithful_throughGate hr hv ?_
  rw [get_bind, orFail_bind]
  cases (s.inside .exclusive).waitReady with
  | error e => exact hv
  | ok _ => exact faithful_onVolume (s := s.inside .exclusive) (fun _ _ => rfl) hv.persist

lemma faithful_flush (hv : s.volume.Faithful used) : (final (flush s)).volume.Faithful used := by
  rw [flush, get_bind]
  split
  · cases s.waitReady with
    | error e => exact hv
    | ok _ => exact faithful_onVolume (fun _ _ => rfl) hv.persist
  · exact hv

/-- Closing the store leaves the volume faithful. -/
lemma faithful_close (hs : s.Still) (hv : s.volume.Faithful used) :
    (final (close s)).volume.Faithful used := by
  rw [Store.close, get_bind]
  by_cases hclosed : s.closed = true
  · rw [if_pos hclosed]
    exact hv
  · rw [if_neg hclosed]
    have henter : enterGate .exclusive ⟨none, none⟩ s = _ := enterGate_resting hs.resting
    rw [if_neg (fun h : (none : Option Bool) = some true => by cases h)] at henter
    by_cases hgate : s.gate.closed = true
    · rw [if_pos hgate] at henter
      rw [bind_of_error henter]
      exact hv
    · rw [if_neg hgate] at henter
      rw [bind_of_ok henter, modify_bind, ensuring_eq, final_after]
      exact faithful_flush (s := s.closing) hv

/-- **A store is opened again** with its own table or by a scan. -/
lemma faithful_openFile {v : Volume} (hv : v.Faithful used) {config : Config}
    {shadow : RecordFile.ShadowNode} (hway : v.file.isSealed = true ∨ Bare v.file.content)
    (h : openFile config (.ok v.file.content) shadow = .ok s) : s.volume.Faithful used := by
  cases hvalid : config.validate with
  | error e =>
    rw [openFile_invalid hvalid] at h
    cases h
  | ok =>
    by_cases hsealed : v.file.isSealed = true
    · obtain ⟨v', hload, hv'⟩ := hv.resume hsealed
      obtain ⟨t, hopen, _, hvolume⟩ := openFile_load hvalid hload shadow
      cases h.symm.trans hopen
      exact hvolume ▸ hv'
    · have hbelow : v.file.content.size < positionLimit := by
        obtain ⟨row, shown, hl, _⟩ := hv.shows
        exact hl.tiled.below
      obtain ⟨v', hrun, hsignal, hv'⟩ := hv.rescan (Option.not_isSome_iff_eq_none.mp hsealed)
      obtain ⟨t, hopen, _, hvolume⟩ :=
        openFile_scan hvalid hbelow (hway.resolve_left hsealed) hrun hsignal shadow
      cases h.symm.trans hopen
      exact hvolume ▸ hv'

/-- **A store that is opened again** is faithful if it was sealed, or is scanned without a table. -/
lemma faithful_reopen (hs : s.Still) (hv : s.volume.Faithful used) (config : Config)
    (hway : ∀ s', s.close = .ok () s' → s'.file.isSealed = true ∨ Bare s'.file.content) :
    (final (reopen config s)).volume.Faithful used := by
  have hclosed := faithful_close hs hv
  cases hclose : Store.close s with
  | error e s' =>
    rw [hclose] at hclosed
    rw [reopen, bind_of_error hclose]
    exact hclosed
  | ok _ s' =>
    rw [hclose] at hclosed
    rw [reopen, bind_of_ok hclose, get_bind, orFail_bind]
    cases hopen : openFile config (.ok s'.file.content) s'.shadow with
    | error e => exact hclosed
    | ok opened => exact faithful_openFile hclosed (hway s' hclose) hopen

/-- The copy of the live entities belongs to the table that is made of it. -/
lemma faithful_copy {v : Volume} (hv : v.Faithful used) {g : RecordFile} {copied : List Entry}
    (h : copyLive v.file v.toc.activeEntries = .ok (g, copied)) :
    Faithful ⟨{ g with sealedAt := none }, v.toc.replaceAll copied⟩ used := by
  obtain ⟨row, shown, hl, hk⟩ := hv.shows
  obtain ⟨xs, hreads, hfile, rfl⟩ := copyLive_eq_ok_iff.mp h
  have hp := RecordFile.packed_ofRecords hfile
  have hsame : { g with sealedAt := none } = g := by rw [← hp.unsealed]
  rw [hsame]
  have hcopied : Loose ⟨g, v.toc.replaceAll ((RecordFile.laid 0 xs).map entryOf)⟩
      (RecordFile.laidRow xs) (RecordFile.laidRow xs) :=
    ⟨hp.tiled, hreads.ownKeys.describes hp.tiled v.toc, .refl _, hl.ready, hl.signal⟩
  refine .of_unsealed hcopied (fun q hq hqr => ?_) hp.unsealed
  -- The key of a copy is that of a live entry, and so that of a slot.
  obtain ⟨y, hy, hqy⟩ := mem_laidRow hq
  have hkey : q.2.key ∈ v.toc.activeEntries.map (·.key) := by
    rw [hqy, ← hreads.keys]
    exact List.mem_map.mpr ⟨y, hy, rfl⟩
  obtain ⟨e, he, hek⟩ := List.mem_map.mp hkey
  obtain ⟨hfind, hlive⟩ := hl.described.mem_activeEntries.mp he
  obtain ⟨h', _, hm, _, hh', _, _⟩ := hl.slot hfind hlive
  have hkey' : h'.key = q.2.key := hh'.trans hek
  exact hkey' ▸ hk _ hm (hkey'.symm ▸ hqr)

/-- **A shrink** leaves the volume faithful. -/
lemma faithful_shrink (hr : s.Resting) (hv : s.volume.Faithful used) :
    (final (shrink s)).volume.Faithful used := by
  refine faithful_throughGate hr hv ?_
  rw [get_bind, orFail_bind]
  cases (s.inside .exclusive).waitReady with
  | error e => exact hv
  | ok _ =>
    dsimp only
    cases hmake : (s.inside .exclusive).makeShadow with
    | error e => exact hv
    | ok r =>
      obtain ⟨g, copied⟩ := r
      exact faithful_copy hv (makeShadow_eq_ok_iff.mp hmake).2

/-- **One operation** keeps the table faithful. -/
theorem faithful_perform (hs : s.Still) (hv : s.volume.Faithful used) {op : Operation α}
    (hfresh : New op.adds used) (hreopens : op.Reopens s) :
    (s.perform c op).2.volume.Faithful (op.adds ++ used) := by
  have hr := hs.resting
  cases op with
  | add k x => exact tell_final _ _ ▸ faithful_add hr hv hfresh
  | get k =>
    rw [perform, tell_final, get?, final_patiently, final_getWithin hr]
    exact hv
  | update k x =>
    rw [perform, tell_final, update, final_patiently]
    exact faithful_updateWithin hr hv _
  | delete k =>
    rw [perform, tell_final, delete, final_patiently]
    exact faithful_deleteWithin hr hv _
  | contains k => exact tell_final _ _ ▸ faithful_contains hr hv
  | size => rwa [perform, tell_final, final_orFail]
  | keys => rwa [perform, tell_final, final_orFail]
  | shrink => exact tell_final _ _ ▸ faithful_shrink hr hv
  | checkpoint => exact tell_final _ _ ▸ faithful_checkpoint hr hv
  | reopen config => exact tell_final _ _ ▸ faithful_reopen hs hv config hreopens

end Store

/-! ## The whole course -/

section Courses

variable {c : Coding α} {used : List Key} {s s' : Store}

/-- **The table is faithful** all along the course. -/
theorem Course.faithful (course : Course c used s) : s.volume.Faithful used := by
  induction course with
  | @opened config content row stop shadow s strewn h =>
    cases hvalid : config.validate with
    | error e =>
      rw [Store.openFile_invalid hvalid] at h
      cases h
    | ok =>
      have hstop : stop < positionLimit := by
        have hbelow := strewn.below
        cases strewn.ragged <;> omega
      have hknown : row.Known (row.map fun p => p.2.key) :=
        fun p hp _ => List.mem_map.mpr ⟨p, hp, rfl⟩
      obtain ⟨v, hrun, hsignal, hv⟩ := faithful_scan strewn.fills strewn.ragged hstop hknown
      obtain ⟨t, ht, _, rfl⟩ :=
        Store.openFile_scan hvalid strewn.below strewn.bare hrun hsignal shadow
      cases h.symm.trans ht
      exact hv
  | performed course op fresh reopens ih =>
    exact Store.faithful_perform course.life.still ih fresh reopens
  | mutated course m fresh ih => exact Store.faithful_run course.life.still.resting ih fresh
  | read course k p ih => exact (Store.final_getWithin course.life.still.resting).symm ▸ ih
  | attached _ x ih => exact ih
  | reindexed _ ih => exact (Store.volume_reindex c _).symm ▸ ih
  | cancelled _ ih => exact ih
  | closed course ih => exact Store.faithful_close course.life.still ih
  | restarted _ way h ih => exact Store.faithful_openFile ih way h

/-- **A shrink that succeeds** keeps the live entities with their keys, versions and payloads, in
their order, and leaves nothing else, whatever became of the store and its file before.  If the file
was left alone then the table showed the versions of the slots, and no entity that was counted is
left out. -/
theorem Life.shrunk {r : ShrinkReport} (life : Life c s) (hshrink : Store.shrink s = .ok r s') :
    ∃ xs, s.Compacted r s' xs ∧ ∀ used, Course c used s →
      s.toc.activeEntries.map (·.version) = xs.map (·.1.version) ∧
        r.recordsKept = s.stats.slots.live := by
  obtain ⟨xs, hc⟩ := Store.compacted_of_shrink life.still.resting hshrink
  refine ⟨xs, hc, fun used course => ?_⟩
  have hv := course.faithful
  obtain ⟨row, shown, hl, _⟩ := hv.shows
  refine ⟨hc.before.versions fun e he x hx => ?_, ?_⟩
  · obtain ⟨h, hread, hstamp⟩ := Store.readEntry_of_recordOf hx
    rw [hstamp]
    exact (hv.read_live he (Store.readEntry_eq_ok hread).1).symm
  · have hcount : s.toc.stats.live = s.toc.activeEntries.length := hl.described.stats_live
    rw [hc.recordsKept, ← hc.before.length_eq]
    exact hcount.symm

end Courses

/-! ## Files that were shrunk -/

/-- What a shrink would report. -/
def Store.reported? (s : Store) : Option ShrinkReport :=
  match Store.shrink s with
  | .ok r _ => some r
  | .error _ _ => none

/-- A shrink that reports has succeeded. -/
lemma Store.shrink_of_reported {s : Store} {r : ShrinkReport} (h : s.reported? = some r) :
    Store.shrink s = .ok r (final (Store.shrink s)) := by
  rw [Store.reported?] at h
  cases hshrink : Store.shrink s with
  | ok r' s' =>
    rw [hshrink] at h
    cases h
    rfl
  | error e s' =>
    rw [hshrink] at h
    cases h

namespace Slack

/-- A store with a live slot, a free one and a retired one. -/
def store : Store :=
  let added := (Store.fresh.perform .plain (.add .sample [7])).2
  let moved := (added.perform .plain (.update .sample [7, 8])).2
  let more := (moved.perform .plain (.add Crashed.other [9, 9, 9])).2
  (more.perform .plain (.delete Crashed.other)).2

/-- One slot is live, one is free, and one is retired. -/
lemma course : Course .plain [Crashed.other, .sample] store := by
  have strewn : Strewn .empty [] 0 :=
    ⟨.nil 0, .none rfl, by decide, fun _ _ hp => absurd hp.room (by decide)⟩
  have opened : Course (α := Bytes) .plain [] .fresh := .opened strewn Store.openFile_fresh
  have hsample : New [.sample] [] := by decide
  have hother : New [Crashed.other] [.sample] := by decide
  have added := opened.performed (.add .sample [7]) hsample trivial
  have moved := added.performed (.update .sample [7, 8]) (fun _ h => by cases h) trivial
  have more := moved.performed (.add Crashed.other [9, 9, 9]) hother trivial
  exact more.performed (.delete Crashed.other) (fun _ h => by cases h) trivial

/-- What its shrink reports. -/
def report : ShrinkReport where
  bytesBefore := 114
  bytesAfter := 38
  recordsKept := 1
  slotsReclaimed := 2

lemma shrink_ok : Store.shrink store = .ok report (final (Store.shrink store)) :=
  Store.shrink_of_reported (by decide +kernel)

end Slack

/-- A free slot, a retired one and the slack are gone. -/
theorem Life.shrunk_slack : ∃ used s r s', Life .plain s ∧ Course .plain used s ∧
    Store.shrink s = .ok r s' ∧ s.stats.slots.free = 1 ∧ s.stats.slots.retired = 1 ∧
      r.bytesReclaimed = 76 ∧ ∃ xs, s.Compacted r s' xs ∧
        s.toc.activeEntries.map (·.version) = xs.map (·.1.version) ∧
          r.recordsKept = s.stats.slots.live := by
  obtain ⟨xs, hc, hknown⟩ := Life.shrunk Slack.course.life Slack.shrink_ok
  exact ⟨_, _, _, _, Slack.course.life, Slack.course, Slack.shrink_ok, by decide +kernel,
    by decide +kernel, by decide, xs, hc, hknown _ Slack.course⟩

namespace Forged

/-- Where the payload of the second slot begins. -/
def start : Nat := Header.size + 1 + Header.size

/-- A table that shows the first slot with a version it does not have, and counts an entry of the
reserved key. -/
def table : Snapshot where
  format := Snapshot.currentFormat
  dataEnd := start
  nextVersion := 10
  entries := [⟨.sample, 0, Header.size + 1, false, 9⟩, ⟨.reserved, 0, Header.size, false, 1⟩]
  retired := []

/-- The tail of a file with that table. -/
def payload : Bytes := RecordFile.tail start ⟨.reserved, 1⟩ table.write

/-- The tail is the payload of the last entity, and the store is opened again. -/
def reopened : List (Event Bytes) × Store :=
  let opened := Store.advance .plain (.reopen .scanning) ([], .fresh)
  let first := Store.advance .plain (.add .sample [7]) opened
  let second := Store.advance .plain (.add Crashed.other payload) first
  Store.advance .plain (.reopen .scanning) second

/-- The payload with the table is there when the store is opened again. -/
lemma run : Run .plain (fun h _ op => op.Fresh h) reopened.1 reopened.2 := by
  have hreopen : ∀ h, (Operation.reopen (α := Bytes) .scanning).Fresh h := fun _ => trivial
  have hsample : ∀ h, .sample ∉ added h → (Operation.add .sample ([7] : Bytes)).Fresh h :=
    fun _ h => ⟨by decide, h⟩
  have hother : ∀ h, Crashed.other ∉ added h → (Operation.add Crashed.other payload).Fresh h :=
    fun _ h => ⟨by decide, h⟩
  have fresh : Run (α := Bytes) .plain (fun h _ op => op.Fresh h) [] .fresh :=
    .opened Store.openFile_fresh
  have opened := fresh.next (hreopen _)
  have first := opened.next (hsample _ (by decide))
  have second := first.next (hother _ (by decide))
  exact second.next (hreopen _)

/-- What its shrink reports. -/
def report : ShrinkReport where
  bytesBefore := 177
  bytesAfter := 37
  recordsKept := 1
  slotsReclaimed := 0

lemma shrink_ok : Store.shrink reopened.2 = .ok report (final (Store.shrink reopened.2)) :=
  Store.shrink_of_reported (by decide +kernel)

end Forged

/-- **The table may be one that somebody put into a payload.**  Then a shrink changes the version
that is shown for an entity, and keeps fewer entities than were counted. -/
theorem Life.shrunk_forged : ∃ h s r s', Run .plain (fun h _ op => op.Fresh h) h s ∧
    Store.shrink s = .ok r s' ∧
      s'.toc.activeEntries.map (·.version) ≠ s.toc.activeEntries.map (·.version) ∧
        r.recordsKept ≠ s.stats.slots.live :=
  ⟨_, _, _, _, Forged.run, Forged.shrink_ok, by decide +kernel, by decide +kernel⟩

end SlotStore
