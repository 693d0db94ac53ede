import Mathlib.Data.List.Forall2
import Mathlib.Tactic.Common
import SlotStore.Proofs.Record.Packed
import SlotStore.Proofs.Store.Resting
import SlotStore.Proofs.Volume.Rebuild
import SlotStore.Store.Shrink

/-!
# What a shrink leaves

A shrink that succeeds has read the record of every live entry and written these records, and
nothing else, back to back into a new file.  Nothing has to be known of the store for that: whatever
its file holds, the records that can be found in the new store are those that could be found in the
old one.

* `Store.Reads` : the records that entries point at;
* `Store.copyLive_eq_ok_iff` : the copy is the file of the records that were read;
* `Store.reads_laid`, `Store.OwnKeys.toc_copied`, `Store.OwnKeys.alike_scanned` : what is read from
  the copy, its table, and the table that a scan of it comes to;
* `Store.shrink_eq_ok_iff` : a shrink is that copy put in place;
* `Store.Compacted`, `Store.compacted_of_shrink` : what is kept and what is gone.
-/

namespace SlotStore

open Steps RecordFile

/-! ## Reading and copying records -/

namespace Store

variable {f g g' : RecordFile} {e : Entry} {es copied : List Entry} {x : Stamp × Bytes}
  {xs ys : List (Stamp × Bytes)} {o : Nat} {k : Key}

/-- The record that an entry points at. -/
def recordOf (f : RecordFile) (e : Entry) : Except Error (Stamp × Bytes) :=
  (Volume.readEntry f e).map fun r => (⟨r.1.key, r.1.version⟩, r.2)

/-- The entry of a record that fills its slot. -/
def entryOf (q : Nat × Stamp × Bytes) : Entry := .ofHeader q.1 (headerOf q.2)

/-- **Entries point at records**, each at one of them. -/
abbrev Reads (f : RecordFile) (es : List Entry) (xs : List (Stamp × Bytes)) : Prop :=
  List.Forall₂ (fun e x => recordOf f e = .ok x) es xs

/-- The record of an entry is what is read of it. -/
lemma readEntry_of_recordOf (h : recordOf f e = .ok x) :
    ∃ header, Volume.readEntry f e = .ok (header, x.2) ∧ x.1 = ⟨header.key, header.version⟩ := by
  rw [recordOf] at h
  cases hread : Volume.readEntry f e with
  | error err =>
    rw [hread] at h
    cases h
  | ok r =>
    rw [hread] at h
    cases h
    exact ⟨r.1, rfl, rfl⟩

/-- An entry that can be read points at a slot in use of its key. -/
lemma readEntry_eq_ok {header : Header} {payload : Bytes}
    (h : Volume.readEntry f e = .ok (header, payload)) :
    f.read e.offset = .ok (header, payload) ∧ header.key = e.key ∧ header.inUse = true := by
  rw [Volume.readEntry] at h
  obtain ⟨r, hread, h⟩ := exists_ok_of_bind h
  dsimp only at h
  split at h
  · cases h
  · rename_i hslot
    obtain ⟨hkey, huse⟩ := not_or.mp hslot
    cases h
    exact ⟨hread, not_not.mp hkey, not_not.mp huse⟩

/-- The record of an entry has its key. -/
lemma key_of_recordOf (h : recordOf f e = .ok x) : x.1.key = e.key := by
  obtain ⟨header, hread, hstamp⟩ := readEntry_of_recordOf h
  rw [hstamp]
  exact (readEntry_eq_ok hread).2.1

/-- Records that are read have the keys of their entries. -/
lemma Reads.keys (h : Reads f es xs) : xs.map (·.1.key) = es.map (·.key) := by
  induction h with
  | nil => rfl
  | cons hx _ ih => rw [List.map_cons, List.map_cons, ih, key_of_recordOf hx]

/-- Entries tell the versions of their records if each of them does. -/
lemma Reads.versions (h : Reads f es xs)
    (hversion : ∀ e ∈ es, ∀ x, recordOf f e = .ok x → e.version = x.1.version) :
    es.map (·.version) = xs.map (·.1.version) := by
  induction h with
  | nil => rfl
  | @cons e x es xs hx _ ih =>
    rw [List.map_cons, List.map_cons, hversion e List.mem_cons_self x hx,
      ih fun e' he' => hversion e' (List.mem_cons_of_mem e he')]

/-- An entry that is copied was read, and its record appended. -/
lemma copyEntry_eq_ok (h : copyEntry f e g = .ok e' g') :
    ∃ x o, recordOf f e = .ok x ∧ append x.1 x.2 x.2.length g = .ok o g' := by
  rw [copyEntry] at h
  obtain ⟨r, t, hread, hnext⟩ := bind_eq_ok h
  obtain ⟨o, t', happend, hlast⟩ := bind_eq_ok hnext
  cases hlast
  cases hentry : Volume.readEntry f e with
  | error err =>
    rw [hentry] at hread
    cases hread
  | ok r' =>
    rw [hentry] at hread
    cases hread
    exact ⟨_, o, by rw [recordOf, hentry]; rfl, happend⟩

/-- A record that is not too long and can be appended is copied. -/
lemma copyEntry_of_record (hx : recordOf f e = .ok x) (hshort : x.2.length < lengthLimit)
    (happend : append x.1 x.2 x.2.length g = .ok o g') :
    copyEntry f e g = .ok (entryOf (o, x)) g' := by
  obtain ⟨header, hread, hstamp⟩ := readEntry_of_recordOf hx
  obtain ⟨⟨key, version⟩, payload⟩ := x
  cases hstamp
  have hpure : RecordFile.orFail (Volume.readEntry f e) g = .ok (header, payload) g := by
    rw [hread]
    rfl
  have hslot : (headerOf (⟨header.key, header.version⟩, payload)).slotSize =
      Header.size + payload.length := Header.slotSize_ofPayload hshort
  rw [copyEntry, bind_of_ok hpure]
  dsimp only
  rw [bind_of_ok happend, entryOf, Entry.ofHeader, hslot]
  rfl

/-- The entries that were copied have been read, and their records appended. -/
lemma copy_eq_ok (h : (es.mapM (copyEntry f)) g = .ok copied g') :
    ∃ xs, Reads f es xs ∧ appendAll xs g = .ok () g' := by
  induction es generalizing g copied with
  | nil =>
    cases h
    exact ⟨[], .nil, rfl⟩
  | cons e es ih =>
    rw [List.mapM_cons] at h
    obtain ⟨e', g₁, hstep, hnext⟩ := bind_eq_ok h
    obtain ⟨copied', g₂, hrest, hlast⟩ := bind_eq_ok hnext
    cases hlast
    obtain ⟨x, o, hx, happend⟩ := copyEntry_eq_ok hstep
    obtain ⟨xs, hreads, hall⟩ := ih hrest
    refine ⟨x :: xs, .cons hx hreads, ?_⟩
    rw [appendAll_cons, bind_of_ok happend]
    exact hall

/-- The copies of entries are the entries of the records that were appended. -/
lemma copy_of_records (hreads : Reads f es xs) (hp : Packed ys g)
    (h : appendAll xs g = .ok () g') :
    (es.mapM (copyEntry f)) g = .ok ((laid g.cursor xs).map entryOf) g' := by
  induction hreads generalizing ys g with
  | nil =>
    cases h
    rfl
  | @cons e x es xs hx _ ih =>
    rw [appendAll_cons] at h
    obtain ⟨o, g₁, happend, hrest⟩ := bind_eq_ok h
    obtain ⟨hshort, hroom⟩ := hp.room happend
    obtain ⟨rfl, hp₁⟩ := hp.append happend
    have hcursor : g₁.cursor = g.cursor + (Header.size + x.2.length) := by
      rw [hp₁.cursor, hp.cursor, extent_append]
      rfl
    rw [List.mapM_cons, bind_of_ok (copyEntry_of_record hx hshort happend),
      bind_of_ok (ih hp₁ hrest), hcursor]
    rfl

/-- **The copy of some entries** is the file of the records that they point at. -/
theorem copyLive_eq_ok_iff : copyLive f es = .ok (g, copied) ↔
    ∃ xs, Reads f es xs ∧ ofRecords xs = .ok g ∧ copied = (laid 0 xs).map entryOf := by
  rw [copyLive, EStateM.run]
  constructor
  · intro h
    split at h
    · rename_i copied' g' hrun
      cases h
      obtain ⟨xs, hreads, hall⟩ := copy_eq_ok hrun
      have hsame := copy_of_records hreads .nil hall
      cases hrun.symm.trans hsame
      exact ⟨xs, hreads, ofRecords_eq_ok_iff.mpr hall, rfl⟩
    · cases h
  · rintro ⟨xs, hreads, hall, rfl⟩
    have hcopy := copy_of_records hreads .nil (ofRecords_eq_ok_iff.mp hall)
    rw [hcopy]
    rfl

/-! ## What is read back from a copy -/

/-- The copy has the records that were appended to it. -/
lemma recordOf_laid (hp : Packed xs g) {q : Nat × Stamp × Bytes} (hq : q ∈ laid 0 xs) :
    recordOf g (entryOf q) = .ok q.2 := by
  have hread : Volume.readEntry g (entryOf q) = .ok (headerOf q.2, q.2.2) := by
    rw [Volume.readEntry, show (entryOf q).offset = q.1 from rfl, hp.reads q hq]
    exact if_neg fun h => h.elim (fun hkey => hkey rfl) fun huse => huse rfl
  rw [recordOf, hread]
  rfl

/-- **The records of a copy** are those that were copied. -/
lemma reads_laid (hp : Packed xs g) : Reads g ((laid 0 xs).map entryOf) xs := by
  have hall : List.Forall₂ (fun q q' => recordOf g (entryOf q) = .ok q'.2)
      (laid 0 xs) (laid 0 xs) := List.forall₂_same.mpr fun q hq => recordOf_laid hp hq
  have hright : List.Forall₂ (fun q x => recordOf g (entryOf q) = .ok x)
      (laid 0 xs) ((laid 0 xs).map (·.2)) := List.forall₂_map_right_iff.mpr hall
  rw [map_laid] at hright
  exact List.forall₂_map_left_iff.mpr hright

/-! ## The table of a copy -/

lemma map_entryOf (xs : List (Stamp × Bytes)) :
    (laid 0 xs).map entryOf = (laidRow xs).map fun p => .ofHeader p.1 p.2 := by
  rw [laidRow, List.map_map]
  rfl

/-- Each record has a key of its own, and none has the reserved one. -/
structure OwnKeys (xs : List (Stamp × Bytes)) : Prop where
  distinct : xs.Pairwise fun x y => x.1.key ≠ y.1.key
  unreserved : ∀ x ∈ xs, x.1.key.isReserved = false

/-- Live entries have keys of their own. -/
lemma Reads.ownKeys {t : Toc} (h : Reads f t.activeEntries xs) : OwnKeys xs where
  distinct := by
    have hkeys := List.pairwise_map.mpr t.activeEntries_distinct
    rw [← h.keys] at hkeys
    exact List.pairwise_map.mp hkeys
  unreserved x hx := by
    have hkey : x.1.key ∈ t.activeEntries.map (·.key) :=
      h.keys ▸ List.mem_map.mpr ⟨x, hx, rfl⟩
    obtain ⟨e, he, hsame⟩ := List.mem_map.mp hkey
    have hactive := (List.mem_filter.mp ((Toc.perm_byOffset _).mem_iff.mp he)).2
    obtain ⟨_, hkey⟩ := Bool.and_eq_true_iff.mp hactive
    rw [← hsame, ← Bool.not_eq_true']
    exact hkey

lemma mem_laidRow {p : Nat × Header} (h : p ∈ laidRow xs) : ∃ x ∈ xs, p.2 = headerOf x := by
  obtain ⟨q, hq, rfl⟩ := List.mem_map.mp h
  refine ⟨q.2, ?_, rfl⟩
  rw [← map_laid 0 xs]
  exact List.mem_map.mpr ⟨q, hq, rfl⟩

/-- What is taken from the headers of the slots is taken from the records. -/
lemma map_laidRow {β : Type} (take : Header → β) (xs : List (Stamp × Bytes)) :
    (laidRow xs).map (fun p => take p.2) = xs.map fun x => take (headerOf x) := by
  have hmap : (laidRow xs).map (fun p => take p.2) =
      ((laid 0 xs).map (·.2)).map fun x => take (headerOf x) := by
    rw [laidRow, List.map_map, List.map_map]
    rfl
  rw [hmap, map_laid]

/-- No two slots of a copy have one key. -/
lemma OwnKeys.laidRow (hx : OwnKeys xs) :
    (laidRow xs).Pairwise fun p q => p.2.key ≠ q.2.key := by
  have hkeys : ((RecordFile.laidRow xs).map (·.2.key)).Pairwise fun k j => k ≠ j := by
    rw [map_laidRow]
    exact List.pairwise_map.mpr hx.distinct
  exact List.pairwise_map.mp hkeys

end Store

namespace Toc

variable {t : Toc} {es : List Entry}

/-- **A table that is replaced** has the new entries. -/
lemma items_replaceAll (hd : es.Pairwise fun a b => a.key ≠ b.key) :
    (t.replaceAll es).entries.items.Perm es := by
  have hitems : (t.replaceAll es).entries.items = es.reverse ++ [] :=
    Keyed.items_foldl_put es hd .empty fun _ _ _ h => by cases h
  rw [hitems, List.append_nil]
  exact es.reverse_perm

/-- A table that is replaced shows its entries in the order of the file. -/
lemma activeEntries_replaceAll (hd : es.Pairwise fun a b => a.key ≠ b.key)
    (hlive : ∀ e ∈ es, e.isFree = false ∧ e.key.isReserved = false)
    (hsorted : es.Pairwise fun a b => a.offset < b.offset) :
    (t.replaceAll es).activeEntries = es := by
  have hitems := t.items_replaceAll hd
  refine byOffset_eq ?_ hsorted
  rw [List.filter_eq_self.mpr fun e he => ?_]
  · exact hitems.symm
  · obtain ⟨hfree, hkey⟩ := hlive e (hitems.mem_iff.mp he)
    rw [hfree, hkey]
    rfl

/-- Live entries that replace all others leave no slot free or retired. -/
lemma stats_replaceAll (hd : es.Pairwise fun a b => a.key ≠ b.key)
    (hlive : ∀ e ∈ es, e.isFree = false) : (t.replaceAll es).stats.live = es.length ∧
      (t.replaceAll es).stats.free = 0 ∧ (t.replaceAll es).stats.retired = 0 := by
  have hitems := t.items_replaceAll hd
  have hfree : ∀ e ∈ (t.replaceAll es).entries.items, e.isFree = false :=
    fun e he => hlive e (hitems.mem_iff.mp he)
  have hpart : (t.replaceAll es).entries.items.partition (·.isFree) =
      ([], (t.replaceAll es).entries.items) := by
    rw [List.partition_eq_filter_filter]
    refine Prod.ext (List.filter_eq_nil_iff.mpr fun e he => ?_)
      (List.filter_eq_self.mpr fun e he => ?_)
    · rw [hfree e he]
      exact Bool.false_ne_true
    · exact congrArg (! ·) (hfree e he)
  rw [stats, hpart]
  exact ⟨hitems.length_eq, rfl, rfl⟩

/-- Tables that describe a row of slots in use are alike. -/
lemma Describes.alike {t' : Toc} {row : Row} (hd : t.Describes row) (hd' : t'.Describes row)
    (hu : ∀ p ∈ row, p.2.inUse = true) : Alike t t' := by
  have hfind : ∀ {t t' : Toc}, t.Describes row → t'.Describes row →
      ∀ k e, t.find? k = some e → t'.find? k = some e := by
    intro t t' hd hd' k e hk
    obtain ⟨_, h, hm, he⟩ := hd.entry hk
    have hlive : e.isFree = false := by
      rw [he]
      exact congrArg (! ·) (hu _ hm)
    exact (hd'.live_iff.mpr (hd.live_iff.mp ⟨hk, hlive⟩)).1
  have hspare : ∀ {t : Toc}, t.Describes row → ∀ o, t.spare? o = none := by
    intro t hd o
    refine Option.eq_none_iff_forall_ne_some.mpr fun e ho => ?_
    obtain ⟨h, hm, _, hidle⟩ := hd.spare ho
    cases hidle.symm.trans (hu _ hm)
  exact ⟨fun k => Option.ext fun e => ⟨hfind hd' hd k e, hfind hd hd' k e⟩,
    fun o => (hspare hd' o).trans (hspare hd o).symm⟩

end Toc

namespace Store

variable {f g : RecordFile} {xs : List (Stamp × Bytes)} {t : Toc}

/-! ## The copy put in place -/

section Shrink

variable {s s' : Store} {copied : List Entry} {r : ShrinkReport}

/-- A store whose file and table were replaced by a copy. -/
def compacted (s : Store) (g : RecordFile) (copied : List Entry) : Store :=
  { s with
    volume := ⟨{ g with sealedAt := none }, s.toc.replaceAll copied⟩
    shadow := .absent }

/-- What is reported of a copy. -/
def report (s : Store) (g : RecordFile) (copied : List Entry) : ShrinkReport where
  bytesBefore := s.file.fileLength
  bytesAfter := g.fileLength
  recordsKept := copied.length
  slotsReclaimed := s.toc.stats.free + s.toc.stats.retired

/-- **A shrink succeeds** if the store can be entered, its table is ready and the copy can be made,
and then the copy is put in place. -/
theorem shrink_eq_ok_iff (hr : s.Resting) : Store.shrink s = .ok r s' ↔
    s.admitted s.unbounded = .ok () ∧ s.waitReady = .ok () ∧
      ∃ g copied, s.makeShadow = .ok (g, copied) ∧ r = s.report g copied ∧
        s' = s.compacted g copied := by
  rw [Store.shrink, shrinkUnder, throughGate_resting hr]
  cases hadmitted : s.admitted s.unbounded with
  | error e => simp
  | ok u =>
    have hopen := gate_open_of_admitted hadmitted
    rw [get_bind, orFail_bind, show (s.inside .exclusive).waitReady = s.waitReady from rfl]
    cases hready : s.waitReady with
    | error e => simp [after]
    | ok u =>
      dsimp only
      rw [show (s.inside .exclusive).makeShadow = s.makeShadow from rfl]
      cases hmake : s.makeShadow with
      | error e =>
        refine iff_of_false (fun h => by cases h) ?_
        rintro ⟨_, _, _, _, h, _⟩
        cases h
      | ok p =>
        obtain ⟨g, copied⟩ := p
        have hleave :=
          leaveGate_inside (s := s.compacted g copied) (hr.gate_opened hopen) .exclusive
        have hrun : after (leaveGate .exclusive) (.ok (s.report g copied)
            ((s.compacted g copied).inside .exclusive)) = .ok (s.report g copied)
              (s.compacted g copied) := congrArg (EStateM.Result.ok _) hleave
        constructor
        · intro h
          cases hrun.symm.trans h
          exact ⟨rfl, rfl, g, copied, rfl, rfl, rfl⟩
        · rintro ⟨_, _, g', copied', hsame, rfl, rfl⟩
          cases hsame
          exact hrun

/-- **A shadow is made** exactly if no directory is in its way and all live records can be
copied. -/
lemma makeShadow_eq_ok_iff : s.makeShadow = .ok (g, copied) ↔
    s.shadow ≠ .directory ∧ copyLive s.file s.toc.activeEntries = .ok (g, copied) := by
  rw [makeShadow]
  split
  · rename_i hshadow
    simp [hshadow]
  · rename_i hshadow
    exact (and_iff_right hshadow).symm

end Shrink

/-! ## What is kept and what is gone -/

/-- **A store that was shrunk**: its records are those that the store had before, and there is
nothing else in its file. -/
structure Compacted (s : Store) (r : ShrinkReport) (s' : Store) (xs : List (Stamp × Bytes)) :
    Prop where
  /-- The keys, versions and payloads of the live entities, in the order of the file. -/
  before : Reads s.file s.toc.activeEntries xs
  after : Reads s'.file s'.toc.activeEntries xs
  keys : s.keys = .ok (xs.map (·.1.key)) ∧ s'.keys = .ok (xs.map (·.1.key))
  versions : s'.toc.activeEntries.map (·.version) = xs.map (·.1.version)
  live : s'.stats.slots.live = xs.length
  free : s'.stats.slots.free = 0
  retired : s'.stats.slots.retired = 0
  /-- The slots lie back to back, and each is as long as its record. -/
  slots : Row.Fills s'.file.content 0 (laidRow xs) s'.stats.dataEnd
  entries : s'.toc.activeEntries = (laidRow xs).map fun p => .ofHeader p.1 p.2
  capacities : (laidRow xs).map (·.2.capacity.toNat) = xs.map (·.2.length)
  /-- The slots take what their headers and payloads take. -/
  dataEnd : s'.stats.dataEnd = extent xs
  fileLength : s'.stats.fileLength = s'.stats.dataEnd
  recordsKept : r.recordsKept = xs.length
  slotsReclaimed : r.slotsReclaimed = s.stats.slots.free + s.stats.slots.retired
  bytes : r.bytesBefore = s.stats.fileLength ∧ r.bytesAfter = s'.stats.fileLength
  /-- A scan of the file comes to the same table. -/
  rebuilt : ∃ summary v, Volume.rebuild s'.stats.dataEnd ⟨s'.file, .unfinished⟩ = .ok summary v ∧
    summary.torn = false ∧ v.file = s'.file ∧ Toc.Alike s'.toc v.toc
  /-- Another shrink leaves the file as it is. -/
  again : ∃ r' s'', Store.shrink s' = .ok r' s'' ∧ s''.file = s'.file

/-- The slots of a copy have no slack. -/
lemma capacities_laidRow (hshort : ∀ x ∈ xs, x.2.length < lengthLimit) :
    (laidRow xs).map (·.2.capacity.toNat) = xs.map (·.2.length) := by
  rw [map_laidRow (·.capacity.toNat)]
  exact List.map_congr_left fun x hx => Header.toNat_ofNat_of_lt (hshort x hx)

/-- No slot of a copy is free. -/
lemma mem_laidRow_inUse {p : Nat × Header} (h : p ∈ laidRow xs) : p.2.inUse = true := by
  obtain ⟨x, _, hp⟩ := mem_laidRow h
  rw [hp]
  rfl

lemma OwnKeys.laidRow_unreserved (hx : OwnKeys xs) :
    ∀ p ∈ RecordFile.laidRow xs, p.2.key.isReserved = false := by
  intro p hp
  obtain ⟨x, hm, hp⟩ := mem_laidRow hp
  rw [hp]
  exact hx.unreserved x hm

/-- **The table of a copy** describes its slots. -/
lemma OwnKeys.describes (hx : OwnKeys xs) (hf : g.Tiled (RecordFile.laidRow xs)) (t : Toc) :
    (t.replaceAll ((laid 0 xs).map entryOf)).Describes (RecordFile.laidRow xs) :=
  map_entryOf xs ▸ .replaceAll t hf.fills.single hx.laidRow hx.laidRow_unreserved

/-- **A scan of the records** comes to the table of the copy. -/
lemma OwnKeys.alike_scanned (hx : OwnKeys xs) (hf : g.Tiled (RecordFile.laidRow xs)) (t : Toc) :
    Toc.Alike (t.replaceAll ((laid 0 xs).map entryOf))
      (Volume.scannedToc (RecordFile.laidRow xs)) := by
  -- No key has two slots, so each is the newest of its key.
  have hnewest : Row.Newest (RecordFile.laidRow xs) := fun o h hm _ =>
    ⟨hx.laidRow_unreserved _ hm, fun o' h' hm' hkey hne => by
      have hfind := Keyed.find?_of_mem hx.laidRow hm'
      rw [hkey, Keyed.find?_of_mem hx.laidRow hm] at hfind
      exact absurd (Prod.mk.inj (Option.some.inj hfind)).1.symm hne⟩
  have hscan := Toc.Describes.empty.mergeAll hf.fills.distinct hnewest
  exact (hx.describes hf t).alike (hscan.congr ⟨fun _ => rfl, fun _ => rfl⟩ fun _ => Iff.rfl)
    fun p hp => mem_laidRow_inUse hp

/-- The table of a copy has the copied entries, in their order, and no other slots. -/
lemma OwnKeys.toc_copied (hx : OwnKeys xs) (hf : g.Tiled (RecordFile.laidRow xs)) (t : Toc) :
    (t.replaceAll ((laid 0 xs).map entryOf)).activeEntries = (laid 0 xs).map entryOf ∧
      (t.replaceAll ((laid 0 xs).map entryOf)).stats.live = xs.length ∧
      (t.replaceAll ((laid 0 xs).map entryOf)).stats.free = 0 ∧
      (t.replaceAll ((laid 0 xs).map entryOf)).stats.retired = 0 := by
  have hlive : ∀ e ∈ (laid 0 xs).map entryOf, e.isFree = false ∧ e.key.isReserved = false := by
    intro e he
    obtain ⟨q, hq, rfl⟩ := List.mem_map.mp he
    exact ⟨rfl, hx.unreserved q.2 (map_laid 0 xs ▸ List.mem_map.mpr ⟨q, hq, rfl⟩)⟩
  have hdistinct : ((laid 0 xs).map entryOf).Pairwise fun a b => a.key ≠ b.key := by
    rw [map_entryOf]
    exact List.pairwise_map.mpr hx.laidRow
  have hsorted : ((laid 0 xs).map entryOf).Pairwise fun a b => a.offset < b.offset := by
    rw [map_entryOf]
    refine List.pairwise_map.mpr (hf.fills.pairwise.imp fun {p q} hpq => ?_)
    exact Nat.lt_of_lt_of_le (Nat.lt_add_of_pos_right p.2.slotSize_pos) hpq
  have hlength : ((laid 0 xs).map entryOf).length = xs.length := by
    rw [List.length_map, ← List.length_map (·.2), map_laid]
  obtain ⟨hcount, hfree, hretired⟩ := t.stats_replaceAll hdistinct fun e he => (hlive e he).1
  exact ⟨Toc.activeEntries_replaceAll hdistinct hlive hsorted, hcount.trans hlength, hfree,
    hretired⟩

/-- The keys of a store are those of its live records. -/
lemma Reads.keys_eq {s : Store} (h : Reads s.file s.toc.activeEntries xs)
    (hready : s.waitReady = .ok ()) : s.keys = .ok (xs.map (·.1.key)) := by
  rw [Store.keys, hready, h.keys]
  rfl

/-- **A shrink that succeeds** keeps the records and nothing else, whatever the file held. -/
theorem compacted_of_shrink {s s' : Store} {r : ShrinkReport} (hr : s.Resting)
    (h : Store.shrink s = .ok r s') : ∃ xs, s.Compacted r s' xs := by
  obtain ⟨hadmitted, hready, g, copied, hmake, rfl, rfl⟩ := (shrink_eq_ok_iff hr).mp h
  obtain ⟨_, hcopy⟩ := makeShadow_eq_ok_iff.mp hmake
  obtain ⟨xs, hreads, hfile, rfl⟩ := copyLive_eq_ok_iff.mp hcopy
  have hp := packed_ofRecords hfile
  have hx := hreads.ownKeys
  obtain ⟨hactive, hlive, hfree, hretired⟩ := hx.toc_copied hp.tiled s.toc
  have hsame : { g with sealedAt := none } = g := by rw [← hp.unsealed]
  have hafter : Reads { g with sealedAt := none }
      (s.toc.replaceAll ((laid 0 xs).map entryOf)).activeEntries xs := by
    rw [hsame, hactive]
    exact reads_laid hp
  refine ⟨xs, {
    before := hreads
    after := hafter
    keys := ⟨hreads.keys_eq hready, Reads.keys_eq (s := s.compacted g _) hafter hready⟩
    versions := ?_
    live := hlive
    free := hfree
    retired := hretired
    slots := hp.tiled.fills
    entries := hactive.trans (map_entryOf xs)
    capacities := capacities_laidRow hp.short
    dataEnd := hp.cursor
    fileLength := hp.size
    recordsKept := ?_
    slotsReclaimed := rfl
    bytes := ⟨rfl, rfl⟩
    rebuilt := ?_
    again := ?_ }⟩
  · show (s.toc.replaceAll ((laid 0 xs).map entryOf)).activeEntries.map (·.version) = _
    rw [hactive, map_entryOf, List.map_map]
    exact map_laidRow (·.version) xs
  · show ((laid 0 xs).map entryOf).length = _
    rw [List.length_map, ← List.length_map (·.2), map_laid]
  · refine ⟨.ofRow (laidRow xs) g.cursor false, ⟨g, Volume.scannedToc (laidRow xs)⟩, ?_, rfl,
      hsame.symm, hx.alike_scanned hp.tiled s.toc⟩
    show Volume.rebuild g.cursor ⟨{ g with sealedAt := none }, .unfinished⟩ = _
    rw [hsame]
    exact Volume.rebuild_of_tiled hp.tiled
  · -- The records that are copied again are the same, so their file is the same one.
    have hcopy' := copyLive_eq_ok_iff.mpr ⟨xs, hafter, hfile, rfl⟩
    have hmake' : (s.compacted g ((laid 0 xs).map entryOf)).makeShadow = _ :=
      makeShadow_eq_ok_iff.mpr ⟨fun h => (by cases h), hcopy'⟩
    have hagain := (shrink_eq_ok_iff (s := s.compacted g _) ⟨hr.gate, hr.locks⟩).mpr
      ⟨hadmitted, hready, _, _, hmake', rfl, rfl⟩
    exact ⟨_, _, hagain, rfl⟩

end Store

end SlotStore
