import Mathlib.Tactic.Common
import SlotStore.Proofs.Record.Tiled
import SlotStore.Proofs.Toc.Regions
import SlotStore.Proofs.Toc.Snapshot
import SlotStore.Volume

/-!
# A sealed file gives its table back

A file that was sealed with its table of contents ends in a footer, the footer points at a slot with
the reserved key, and the payload of that slot is the snapshot of the table.  Opening a file looks
at nothing else, so any file that ends in such bytes gives a table, whoever wrote them.

* `Volume.Presents`, `Volume.Bare` : the bytes at the end of a file are a table of contents, or not;
* `Volume.restored` : the table that a snapshot gives;
* `Volume.load_eq_some_iff`, `Volume.mount_eq_scan_iff` : a table is loaded exactly if the file
  presents one, and else the file is scanned;
* `Volume.EndsIn`, `Volume.load_of_endsIn` : the table of a sealed file is loaded;
* `Volume.Tailed` : a file that ends with its data region and a sealed tail.
-/

namespace SlotStore

namespace Volume

variable {c : Content} {f : RecordFile} {start : Nat} {s : Snapshot}

/-! ## Files that present a table -/

/-- **The bytes at the end of a file are a table of contents**: the last sixteen are a footer, and a
slot in use with the reserved key stands where the footer points, with an intact snapshot for a data
region that ends there. -/
structure Presents (c : Content) (start : Nat) (s : Snapshot) : Prop where
  room : Footer.size ≤ c.size
  footer : Footer.decode? (c.slice (c.size - Footer.size) Footer.size) = some ⟨start⟩
  slot : ∃ h, c.HeaderAt start h ∧ start + h.slotSize ≤ c.size ∧ h.key.isReserved = true ∧
    h.inUse = true ∧ checksum (c.slice (start + Header.size) h.length.toNat) = h.checksum ∧
    Snapshot.read? (c.slice (start + Header.size) h.length.toNat) = some s
  format : s.format = Snapshot.currentFormat
  dataEnd : s.dataEnd = start

/-- **A file presents no table.** -/
def Bare (c : Content) : Prop := ∀ start s, ¬ Presents c start s

/-- The table that a snapshot gives an opened file. -/
def restored (s : Snapshot) : Toc := (s.restore .unfinished).finish (.ok ())

/-- **A file has a footer** if its last bytes are one that points into the file. -/
lemma footer?_eq_some_iff : f.footer? = some start ↔ Footer.size ≤ f.content.size ∧
    Footer.decode? (f.content.slice (f.content.size - Footer.size) Footer.size) = some ⟨start⟩ ∧
    start < f.content.size := by
  unfold RecordFile.footer?
  constructor
  · intro h
    split at h
    · cases h
    · rename_i hroom
      split at h
      · rename_i footer hfooter
        split at h
        · rename_i hinside
          cases h
          exact ⟨Nat.not_lt.mp hroom, hfooter, hinside⟩
        · cases h
      · cases h
  · rintro ⟨hroom, hfooter, hinside⟩
    rw [if_neg (Nat.not_lt.mpr hroom), hfooter]
    exact if_pos hinside

/-- **A position holds a table** if its slot is intact, reserved and in use, and its table is for
that position. -/
lemma snapshotAt_eq_ok_iff : snapshotAt f start = .ok s ↔ ∃ h payload,
    f.readSealed start = .ok (h, payload) ∧ h.key.isReserved = true ∧ h.inUse = true ∧
      Snapshot.read? payload = some s ∧ s.format = Snapshot.currentFormat ∧ s.dataEnd = start := by
  constructor
  · intro hs
    unfold snapshotAt at hs
    obtain ⟨⟨h, payload⟩, hread, hs⟩ := Steps.exists_ok_of_bind hs
    refine ⟨h, payload, hread, ?_⟩
    dsimp only at hs
    by_cases hslot : ¬ h.key.isReserved = true ∨ ¬ h.inUse = true
    · rw [if_pos hslot] at hs
      cases hs
    · rw [if_neg hslot] at hs
      obtain ⟨hkey, huse⟩ := not_or.mp hslot
      refine ⟨not_not.mp hkey, not_not.mp huse, ?_⟩
      cases hsnap : Snapshot.read? payload with
      | none =>
        rw [hsnap] at hs
        cases hs
      | some found =>
        simp only [hsnap] at hs
        split at hs
        · cases hs
        · rename_i hformat
          split at hs
          · cases hs
          · rename_i hend
            cases hs
            exact ⟨rfl, not_not.mp hformat, not_not.mp hend⟩
  · rintro ⟨h, payload, hread, hkey, huse, hsnap, hformat, hend⟩
    simp only [snapshotAt, bind, Except.bind, hread, hsnap]
    rw [if_neg (not_or.mpr ⟨not_not.mpr hkey, not_not.mpr huse⟩), if_neg (not_not.mpr hformat),
      if_neg (not_not.mpr hend)]
    rfl

/-- **A table is loaded exactly if the file presents one**, and the cursor then stands where it
begins. -/
theorem load_eq_some_iff (hbelow : c.size < positionLimit) {v : Volume} :
    load (.ofContent c) = .ok (some v) ↔
      ∃ start s, Presents c start s ∧ v = ⟨⟨c, start, some start⟩, restored s⟩ := by
  have hread : ∀ {start h payload}, (RecordFile.ofContent c).readSealed start = .ok (h, payload) ↔
      _ := RecordFile.readBounded_eq_ok_iff (f := .ofContent c) (Nat.le_refl c.size) hbelow
  constructor
  · intro hload
    rw [load] at hload
    split at hload
    · cases hload
    · rename_i start hfooter
      obtain ⟨hroom, hfooter, _⟩ := footer?_eq_some_iff.mp hfooter
      cases hsnap : snapshotAt (.ofContent c) start with
      | error e =>
        rw [hsnap] at hload
        cases hload
      | ok s =>
        rw [hsnap] at hload
        cases hload
        obtain ⟨h, payload, hslot, hkey, huse, hsnap, hformat, hend⟩ :=
          snapshotAt_eq_ok_iff.mp hsnap
        obtain ⟨hh, hstop, rfl, hsum⟩ := hread.mp hslot
        exact ⟨start, s,
          ⟨hroom, hfooter, ⟨h, hh, hstop, hkey, huse, hsum, hsnap⟩, hformat, hend⟩, rfl⟩
  · rintro ⟨start, s, hp, rfl⟩
    obtain ⟨h, hh, hstop, hkey, huse, hsum, hsnap⟩ := hp.slot
    have hslot := hread.mpr ⟨hh, hstop, rfl, hsum⟩
    have hinside : start < c.size := by
      have := h.slotSize_pos
      omega
    have hfound : (RecordFile.ofContent c).footer? = some start :=
      footer?_eq_some_iff.mpr ⟨hp.room, hp.footer, hinside⟩
    have hsnapshot : snapshotAt (.ofContent c) start = .ok s :=
      snapshotAt_eq_ok_iff.mpr ⟨h, _, hslot, hkey, huse, hsnap, hp.format, hp.dataEnd⟩
    rw [load, hfound]
    simp only [hsnapshot]
    rfl

/-- A file that presents a table needs no scan. -/
lemma mount_of_load {v : Volume} (h : load f = .ok (some v)) : mount f = (v, none) := by
  rw [mount, h]

/-- **A file is scanned when it is opened exactly if it presents no table.** -/
theorem mount_eq_scan_iff (hbelow : c.size < positionLimit) :
    mount (.ofContent c) = (⟨.ofContent c, .unfinished⟩, some c.size) ↔ Bare c := by
  constructor
  · intro hmount start s hp
    cases hmount.symm.trans (mount_of_load ((load_eq_some_iff hbelow).mpr ⟨start, s, hp, rfl⟩))
  · intro hnone
    rw [mount]
    split
    · rename_i v hload
      obtain ⟨start, s, hp, _⟩ := (load_eq_some_iff hbelow).mp hload
      exact absurd hp (hnone start s)
    · rfl

/-! ## Sealed files -/

variable {stamp : Stamp} {payload : Bytes}

/-- The bytes from a position to the end of a file are a sealed tail. -/
structure EndsIn (c : Content) (start : Nat) (stamp : Stamp) (payload : Bytes) : Prop where
  size : c.size = start + (Header.size + payload.length + Footer.size)
  slice : c.slice start (Header.size + payload.length + Footer.size) =
    RecordFile.tail start stamp payload
  below : c.size < positionLimit
  short : payload.length < lengthLimit

namespace EndsIn

lemma congr {c' : Content} (he : EndsIn c start stamp payload) (hsize : c'.size = c.size)
    (ha : c.Agrees c' start c.size) : EndsIn c' start stamp payload where
  size := hsize.trans he.size
  slice := (Content.slice_congr (he.size ▸ ha)).symm.trans he.slice
  below := hsize ▸ he.below
  short := he.short

lemma parts (he : EndsIn c start stamp payload) :
    c.slice start Header.size = (Header.ofPayload stamp payload payload.length).encode ∧
      c.slice (start + Header.size) payload.length = payload ∧
      c.slice (start + (Header.size + payload.length)) Footer.size = (Footer.mk start).encode := by
  have hslice := he.slice
  rw [Content.slice_add, Content.slice_add] at hslice
  have htail : RecordFile.tail start stamp payload =
      (Header.ofPayload stamp payload payload.length).encode ++ payload ++
        (Footer.mk start).encode := rfl
  obtain ⟨hfront, hfooter⟩ := List.append_inj (hslice.trans htail) (by simp)
  obtain ⟨hhead, hbody⟩ := List.append_inj hfront (by simp)
  exact ⟨hhead, hbody, hfooter⟩

lemma headerAt (he : EndsIn c start stamp payload) :
    c.HeaderAt start (.ofPayload stamp payload payload.length) := by
  rw [Content.HeaderAt, he.parts.1]
  exact Header.spells_encode (Header.ofPayload_fits (Nat.le_refl _) he.short)

/-- **A tail with a snapshot presents it** if the snapshot says where the tail begins. -/
lemma presents (he : EndsIn c start stamp s.write) (hkey : stamp.key = Key.reserved) (hs : s.Fits)
    (hformat : s.format = Snapshot.currentFormat) (hend : s.dataEnd = start) :
    Presents c start s := by
  obtain ⟨_, hbody, hfooter⟩ := he.parts
  obtain ⟨hentries, hretired⟩ := s.length_le_write
  have hsize := he.size
  have hbelow := he.below
  have hshort := he.short
  have hspan : lengthLimit ≤ Bytes.span 4 := by decide
  have hspan' : positionLimit ≤ Bytes.span 8 := by decide
  have hpos : c.size - Footer.size = start + (Header.size + s.write.length) := by omega
  have hslot : (Header.ofPayload stamp s.write s.write.length).slotSize =
      Header.size + s.write.length := Header.slotSize_ofPayload hshort
  have hlength : (Header.ofPayload stamp s.write s.write.length).length.toNat = s.write.length :=
    Header.length_ofPayload (Nat.le_refl _) hshort
  refine ⟨by omega, ?_, ⟨_, he.headerAt, by omega, decide_eq_true hkey, rfl, ?_, ?_⟩, hformat, hend⟩
  · rw [hpos, hfooter]
    exact Footer.decode?_encode (show start < _ by omega)
  · rw [hlength, hbody]
    rfl
  · rw [hlength, hbody]
    exact Snapshot.read?_write hs (by omega) (by omega)

end EndsIn

/-- **A file is its data region and a sealed tail**, and nothing else. -/
def Tailed (f : RecordFile) : Prop :=
  ∃ version payload, EndsIn f.content f.cursor ⟨Key.reserved, version⟩ payload

/-- **The snapshot in a tail is found** if it says where the tail begins. -/
theorem load_of_endsIn (he : EndsIn c start stamp s.write) (hkey : stamp.key = Key.reserved)
    (hs : s.Fits) (hformat : s.format = Snapshot.currentFormat) (hend : s.dataEnd = start) :
    load (.ofContent c) = .ok (some ⟨⟨c, start, some start⟩, restored s⟩) :=
  (load_eq_some_iff he.below).mpr ⟨start, s, he.presents hkey hs hformat hend, rfl⟩

/-- **The snapshot of a table restores its views.** -/
theorem alike_restored (dataEnd : Nat) (t : Toc) :
    Toc.Alike t (restored (.ofToc dataEnd t)) :=
  ⟨fun k => Keyed.get?_ofList_perm (Toc.perm_byOffset t.entries.items) k,
    fun o => Keyed.get?_ofList_perm (Toc.perm_byOffset t.retired.items) o⟩

/-- The table of a tiled file can be written. -/
lemma fits_ofToc {t : Toc} {row : Row} (hd : t.Describes row) (ht : f.Tiled row) :
    (Snapshot.ofToc f.cursor t).Fits := by
  have hlt := ht.cursor_lt
  have hspan : positionLimit ≤ Bytes.span 8 := by decide
  have hregion : ∀ e ∈ t.regions, e.Fits := by
    intro e he
    have hx : (e.offset, e.size) ∈ row.extents :=
      (hd.mem_extents _).mp (List.mem_map.mpr ⟨e, he, rfl⟩)
    obtain ⟨⟨o, h⟩, hm, heq⟩ := List.mem_map.mp hx
    obtain ⟨ho, hs⟩ := Prod.mk.inj heq
    have hb := ht.bounds hm
    have ho : o = e.offset := ho
    have hs : h.slotSize = e.size := hs
    exact ⟨by omega, by omega⟩
  refine ⟨by show f.cursor < _; omega, fun e he => ?_, fun e he => ?_⟩
  · exact hregion e (List.mem_append_left _ ((Toc.perm_byOffset _).mem_iff.mp he))
  · exact hregion e (List.mem_append_right _ ((Toc.perm_byOffset _).mem_iff.mp he))

end Volume

end SlotStore
