import Mathlib.Tactic.Common
import SlotStore.Proofs.Volume.Rebuild

/-!
# Damaged tails

The table in a sealed tail only saves a scan.  Where the tail is damaged the file is scanned, the
tail with it: the slot of the table is one that nobody owns, and is retired, and the footer is too
short for a slot and is cut off.  All else is what the table said.

* `RecordFile.TailDamaged` : other bytes in place of the table, or of the mark of the footer;
* `RecordFile.TailDamaged.bare` : no table is presented then;
* `Toc.Describes.live_of_dead`, `Toc.Describes.reusable_of_dead`, `Toc.Describes.bytes_of_dead` :
  what a slot of nobody is to a table;
* `Volume.describes_dead` : the scan of a row with such a slot behind it;
* `Volume.FellBack`, `Volume.Sound.fallBack` : what the scan comes to.
-/

namespace SlotStore

/-! ## Damage -/

namespace RecordFile

/-- **The sealed tail of a file was damaged** in one of its two parts. -/
inductive TailDamaged (f : RecordFile) (start : Nat) : Content → Prop
  /-- Other bytes, as many and with another checksum, stand in place of the table. -/
  | table {h : Header} {old bs : Bytes} (held : f.readSealed start = .ok (h, old))
      (length : bs.length = old.length) (other : checksum bs ≠ checksum old) :
      TailDamaged f start (f.content.write (start + Header.size) bs)
  /-- Other bytes stand in place of the mark of the footer. -/
  | mark {bs : Bytes} (length : bs.length = Footer.mark.length) (other : bs ≠ Footer.mark) :
      TailDamaged f start (f.content.write (f.content.size - Footer.size) bs)

end RecordFile

/-- A footer is decoded by its mark. -/
lemma Footer.decode?_eq_none {bs : Bytes} (h : bs.take mark.length ≠ mark) : decode? bs = none :=
  if_neg fun hboth => h hboth.2

/-- A sealed tail is read. -/
lemma Volume.EndsIn.readSealed {f : RecordFile} {start : Nat} {stamp : Stamp} {payload : Bytes}
    (he : EndsIn f.content start stamp payload) :
    f.readSealed start = .ok (.ofPayload stamp payload payload.length, payload) := by
  have hlength : (Header.ofPayload stamp payload payload.length).length.toNat = payload.length :=
    Header.length_ofPayload (Nat.le_refl _) he.short
  have hslot : (Header.ofPayload stamp payload payload.length).slotSize =
      Header.size + payload.length := Header.slotSize_ofPayload he.short
  have hsize := he.size
  refine (RecordFile.readBounded_eq_ok_iff (Nat.le_refl _) he.below).mpr ⟨he.headerAt, ?_, ?_, rfl⟩
  · rw [hslot]
    show _ ≤ f.content.size
    omega
  · rw [RecordFile.payloadAt, hlength, he.parts.2.1]

namespace RecordFile.TailDamaged

open Volume

variable {f : RecordFile} {c : Content} {start : Nat} {stamp : Stamp} {payload : Bytes}

/-- Where the damage is: behind the header of the table, and it makes the file no longer. -/
lemma spared (hd : f.TailDamaged start c) (he : EndsIn f.content start stamp payload) :
    c.size = f.content.size ∧ f.content.Agrees c 0 (start + Header.size) := by
  have hsize := he.size
  have hmark : Footer.mark.length ≤ Footer.size := by decide
  cases hd with
  | table held length =>
    cases held.symm.trans he.readSealed
    exact ⟨Content.size_write_of_le _ (by omega),
      (f.content.agrees_write_of_disjoint (Or.inl (Nat.le_refl _))).symm⟩
  | mark length =>
    exact ⟨Content.size_write_of_le _ (by omega),
      (f.content.agrees_write_of_disjoint (Or.inl (by omega))).symm⟩

/-- **A damaged tail presents no table.** -/
theorem bare (hd : f.TailDamaged start c) (he : EndsIn f.content start stamp payload) :
    Bare c := by
  obtain ⟨hcsize, hspared⟩ := hd.spared he
  have hsize := he.size
  have hbelow := he.below
  intro start' s hp
  have hfooter := hp.footer
  rw [hcsize] at hfooter
  cases hd with
  | @table h old bs held length other =>
    cases held.symm.trans he.readSealed
    -- The footer still points at the header, and the header tells the checksum.
    have hspan : positionLimit ≤ Bytes.span 8 := by decide
    have hkept : Content.Agrees (f.content.write (start + Header.size) bs) f.content
        (f.content.size - Footer.size) (f.content.size - Footer.size + Footer.size) :=
      f.content.agrees_write_of_disjoint (Or.inr (by omega))
    have hpos : f.content.size - Footer.size = start + (Header.size + payload.length) := by omega
    rw [Content.slice_congr hkept, hpos, he.parts.2.2,
      Footer.decode?_encode (show start < _ by omega)] at hfooter
    cases hfooter
    obtain ⟨h, hh, _, _, _, hsum, _⟩ := hp.slot
    obtain rfl := hh.unique (he.headerAt.congr (hspared.mono (Nat.zero_le _) (Nat.le_refl _)))
    rw [Header.length_ofPayload (Nat.le_refl _) he.short, ← length,
      Content.slice_write_self] at hsum
    exact other hsum
  | @mark bs length other =>
    have hslice := Content.slice_add (f.content.write (f.content.size - Footer.size) bs)
      (f.content.size - Footer.size) bs.length (Footer.size - bs.length)
    rw [Content.slice_write_self, Nat.add_sub_cancel' (by rw [length]; decide)] at hslice
    rw [Footer.decode?_eq_none] at hfooter
    · cases hfooter
    · rw [hslice, List.take_left' length]
      exact other

end RecordFile.TailDamaged

/-! ## A slot of nobody -/

namespace Toc.Describes

variable {t w : Toc} {row : Row} {o : Nat} {h : Header}

/-- A tombstone behind the slots is no live entry. -/
lemma live_of_dead (ht : t.Describes row) (hw : w.Describes (Row.put o h.tombstone row))
    (hno : ∀ p ∈ row, p.1 ≠ o) (k : Key) (e : Entry) :
    w.find? k = some e ∧ e.isFree = false ↔ t.find? k = some e ∧ e.isFree = false := by
  refine (hw.live_iff.trans (exists_congr fun h' => ⟨?_, ?_⟩)).trans ht.live_iff.symm
  · rintro ⟨hm, hu, hrest⟩
    rcases Row.mem_put.mp hm with heq | ⟨hm, _⟩
    · obtain ⟨_, rfl⟩ := Prod.mk.inj heq
      cases hu
    · exact ⟨hm, hu, hrest⟩
  · rintro ⟨hm, hrest⟩
    exact ⟨Row.mem_put.mpr (Or.inr ⟨hm, hno _ hm⟩), hrest⟩

/-- A tombstone behind the slots is one more slot to reuse. -/
lemma reusable_of_dead (ht : t.Describes row) (hw : w.Describes (Row.put o h.tombstone row))
    (hno : ∀ p ∈ row, p.1 ≠ o) (o' size : Nat) :
    w.Reusable o' size ↔ t.Reusable o' size ∨ o' = o ∧ size = h.slotSize := by
  rw [hw.reusable_iff, ht.reusable_iff]
  constructor
  · rintro ⟨h', hm, hu, hsize⟩
    rcases Row.mem_put.mp hm with heq | ⟨hm, _⟩
    · obtain ⟨rfl, rfl⟩ := Prod.mk.inj heq
      exact Or.inr ⟨rfl, hsize.symm⟩
    · exact Or.inl ⟨h', hm, hu, hsize⟩
  · rintro (⟨h', hm, hrest⟩ | ⟨rfl, rfl⟩)
    · exact ⟨h', Row.mem_put.mpr (Or.inr ⟨hm, hno _ hm⟩), hrest⟩
    · exact ⟨h.tombstone, Row.mem_put.mpr (Or.inl rfl), rfl, rfl⟩

/-- A tombstone behind the slots counts with its bytes. -/
lemma bytes_of_dead {c : Content} (hf : Row.Fills c 0 row o)
    (hw : w.Describes (Row.put o h.tombstone row)) :
    w.stats.liveBytes + w.stats.reclaimableBytes = o + h.slotSize := by
  have hdistinct : (Row.put o h.tombstone row).Pairwise fun p q => p.1 ≠ q.1 := by
    rw [Row.put_eq_append hf.offset_ne_stop]
    refine List.pairwise_append.mpr ⟨hf.distinct, List.pairwise_singleton _ _, ?_⟩
    intro p hp q hq
    obtain rfl := List.mem_singleton.mp hq
    exact hf.offset_ne_stop p hp
  have hbytes : 0 + Row.bytes row.extents = o := hf.bytes_extents
  rw [hw.stats_bytes_row hdistinct, hf.extents_put_stop, Row.bytes_append]
  show Row.bytes row.extents + (h.slotSize + 0) = o + h.slotSize
  omega

end Toc.Describes

namespace Volume

variable {c : Content} {v : Volume} {row : Row} {used : List Key} {start stop drawn : Nat}
  {h : Header}

/-- **A slot with the reserved key behind a row** is retired by a scan, whether it is in use or
not. -/
lemma describes_dead (hf : Row.Fills c 0 row stop) (hn : row.Newest)
    (hr : h.key.isReserved = true) {t : Toc}
    (ht : t = (scannedToc (row ++ [(stop, h)])).finish (.ok ())) :
    t.Describes (Row.put stop h.tombstone row) ∧
      t.spare? stop = some { Entry.ofHeader stop h with isFree := true } := by
  have hmerged : merged (row ++ [(stop, h)]) .unfinished =
      (merged row .unfinished).retire (.ofHeader stop h) := by
    rw [merged, List.foldl_append]
    exact if_pos hr
  have hviews : Toc.Alike ((merged row .unfinished).retire (.ofHeader stop h)) t := by
    rw [ht, ← hmerged]
    exact ⟨fun _ => rfl, fun _ => rfl⟩
  have hdead := (describes_merged hf hn).retire (e := .ofHeader stop h) (h := h.tombstone)
    hf.offset_ne_stop rfl rfl
  refine ⟨hdead.congr hviews fun _ => Iff.rfl, ?_⟩
  rw [hviews.spare?, Toc.spare?_retire]
  exact if_pos rfl

/-! ## Falling back -/

/-- **What comes of a damaged tail** that begins at a position, where the table in the tail was
`t`. -/
structure FellBack (c : Content) (start : Nat) (t : Toc) (w : Volume) : Prop where
  /-- No table is loaded, and all of the file is to be scanned. -/
  mounted : mount (.ofContent c) = (⟨.ofContent c, .unfinished⟩, some c.size)
  scanned : runRebuild c.size ⟨.ofContent c, .unfinished⟩ = .ok () w
  ready : w.toc.ready = true
  signal : w.toc.signal = .succeeded
  live : ∀ k e, w.toc.find? k = some e ∧ e.isFree = false ↔ t.find? k = some e ∧ e.isFree = false
  /-- The footer is cut off, and all that stood before it stays. -/
  size : w.file.content.size + Footer.size = c.size
  bytes : c.Agrees w.file.content 0 w.file.content.size
  cursor : w.file.cursor = w.file.content.size
  /-- The slot of the table is retired. -/
  dead : ∃ e, w.toc.spare? start = some e ∧ e.key.isReserved = true ∧ e.stop = w.file.cursor
  /-- Otherwise the same slots can be reused as before. -/
  reusable : ∀ o size, w.toc.Reusable o size ↔
    t.Reusable o size ∨ o = start ∧ start + size = w.file.cursor
  counted : w.toc.stats.liveBytes + w.toc.stats.reclaimableBytes = w.file.cursor

/-- The tail of a sealed file begins at the cursor. -/
lemma Sound.tailed (hs : Sound v row used drawn) (hsealed : v.file.sealedAt = some start) :
    start = v.file.cursor ∧
      ∃ version payload, EndsIn v.file.content start ⟨Key.reserved, version⟩ payload := by
  obtain ⟨_, _, _, htail⟩ := hs.resumes (congrArg Option.isSome hsealed)
  obtain rfl := hs.tiled.rest.eq_cursor hsealed
  exact ⟨rfl, htail⟩

/-- **A file with a damaged tail is scanned**, and only the scan is lost. -/
theorem Sound.fallBack (hs : Sound v row used drawn) (hn : drawn + 1 < versionLimit)
    (hsealed : v.file.sealedAt = some start) (hd : v.file.TailDamaged start c) :
    ∃ t w, load (.ofContent v.file.content) = .ok (some ⟨v.file, t⟩) ∧ Toc.Alike v.toc t ∧
      FellBack c start t w := by
  obtain ⟨rfl, version, payload, he⟩ := hs.tailed hsealed
  obtain ⟨t, hr, hload, _⟩ := hs.resumes (congrArg Option.isSome hsealed)
  obtain ⟨hcsize, hspared⟩ := hd.spared he
  have hbare := hd.bare he
  have hsize := he.size
  have hbelow := he.below
  have hslot : (Header.ofPayload ⟨Key.reserved, version⟩ payload payload.length).slotSize =
      Header.size + payload.length := Header.slotSize_ofPayload he.short
  generalize hh : Header.ofPayload ⟨Key.reserved, version⟩ payload payload.length = h at hslot
  have hreserved : h.key.isReserved = true := hh ▸ decide_eq_true rfl
  have hhead : v.file.content.HeaderAt v.file.cursor h := hh ▸ he.headerAt
  -- The slots of the file go on with that of the table, and end where the footer begins.
  have hrow : Row.Fills c 0 row v.file.cursor :=
    hs.tiled.fills.congr (hspared.mono (Nat.le_refl _) (Nat.le_add_right _ _))
  have hfills : Row.Fills c 0 (row ++ [(v.file.cursor, h)]) (v.file.cursor + h.slotSize) :=
    hrow.append (.cons (hhead.congr (hspared.mono (Nat.zero_le _) (Nat.le_refl _))) (.nil _))
  have hragged : c.Ragged (v.file.cursor + h.slotSize) := by
    have hfooter : Footer.size < Header.size := by decide
    have hpos : 0 < Footer.size := by decide
    exact .short (by omega) (by omega)
  obtain ⟨hready, hsignal⟩ := scannedToc_finished (row ++ [(v.file.cursor, h)])
  have hrun := runRebuild_fills hfills hragged (by omega)
  generalize hw : (scannedToc (row ++ [(v.file.cursor, h)])).finish (.ok ()) = w
    at hrun hready hsignal
  obtain ⟨hdescribed, hspare⟩ := describes_dead hrow (hs.aged hn).newest hreserved hw.symm
  have hkept : t.Describes row := hs.described.congr hr.alike fun _ => Iff.rfl
  refine ⟨t, _, hload, hr.alike, {
    mounted := (mount_eq_scan_iff (by omega)).mpr hbare
    scanned := hrun
    ready := hready
    signal := hsignal
    live := hkept.live_of_dead hdescribed hrow.offset_ne_stop
    size := by
      rw [Content.size_resize]
      omega
    bytes := by
      rw [Content.size_resize]
      exact (c.agrees_resize 0 (Nat.le_refl _)).symm
    cursor := (Content.size_resize _ _).symm
    dead := ⟨_, hspare, hreserved, rfl⟩
    reusable := fun o size => ?_
    counted := Toc.Describes.bytes_of_dead hrow hdescribed }⟩
  refine (hkept.reusable_of_dead hdescribed hrow.offset_ne_stop o size).trans (or_congr_right ?_)
  show _ ↔ o = v.file.cursor ∧ v.file.cursor + size = v.file.cursor + h.slotSize
  exact and_congr_right fun _ => Nat.add_left_cancel_iff.symm

end Volume

end SlotStore
