import Mathlib.Tactic.Common
import SlotStore.Proofs.Steps
import SlotStore.Proofs.Record.Scan
import SlotStore.Proofs.Volume.Sound

/-!
# Tables written and rebuilt

A table survives its file being closed in two ways: it is sealed into the tail, or the file is
scanned when it is opened again.  The first gives back a table with the same views, the second one
that describes the same row, with the same live entries and the same reusable slots.

* `Volume.Sound.persist` : the file is sealed with the table, or left without tail;
* `Volume.scannedToc` : the table that a scan of a row comes to;
* `Volume.toc_rebuild` : the table that a rebuild of any file leaves;
* `Volume.rebuild_of_tiled` : the data region is scanned with a new table;
* `Volume.runRebuild_fills` : the whole file is scanned;
* `Volume.Sound.remount`, `Volume.Sound.resume` : a file is opened without a tail, or with one.
-/

namespace SlotStore

namespace Volume

open Steps

variable {v v' : Volume} {row : Row} {used : List Key} {drawn : Nat} {k : Key}

lemma toc_onFile {α : Type} (act : FileM α) (t : Toc) :
    Maintains (fun v : Volume => v.toc = t) (onFile act) := by
  intro v hv
  rw [onFile]
  split <;> exact hv

/-! ## Sealing -/

lemma toc_persist (t : Toc) : Maintains (fun v : Volume => v.toc = t) Volume.persist :=
  .get_bind fun _ => .ite (fun _ => .throw) fun _ => toc_onFile _ t

/-- The payload that a volume is sealed with. -/
def snapshot (v : Volume) : Bytes := (Snapshot.ofToc v.file.cursor v.toc).write

/-- Why a volume could not be sealed: its table fits no slot, or the file would reach past the last
position. -/
def NoSeal (v : Volume) : Prop :=
  lengthLimit ≤ v.snapshot.length ∨
    positionLimit ≤ v.file.cursor + (Header.size + v.snapshot.length + Footer.size)

/-- A ready table is sealed into the file. -/
lemma persist_eq (hready : v.toc.ready = true) :
    Volume.persist v =
      onFile (RecordFile.sealWith ⟨Key.reserved, v.toc.nextVersion⟩ v.snapshot) v := by
  rw [Volume.persist, get_bind, if_neg (not_not.mpr hready)]
  rfl

/-- **Sealing** keeps what a volume holds, and succeeds unless its table is too large. -/
theorem Sound.persist (hs : Sound v row used drawn) :
    (∃ f, Volume.persist v = .ok v.file.cursor { v with file := f } ∧ f.isSealed = true ∧
      Holds { v with file := f } v.payload? used drawn) ∨
    ∃ e f, Volume.persist v = .error e { v with file := f } ∧ NoSeal v ∧
      Holds { v with file := f } v.payload? used drawn := by
  rw [persist_eq hs.ready]
  rcases hs.tiled.sealWith ⟨Key.reserved, v.toc.nextVersion⟩ v.snapshot with
    ⟨f, hok, hkeeps, hstart, hshort, hsize, hslice⟩ | ⟨hroom, e, f, herr, hkeeps, hu⟩
  · have hends : EndsIn f.content v.file.cursor ⟨Key.reserved, v.toc.nextVersion⟩ v.snapshot :=
      ⟨hsize, hslice, hkeeps.tiled.below, hshort⟩
    have hload := load_of_endsIn hends rfl (fits_ofToc hs.described hs.tiled) rfl rfl
    have hfile : f = ⟨f.content, v.file.cursor, some v.file.cursor⟩ := by
      rw [← hstart, ← hkeeps.cursor]
    have hsound : Sound { v with file := f } row used drawn := {
      whole := hs.whole.keep hkeeps
      described := hs.described
      ready := hs.ready
      signal := hs.signal
      aged := hs.aged
      resumes := by
        intro _
        refine ⟨_, ⟨alike_restored _ _, rfl, rfl, fun hn => ?_⟩, hload.trans (by rw [← hfile]), ?_⟩
        · exact (hs.aged hn).raise (Nat.le_add_left 1 drawn)
        · exact ⟨_, _, hkeeps.cursor.symm ▸ hends⟩ }
    refine Or.inl ⟨f, onFile_ok hok, by rw [RecordFile.isSealed, hstart]; rfl, ⟨row, hsound⟩, ?_⟩
    exact fun k => payload?_congr hs hsound fun _ => hkeeps.shows
  · exact Or.inr ⟨e, f, onFile_error herr, hroom, hs.holds_keep hkeeps hu⟩

/-! ## Scanning -/

/-- The highest version of a row, or one that is higher. -/
def highest (row : Row) (start : UInt32) : UInt32 :=
  row.foldl (fun highest p => max highest p.2.version) start

/-- The table that a scan of a row comes to. -/
def merged (row : Row) (t : Toc) : Toc := row.foldl (fun t p => t.merge (.ofHeader p.1 p.2)) t

/-- What a scan takes in of one slot. -/
def takeIn (o : Nat) (h : Header) (state : Toc × UInt32) : Toc × UInt32 :=
  (state.1.merge (.ofHeader o h), max state.2 h.version)

/-- A scan merges the slots and keeps the highest version. -/
lemma gather_takeIn (row : Row) (t : Toc) (start : UInt32) :
    Row.gather takeIn row (t, start) = (merged row t, highest row start) := by
  induction row generalizing t start with
  | nil => rfl
  | cons p rest ih => exact ih _ _

lemma toNat_highest_cons (p : Nat × Header) (rest : Row) (start : UInt32) :
    highest (p :: rest) start = highest rest (max start p.2.version) := rfl

/-- The highest version is not below any of the others. -/
lemma le_highest (row : Row) (start : UInt32) :
    start.toNat ≤ (highest row start).toNat ∧
      ∀ p ∈ row, p.2.version.toNat ≤ (highest row start).toNat := by
  induction row generalizing start with
  | nil => exact ⟨Nat.le_refl _, fun _ hp => by cases hp⟩
  | cons p rest ih =>
    obtain ⟨hstart, hrest⟩ := ih (max start p.2.version)
    rw [Row.toNat_max] at hstart
    rw [toNat_highest_cons]
    refine ⟨by omega, fun q hq => ?_⟩
    rcases List.mem_cons.mp hq with rfl | hq
    · omega
    · exact hrest q hq

lemma highest_le (row : Row) {start : UInt32} {bound : Nat} (hstart : start.toNat ≤ bound)
    (hrow : ∀ p ∈ row, p.2.version.toNat ≤ bound) : (highest row start).toNat ≤ bound := by
  induction row generalizing start with
  | nil => exact hstart
  | cons p rest ih =>
    have hp := hrow p List.mem_cons_self
    rw [toNat_highest_cons]
    refine ih ?_ fun q hq => hrow q (List.mem_cons_of_mem p hq)
    rw [Row.toNat_max]
    omega

/-- The table that a scan makes of a row. -/
def scannedToc (row : Row) : Toc := (merged row .unfinished).observeVersion (highest row 0)

lemma merged_fields (row : Row) (t : Toc) : (merged row t).nextVersion = t.nextVersion ∧
    (merged row t).ready = t.ready ∧ (merged row t).signal = t.signal := by
  induction row generalizing t with
  | nil => exact ⟨rfl, rfl, rfl⟩
  | cons p rest ih =>
    obtain ⟨hversion, hready, hsignal⟩ := ih (t.merge (.ofHeader p.1 p.2))
    obtain ⟨hversion', hready', hsignal'⟩ := t.merge_fields (.ofHeader p.1 p.2)
    exact ⟨hversion.trans hversion', hready.trans hready', hsignal.trans hsignal'⟩

/-- The table of a scan that has ended well. -/
lemma scannedToc_finished (row : Row) : ((scannedToc row).finish (.ok ())).ready = true ∧
    ((scannedToc row).finish (.ok ())).signal = .succeeded := by
  have hsignal : (scannedToc row).signal = .pending := (merged_fields row .unfinished).2.2
  refine ⟨Bool.or_true _, ?_⟩
  show (scannedToc row).signal.complete (.ok ()) = .succeeded
  rw [hsignal]
  rfl

/-- Slots of which those in use are the newest of their keys are merged to a table that describes
them. -/
lemma describes_merged {c : Content} {stop : Nat} (hf : Row.Fills c 0 row stop)
    (hn : row.Newest) : (merged row .unfinished).Describes row :=
  Toc.Describes.empty.mergeAll hf.distinct hn

/-- **A scan makes a table that describes the row** and hands out newer versions. -/
theorem scannedToc_sound {c : Content} {stop : Nat} (hf : Row.Fills c 0 row stop)
    {next : UInt32} (ha : row.Aged next drawn) (hn : drawn + 1 < versionLimit) :
    (scannedToc row).Describes row ∧ row.Aged (scannedToc row).nextVersion drawn := by
  refine ⟨(describes_merged hf ha.newest).congr ⟨fun _ => rfl, fun _ => rfl⟩ fun _ => Iff.rfl, ?_⟩
  have hbound : (highest row 0).toNat ≤ drawn := by
    have hfew := ha.few
    refine highest_le row (Nat.zero_le _) fun p hp => ?_
    have := UInt32.lt_iff_toNat_lt.mp (ha.below p hp)
    omega
  have hnext : (scannedToc row).nextVersion.toNat = max 1 ((highest row 0).toNat + 1) := by
    rw [scannedToc, Toc.observeVersion, Row.toNat_max, (merged_fields row _).1,
      Toc.toNat_bump (by omega)]
    rfl
  refine ⟨ha.newest, fun p hp => ?_, by omega⟩
  have hle := (le_highest row 0).2 p hp
  rw [UInt32.lt_iff_toNat_lt]
  omega

/-! ## Rebuilding -/

section Rebuild

variable {f : RecordFile} {limit : Nat} {summary : ScanSummary} {t u : Toc} {n : UInt32}
  {err : Error}

/-- A file that is cut short ends at its cursor. -/
lemma truncate_eq {n : Nat} (hn : n < positionLimit) :
    RecordFile.truncate n f = .ok () ⟨f.content.resize n, n, none⟩ := by
  rw [RecordFile.truncate, modify_bind, bind_of_ok (RecordFile.setLength_eq hn)]
  rfl

/-- **A whole scan** leaves the file alone. -/
lemma rebuild_of_scan (hscan : f.scan 0 limit scanned (u, 0) = (.ok summary, t, n))
    (htorn : summary.torn = false) :
    Volume.rebuild limit ⟨f, u⟩ = .ok summary ⟨f, t.observeVersion n⟩ := by
  have hpure : onFile (RecordFile.orFail (.ok summary)) ⟨f, t⟩ = .ok summary ⟨f, t⟩ := rfl
  rw [Volume.rebuild, get_bind, hscan]
  dsimp only
  rw [set_bind, bind_of_ok hpure]
  simp only [htorn]
  rfl

/-- **A torn scan** cuts the file where it is torn. -/
lemma rebuild_of_torn (hscan : f.scan 0 limit scanned (u, 0) = (.ok summary, t, n))
    (htorn : summary.torn = true) (hstop : summary.stop < positionLimit) :
    Volume.rebuild limit ⟨f, u⟩ = .ok summary
      ⟨⟨f.content.resize summary.stop, summary.stop, none⟩, t.observeVersion n⟩ := by
  have hpure : onFile (RecordFile.orFail (.ok summary)) ⟨f, t⟩ = .ok summary ⟨f, t⟩ := rfl
  rw [Volume.rebuild, get_bind, hscan]
  dsimp only
  rw [set_bind, bind_of_ok hpure]
  simp only [htorn, if_true]
  rw [onToc, modify_bind, bind_of_ok (onFile_ok (truncate_eq hstop))]
  rfl

/-- A scan that fails leaves what it has merged. -/
lemma rebuild_of_error (hscan : f.scan 0 limit scanned (u, 0) = (.error err, t, n)) :
    Volume.rebuild limit ⟨f, u⟩ = .error err ⟨f, t⟩ := by
  have hfail : onFile (RecordFile.orFail (.error err : Except Error ScanSummary)) ⟨f, t⟩ =
      .error err ⟨f, t⟩ := rfl
  rw [Volume.rebuild, get_bind, hscan]
  dsimp only
  rw [set_bind, bind_of_error hfail]

/-- **The table that a rebuild leaves**, whatever the file is.  The slots of the range are merged;
their versions are observed if the whole range could be scanned. -/
theorem toc_rebuild (f : RecordFile) (limit : Nat) (t : Toc) :
    (final (Volume.rebuild limit ⟨f, t⟩)).toc =
      match (f.slots 0 limit).1 with
      | .ok _ => (merged (f.slots 0 limit).2 t).observeVersion (highest (f.slots 0 limit).2 0)
      | .error _ => merged (f.slots 0 limit).2 t := by
  have htake : ∀ o h state, scanned o h state = .ok (takeIn o h state) := fun _ _ _ => rfl
  have hscan := f.scan_eq_slots 0 limit htake (t, 0)
  rw [gather_takeIn] at hscan
  generalize (f.slots 0 limit).2 = row at *
  cases hresult : (f.slots 0 limit).1 with
  | error e =>
    rw [hresult] at hscan
    rw [rebuild_of_error hscan]
    rfl
  | ok summary =>
    rw [hresult] at hscan
    have hpure : onFile (RecordFile.orFail (.ok summary)) ⟨f, merged row t⟩ =
      .ok summary ⟨f, merged row t⟩ := rfl
    rw [Volume.rebuild, get_bind, hscan]
    dsimp only
    rw [set_bind, bind_of_ok hpure, onToc, modify_bind]
    exact Maintains.ite (fun _ => (toc_onFile _ _).bind fun _ => .pure) (fun _ => .pure) _ rfl

lemma runRebuild_eq (h : Volume.rebuild limit v = .ok summary v') :
    Volume.runRebuild limit v = .ok () { v' with toc := v'.toc.finish (.ok ()) } := by
  have hobserve : Error.observe (Volume.rebuild limit) v = .ok (.ok summary) v' := by
    rw [Error.observe, h]
  rw [runRebuild, bind_of_ok hobserve]
  rfl

lemma runRebuild_eq_error (h : Volume.rebuild limit v = .error err v') :
    Volume.runRebuild limit v =
      .error err { v' with toc := v'.toc.finish (.error (.background err.message)) } := by
  have hobserve : Error.observe (Volume.rebuild limit) v = .ok (.error err) v' := by
    rw [Error.observe, h]
  rw [runRebuild, bind_of_ok hobserve]
  rfl

end Rebuild

/-- **The data region is scanned** with a new table, without a torn tail. -/
theorem rebuild_of_tiled {f : RecordFile} (ht : f.Tiled row) :
    Volume.rebuild f.cursor ⟨f, .unfinished⟩ =
      .ok (.ofRow row f.cursor false) ⟨f, scannedToc row⟩ := by
  have htake : ∀ o h state, scanned o h state = .ok (takeIn o h state) := fun _ _ _ => rfl
  refine rebuild_of_scan ?_ rfl
  rw [ht.scan htake, gather_takeIn]

theorem Sound.rebuild (hs : Sound v row used drawn) :
    Volume.rebuild v.file.cursor ⟨v.file, .unfinished⟩ =
      .ok (.ofRow row v.file.cursor false) ⟨v.file, scannedToc row⟩ := rebuild_of_tiled hs.tiled

/-- **A whole file is scanned** when no table is found at its end, and is cut back to the slots that
fill it. -/
theorem runRebuild_fills {c : Content} {stop : Nat} (hf : Row.Fills c 0 row stop)
    (hr : c.Ragged stop) (hpos : stop < positionLimit) :
    Volume.runRebuild c.size ⟨.ofContent c, .unfinished⟩ =
      .ok () ⟨⟨c.resize stop, stop, none⟩, (scannedToc row).finish (.ok ())⟩ := by
  have htake : ∀ o h state, scanned o h state = .ok (takeIn o h state) := fun _ _ _ => rfl
  have hscan := RecordFile.scan_fills hf hr hpos htake (.unfinished, 0)
  rw [gather_takeIn] at hscan
  by_cases hsize : c.size = stop
  · subst hsize
    rw [decide_eq_false (not_not.mpr rfl)] at hscan
    rw [c.resize_self]
    exact runRebuild_eq (rebuild_of_scan hscan rfl)
  · rw [decide_eq_true hsize] at hscan
    exact runRebuild_eq (rebuild_of_torn hscan rfl hpos)

/-- The table of a scan belongs to a file that keeps the slots and has no tail. -/
lemma Sound.scanned (hs : Sound v row used drawn) (hn : drawn + 1 < versionLimit) {f : RecordFile}
    (hk : RecordFile.Keeps v.file row f) (hu : f.sealedAt = none) :
    Holds ⟨f, (scannedToc row).finish (.ok ())⟩ v.payload? used drawn := by
  obtain ⟨hdescribed, haged⟩ := scannedToc_sound hs.tiled.fills (hs.aged hn) hn
  obtain ⟨hready, hsignal⟩ := scannedToc_finished row
  have hsound : Sound ⟨f, (scannedToc row).finish (.ok ())⟩ row used drawn := {
    whole := hs.whole.keep hk
    described := hdescribed.congr ⟨fun _ => rfl, fun _ => rfl⟩ fun _ => Iff.rfl
    ready := hready
    signal := hsignal
    aged := fun _ => haged
    resumes := fun hsealed => absurd hsealed (RecordFile.not_isSealed hu) }
  exact ⟨⟨row, hsound⟩, fun k => payload?_congr hs hsound fun _ => hk.shows⟩

/-- **A file without tail is scanned when it is opened**, and holds the same. -/
theorem Sound.remount (hs : Sound v row used drawn) (hn : drawn + 1 < versionLimit)
    (hu : v.file.sealedAt = none) :
    ∃ v', Volume.runRebuild v.file.content.size ⟨.ofContent v.file.content, .unfinished⟩ =
        .ok () v' ∧ Holds v' v.payload? used drawn := by
  have hrun := runRebuild_fills hs.tiled.fills (hs.tiled.ragged hu) hs.tiled.cursor_lt
  refine ⟨_, hrun, hs.scanned hn ?_ rfl⟩
  exact hs.tiled.keeps (v.file.content.agrees_resize 0 (Nat.le_refl _)).symm rfl
    (.clean rfl (Content.size_resize _ _)) (by rw [Content.size_resize]; exact hs.tiled.cursor_lt)

/-- **The table of a sealed file** is loaded when it is opened, and the volume holds the same. -/
theorem Sound.resume (hs : Sound v row used drawn) (hsealed : v.file.isSealed = true) :
    ∃ v', load (.ofContent v.file.content) = .ok (some v') ∧ Holds v' v.payload? used drawn := by
  obtain ⟨t, hr, hload, htail⟩ := hs.resumes hsealed
  have hsound : Sound ⟨v.file, t⟩ row used drawn := {
    whole := hs.whole
    described := hs.described.congr hr.alike fun _ => Iff.rfl
    ready := hr.ready
    signal := hr.signal
    aged := hr.aged
    resumes := fun _ => ⟨t, ⟨.refl t, hr.ready, hr.signal, hr.aged⟩, hload, htail⟩ }
  exact ⟨_, hload, ⟨row, hsound⟩, fun k => payload?_congr hs hsound fun _ => Iff.rfl⟩

end Volume

end SlotStore
