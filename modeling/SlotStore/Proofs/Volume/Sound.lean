import Mathlib.Tactic.Common
import SlotStore.Proofs.Toc.Merge
import SlotStore.Proofs.Volume.Load

/-!
# Sound volumes

The file and the table of a volume belong together: the slots tile the file, the table describes
them, every slot in use can be read, and a sealed file gives its table back when it is opened.  As
long as versions have not run out, the slots are also aged well, so that a scan would find the same
table.

* `Volume.Sound` : the invariant;
* `Volume.payload?`, `Volume.payload?_eq_some` : what a volume holds under a key is what the slots
  in use hold;
* `Volume.Sound.keep`, `Volume.Sound.draw` : changes that leave all slots as they are.
-/

namespace SlotStore

namespace RecordFile

lemma not_isSealed {f : RecordFile} (h : f.sealedAt = none) : ¬ f.isSealed = true := by
  rw [isSealed, h]
  exact Bool.false_ne_true

/-- A slot in use holds a payload under a key. -/
def Shows (f : RecordFile) (row : Row) (k : Key) (payload : Bytes) : Prop :=
  ∃ p ∈ row, p.2.inUse = true ∧ p.2.key = k ∧ f.read p.1 = .ok (p.2, payload)

variable {f f' : RecordFile} {row : Row} {o : Nat} {h : Header} {k : Key} {payload : Bytes}

/-- What keeps the slots shows the same entities. -/
lemma Keeps.shows (hk : Keeps f row f') : Shows f' row k payload ↔ Shows f row k payload := by
  constructor <;> rintro ⟨p, hp, hu, hkey, hread⟩
  · exact ⟨p, hp, hu, hkey, hk.reads p hp ▸ hread⟩
  · exact ⟨p, hp, hu, hkey, hk.reads p hp ▸ hread⟩

/-- Setting a slot changes what that slot holds. -/
lemma Sets.shows (hs : Sets f row o h f') :
    Shows f' (Row.put o h row) k payload ↔
      (h.inUse = true ∧ h.key = k ∧ f'.read o = .ok (h, payload)) ∨
        ∃ p ∈ row, p.1 ≠ o ∧ p.2.inUse = true ∧ p.2.key = k ∧ f.read p.1 = .ok (p.2, payload) := by
  constructor
  · rintro ⟨p, hp, hu, hkey, hread⟩
    rcases Row.mem_put.mp hp with rfl | ⟨hp, hne⟩
    · exact Or.inl ⟨hu, hkey, hread⟩
    · exact Or.inr ⟨p, hp, hne, hu, hkey, hs.reads p hp hne ▸ hread⟩
  · rintro (⟨hu, hkey, hread⟩ | ⟨p, hp, hne, hu, hkey, hread⟩)
    · exact ⟨(o, h), Row.mem_put.mpr (Or.inl rfl), hu, hkey, hread⟩
    · exact ⟨p, Row.mem_put.mpr (Or.inr ⟨hp, hne⟩), hu, hkey, (hs.reads p hp hne).trans hread⟩

/-- Keys that had no slot there and get none are shown as before. -/
lemma Sets.shows_other (hs : Sets f row o h f') (hkey : h.inUse = true → h.key ≠ k)
    (hother : ∀ p ∈ row, p.2.inUse = true → p.2.key = k → p.1 ≠ o) :
    Shows f' (Row.put o h row) k payload ↔ Shows f row k payload := by
  refine hs.shows.trans ⟨?_, ?_⟩
  · rintro (⟨hu, heq, _⟩ | ⟨p, hp, _, hu, hk, hread⟩)
    · exact absurd heq (hkey hu)
    · exact ⟨p, hp, hu, hk, hread⟩
  · rintro ⟨p, hp, hu, hk, hread⟩
    exact Or.inr ⟨p, hp, hother p hp hu hk, hu, hk, hread⟩

/-- **A file of slots that can be read**: every slot in use holds a payload, and all keys are among
those `used`. -/
structure Whole (f : RecordFile) (row : Row) (used : List Key) : Prop where
  tiled : f.Tiled row
  intact : ∀ p ∈ row, p.2.inUse = true → ∃ payload, f.read p.1 = .ok (p.2, payload)
  known : ∀ p ∈ row, p.2.key.isReserved = false → p.2.key ∈ used

namespace Whole

variable {used : List Key}

lemma keep (hw : Whole f row used) (hk : Keeps f row f') : Whole f' row used where
  tiled := hk.tiled
  intact p hp hu := by
    obtain ⟨payload, hread⟩ := hw.intact p hp hu
    exact ⟨payload, (hk.reads p hp).trans hread⟩
  known := hw.known

lemma set (hw : Whole f row used) (hs : Sets f row o h f')
    (hread : h.inUse = true → ∃ payload, f'.read o = .ok (h, payload))
    (hknown : h.key.isReserved = false → h.key ∈ used) : Whole f' (Row.put o h row) used where
  tiled := hs.tiled
  intact p hp hu := by
    rcases Row.mem_put.mp hp with rfl | ⟨hp, hne⟩
    · exact hread hu
    · obtain ⟨payload, hread⟩ := hw.intact p hp hu
      exact ⟨payload, (hs.reads p hp hne).trans hread⟩
  known p hp hr := by
    rcases Row.mem_put.mp hp with rfl | ⟨hp, _⟩
    · exact hknown hr
    · exact hw.known p hp hr

lemma drop (hw : Whole f row used) (hm : (o, h) ∈ row) (hs : Sets f row o h.tombstone f') :
    Whole f' (Row.put o h.tombstone row) used :=
  hw.set hs (fun hu => by cases hu) (hw.known (o, h) hm)

end Whole

end RecordFile

namespace Volume

section

variable {v : Volume} {α : Type} {act : FileM α} {f : RecordFile}

lemma onFile_ok {x : α} (h : act v.file = .ok x f) : onFile act v = .ok x { v with file := f } := by
  rw [onFile, h]

lemma onFile_error {e : Error} (h : act v.file = .error e f) :
    onFile act v = .error e { v with file := f } := by
  rw [onFile, h]

end

/-- What a volume holds under a key. -/
def payload? (v : Volume) (k : Key) : Option Bytes :=
  ((v.toc.find? k).filter fun e => !e.isFree).bind fun e =>
    (readEntry v.file e).toOption.map (·.2)

/-- A table that a sealed file gives back for the table it was sealed with. -/
structure Resumes (t t' : Toc) (row : Row) (drawn : Nat) : Prop where
  alike : Toc.Alike t t'
  ready : t'.ready = true
  signal : t'.signal = .succeeded
  aged : drawn + 1 < versionLimit → row.Aged t'.nextVersion drawn

/-- **The file and the table of a volume belong together.**  All keys of its slots are among those
`used`, and it has handed out at most `drawn` versions. -/
structure Sound (v : Volume) (row : Row) (used : List Key) (drawn : Nat) : Prop where
  whole : v.file.Whole row used
  described : v.toc.Describes row
  ready : v.toc.ready = true
  signal : v.toc.signal = .succeeded
  aged : drawn + 1 < versionLimit → row.Aged v.toc.nextVersion drawn
  resumes : v.file.isSealed = true → ∃ t, Resumes v.toc t row drawn ∧
    load (.ofContent v.file.content) = .ok (some ⟨v.file, t⟩) ∧ Tailed v.file

variable {v v' : Volume} {row : Row} {used : List Key} {drawn : Nat} {k : Key} {payload : Bytes}

namespace Sound

lemma tiled (hs : Sound v row used drawn) : v.file.Tiled row := hs.whole.tiled

lemma empty : Sound ⟨.ofContent .empty, .empty⟩ [] [] 0 where
  whole := ⟨.empty, fun _ hp => (by cases hp), fun _ hp => (by cases hp)⟩
  described := Toc.Describes.empty.congr ⟨fun _ => rfl, fun _ => rfl⟩ fun _ => Iff.rfl
  ready := rfl
  signal := rfl
  aged _ := ⟨fun _ _ hm => (by cases hm), fun _ hp => (by cases hp), Nat.le_refl 1⟩
  resumes hsealed := by cases hsealed

/-! ## Reading -/

/-- **A live entry** has its slot in the row. -/
lemma slot (hs : Sound v row used drawn) {e : Entry} (hk : v.toc.find? k = some e)
    (hlive : e.isFree = false) :
    ∃ h, (e.offset, h) ∈ row ∧ h.inUse = true ∧ h.key = k ∧ e = .ofHeader e.offset h :=
  hs.described.live_iff.mp ⟨hk, hlive⟩

lemma find?_reserved (hs : Sound v row used drawn) (hr : k.isReserved = true) :
    v.toc.find? k = none := by
  refine Option.eq_none_iff_forall_ne_some.mpr fun e he => ?_
  have hkey := (hs.described.entry he).1
  rw [hr] at hkey
  cases hkey

/-- **A live entry is read** as the payload of its slot. -/
lemma readEntry (hs : Sound v row used drawn) {e : Entry} (hk : v.toc.find? k = some e)
    (hlive : e.isFree = false) :
    ∃ h payload, Volume.readEntry v.file e = .ok (h, payload) ∧ h.inUse = true ∧ h.key = k ∧
      (e.offset, h) ∈ row ∧ e = .ofHeader e.offset h ∧ v.file.read e.offset = .ok (h, payload) := by
  obtain ⟨h, hm, hu, hkey, he⟩ := hs.slot hk hlive
  obtain ⟨payload, hread⟩ := hs.whole.intact _ hm hu
  refine ⟨h, payload, ?_, hu, hkey, hm, he, hread⟩
  have hsame : h.key = e.key := by
    rw [he]
    rfl
  rw [Volume.readEntry, hread]
  simp only [bind, Except.bind]
  rw [if_neg (by simp only [hsame, hu, ne_eq, not_true_eq_false, or_self, not_false_eq_true])]
  rfl

end Sound

/-- The payload of a key is what is read of its entry. -/
lemma payload?_of_live {e : Entry} (hk : v.toc.find? k = some e) (hlive : e.isFree = false) :
    v.payload? k = (readEntry v.file e).toOption.map (·.2) := by
  have hfilter : (v.toc.find? k).filter (fun e => !e.isFree) = some e := by
    rw [hk, Option.filter_some, hlive]
    rfl
  rw [payload?, hfilter, Option.bind_some]

/-- **A volume holds what its slots in use hold.** -/
theorem payload?_eq_some (hs : Sound v row used drawn) :
    v.payload? k = some payload ↔ v.file.Shows row k payload := by
  constructor
  · intro hp
    obtain ⟨e, he, hread⟩ := Option.bind_eq_some_iff.mp hp
    obtain ⟨hk, hlive⟩ := Option.filter_eq_some_iff.mp he
    have hlive : e.isFree = false := by simpa using hlive
    obtain ⟨h, payload', hentry, hu, hkey, hm, _, hslot⟩ := hs.readEntry hk hlive
    rw [hentry] at hread
    cases hread
    exact ⟨_, hm, hu, hkey, hslot⟩
  · rintro ⟨⟨o, h⟩, hm, hu, rfl, hread⟩
    have hk : v.toc.find? h.key = some (.ofHeader o h) := hs.described.find?_of_inUse hm hu
    have hlive : (Entry.ofHeader o h).isFree = false := congrArg (! ·) hu
    obtain ⟨h', payload', hentry, _, _, _, _, hslot⟩ := hs.readEntry hk hlive
    cases hread.symm.trans hslot
    rw [payload?_of_live hk hlive, hentry]
    rfl

/-- Two volumes hold the same under a key if their slots in use do. -/
lemma payload?_congr {row' : Row} {used' : List Key} {drawn' : Nat} (hs : Sound v row used drawn)
    (hs' : Sound v' row' used' drawn')
    (hshows : ∀ payload, v'.file.Shows row' k payload ↔ v.file.Shows row k payload) :
    v'.payload? k = v.payload? k := by
  refine Option.ext fun payload => ?_
  rw [payload?_eq_some hs, payload?_eq_some hs', hshows]

lemma payload?_of_not_shows (hs : Sound v row used drawn)
    (hshows : ∀ payload, ¬ v.file.Shows row k payload) : v.payload? k = none :=
  Option.eq_none_iff_forall_ne_some.mpr fun payload hp =>
    hshows payload ((payload?_eq_some hs).mp hp)

lemma Sound.sole (hs : Sound v row used drawn) {o : Nat} {h : Header} (hm : (o, h) ∈ row)
    (hu : h.inUse = true) {p : Nat × Header} (hp : p ∈ row) (hpu : p.2.inUse = true) :
    p.1 = o ↔ p.2.key = h.key := by
  constructor
  · rintro rfl
    rw [hs.described.single hp hm]
  · intro hkey
    have hown := hs.described.find?_of_inUse hm hu
    rw [← hkey, hs.described.find?_of_inUse hp hpu] at hown
    exact congrArg Entry.offset (Option.some.inj hown)

/-! ## Changes that leave the slots -/

namespace Sound

/-- The slots are kept and the tail is gone. -/
lemma keep (hs : Sound v row used drawn) {f : RecordFile} (hk : RecordFile.Keeps v.file row f)
    (hu : f.sealedAt = none) : Sound { v with file := f } row used drawn where
  whole := hs.whole.keep hk
  described := hs.described
  ready := hs.ready
  signal := hs.signal
  aged := hs.aged
  resumes hsealed := absurd hsealed (RecordFile.not_isSealed hu)

lemma draw (hs : Sound v row used drawn) :
    Sound { v with toc := v.toc.allocateVersion.2 } row used (drawn + 1) where
  whole := hs.whole
  described := hs.described.congr ⟨fun _ => rfl, fun _ => rfl⟩ fun _ => Iff.rfl
  ready := hs.ready
  signal := hs.signal
  aged hn := (hs.aged (by omega)).draw (by omega)
  resumes hsealed := by
    obtain ⟨t, hr, hload⟩ := hs.resumes hsealed
    refine ⟨t, ⟨⟨hr.alike.find?, hr.alike.spare?⟩, hr.ready, hr.signal, fun hn => ?_⟩, hload⟩
    have ha := hr.aged (by omega)
    exact ⟨ha.newest, ha.below, Nat.le_succ_of_le ha.few⟩

lemma use (hs : Sound v row used drawn) (k : Key) : Sound v row (k :: used) drawn where
  whole := ⟨hs.tiled, hs.whole.intact,
    fun p hp hr => List.mem_cons_of_mem k (hs.whole.known p hp hr)⟩
  described := hs.described
  ready := hs.ready
  signal := hs.signal
  aged := hs.aged
  resumes := hs.resumes

end Sound

/-! ## What a volume holds -/

/-- **A sound volume holds payloads under keys.** -/
structure Holds (v : Volume) (held : Key → Option Bytes) (used : List Key) (drawn : Nat) :
    Prop where
  sound : ∃ row, Sound v row used drawn
  held : ∀ k, v.payload? k = held k

namespace Sound

/-- A sound volume holds its payloads. -/
lemma holds (hs : Sound v row used drawn) : Holds v v.payload? used drawn :=
  ⟨⟨row, hs⟩, fun _ => rfl⟩

lemma holds_keep (hs : Sound v row used drawn) {f : RecordFile} (hk : RecordFile.Keeps v.file row f)
    (hu : f.sealedAt = none) : Holds { v with file := f } v.payload? used drawn :=
  ⟨⟨row, hs.keep hk hu⟩, fun _ => payload?_congr hs (hs.keep hk hu) fun _ => hk.shows⟩

end Sound

end Volume

end SlotStore
