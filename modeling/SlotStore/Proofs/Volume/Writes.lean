import Mathlib.Tactic.Common
import SlotStore.Proofs.Volume.Place

/-!
# Entities written to a volume

A write sets one slot, or two when a key moves to another slot, and changes the table to match.  On
a sound volume it changes what the volume holds under the key and nothing else, and leaves the
volume sound.

* `Volume.enter`, `Volume.exchange`, `Volume.giveUp` : the three writes;
* `Volume.Loose.enter_eq`, `Volume.Loose.rewrite_eq`, `Volume.Loose.relocate_eq`,
  `Volume.Loose.giveUp_eq` : the slots they set, and what the table describes afterwards;
* `Volume.Sound.write`, `Volume.Sound.move`, `Volume.Sound.drop` : what such a change of slots and
  table comes to;
* `Volume.Sound.enter`, `Volume.Sound.exchange`, `Volume.Sound.giveUp` : the three writes to a sound
  volume.
-/

namespace SlotStore.Volume

open Steps

variable {v v' : Volume} {row shown : Row} {used : List Key} {drawn : Nat} {k : Key}
  {payload : Bytes} {o size : Nat} {e : Entry} {stamp : Stamp} {err : Error}

/-! ## Three writes -/

/-- A volume that has handed out a version. -/
def draw (v : Volume) : Volume := { v with toc := v.toc.allocateVersion.2 }

/-- Hands out a version. -/
def allocate : VolumeM UInt32 := fun v => .ok v.toc.nextVersion v.draw

/-- Puts a payload into a slot of its own and makes that the slot of a key. -/
def enter (k : Key) (payload : Bytes) : VolumeM Unit := do
  let version ← allocate
  let (offset, size) ← place ⟨k, version⟩ payload
  onToc (Toc.upsertEntry { key := k, offset, size, isFree := false, version })

/-- Replaces the payload of an entry, in its slot or else in another one. -/
def exchange (k : Key) (e : Entry) (payload : Bytes) : VolumeM Unit := do
  if payload.length ≤ e.capacity then
    let version ← allocate
    let _ ← onFile (RecordFile.writePayload e.offset ⟨k, version⟩ payload e.capacity)
    onToc (Toc.upsertEntry { e with version })
  else
    enter k payload
    onFile (RecordFile.markUnused e.offset)
    onToc (Toc.retire e)

/-- Marks the slot of an entry unused and free. -/
def giveUp (k : Key) (e : Entry) : VolumeM Unit := do
  onFile (RecordFile.markUnused e.offset)
  onToc (Toc.markFree k)

/-! ## Slots and tables after a write -/

lemma upsertEntry_ofHeader (t : Toc) {h : Header} (hr : h.key.isReserved = false) :
    t.upsertEntry (.ofHeader o h) = (t.observeVersion h.version).putEntry (.ofHeader o h) :=
  if_neg (by rw [show (Entry.ofHeader o h).key = h.key from rfl, hr]; exact Bool.false_ne_true)

/-- The entry of a slot that was placed. -/
def placedEntry (stamp : Stamp) (o size : Nat) : Entry := ⟨stamp.key, o, size, false, stamp.version⟩

/-- The entry of a placed payload is that of its slot. -/
lemma Placed.entry (hp : Placed v row shown stamp payload o size v') :
    placedEntry stamp o size = .ofHeader o (.ofPayload stamp payload (size - Header.size)) := by
  rw [placedEntry, Entry.ofHeader, hp.slotSize]
  rfl

/-- A placed slot becomes that of a key without an entry. -/
lemma Placed.describes_insert (hp : Placed v row shown stamp payload o size v')
    (hr : stamp.key.isReserved = false) (hnone : v.toc.find? stamp.key = none) :
    (v'.toc.upsertEntry (placedEntry stamp o size)).Describes
      (Row.put o (.ofPayload stamp payload (size - Header.size)) shown) := by
  have hput := hp.described.putEntry (o := o)
    (h := .ofPayload stamp payload (size - Header.size)) (fun p hm => (Row.mem_without.mp hm).2)
    (hp.absent stamp.key hnone) hr
  rw [hp.entry, upsertEntry_ofHeader _ hr]
  refine hput.congr ⟨fun _ => rfl, fun _ => rfl⟩ fun p => ?_
  simp only [Row.mem_put, Row.mem_without]
  tauto

/-- A placed slot becomes that of a key whose entry had another slot. -/
lemma Placed.describes_move (hp : Placed v row shown stamp payload o size v')
    (hr : stamp.key.isReserved = false) (hk : v.toc.find? stamp.key = some e)
    (hlive : e.isFree = false) {old : Header} (hm : (e.offset, old) ∈ shown) (hne : e.offset ≠ o) :
    ((v'.toc.upsertEntry (placedEntry stamp o size)).retire e).Describes
      (Row.put e.offset old.tombstone
        (Row.put o (.ofPayload stamp payload (size - Header.size)) shown)) := by
  have hmove := hp.described.relocate (o := o)
    (h := .ofPayload stamp payload (size - Header.size)) (fun p hm => (Row.mem_without.mp hm).2)
    (hp.live stamp.key e hk hlive) (Row.mem_without.mpr ⟨hm, hne⟩)
  rw [hp.entry, upsertEntry_ofHeader _ hr]
  refine hmove.congr ⟨fun _ => rfl, fun _ => rfl⟩ fun p => ?_
  simp only [Row.mem_put, Row.mem_without]
  tauto

lemma Placed.upsert_fields (hp : Placed v row shown stamp payload o size v')
    (hr : stamp.key.isReserved = false) :
    (v'.toc.upsertEntry (placedEntry stamp o size)).ready = v.toc.ready ∧
      (v'.toc.upsertEntry (placedEntry stamp o size)).signal = v.toc.signal ∧
      (v'.toc.upsertEntry (placedEntry stamp o size)).nextVersion =
        max v.toc.nextVersion (Toc.bump stamp.version) := by
  rw [hp.entry, upsertEntry_ofHeader _ hr, ← hp.nextVersion, ← hp.ready, ← hp.signal]
  exact ⟨rfl, rfl, rfl⟩

namespace Loose

/-- A version that is drawn leaves the table loose. -/
lemma draw (hl : Loose v row shown) : Loose v.draw row shown :=
  ⟨hl.tiled, hl.described.congr ⟨fun _ => rfl, fun _ => rfl⟩ fun _ => Iff.rfl, hl.veils, hl.ready,
    hl.signal⟩

/-- The slot of a live entry. -/
lemma slot (hl : Loose v row shown) (hk : v.toc.find? k = some e) (hlive : e.isFree = false) :
    ∃ h, (e.offset, h) ∈ shown ∧ (e.offset, h) ∈ row ∧ h.inUse = true ∧ h.key = k ∧
      k.isReserved = false ∧ e = .ofHeader e.offset h := by
  obtain ⟨h, hm, hu, hkey, he⟩ := hl.described.live_iff.mp ⟨hk, hlive⟩
  exact ⟨h, hm, hl.veils.mem_of_inUse hm hu, hu, hkey, (hl.described.entry hk).1, he⟩

/-- **Entering a payload** sets one slot, or fails for want of room. -/
theorem enter_eq (hl : Loose v row shown) (k : Key) (payload : Bytes) :
    (∃ o size v', enter k payload v =
        .ok () ⟨v'.file, v'.toc.upsertEntry (placedEntry ⟨k, v.toc.nextVersion⟩ o size)⟩ ∧
      Placed v.draw row shown ⟨k, v.toc.nextVersion⟩ payload o size v') ∨
    ∃ err f, enter k payload v = .error err ⟨f, v.draw.toc⟩ ∧ NoRoom v payload err ∧
      Left v.file row f := by
  rw [enter, bind_of_ok (show allocate v = .ok v.toc.nextVersion v.draw from rfl)]
  rcases hl.draw.place ⟨k, v.toc.nextVersion⟩ payload with
    ⟨o, size, v', hplace, hp⟩ | ⟨err, f, hplace, hroom, hleft⟩
  · exact Or.inl ⟨o, size, v', (bind_of_ok hplace).trans rfl, hp⟩
  · refine Or.inr ⟨err, f, bind_of_error hplace, ?_, hleft⟩
    cases hroom with
    | length hlength => exact .length hlength
    | position hposition => exact .position hposition

/-- **A payload that fits is exchanged in its slot.** -/
theorem rewrite_eq (hl : Loose v row shown) (hk : v.toc.find? k = some e) (hlive : e.isFree = false)
    (hfit : payload.length ≤ e.capacity) :
    ∃ f t, exchange k e payload v = .ok () ⟨f, t⟩ ∧
      RecordFile.Sets v.file row e.offset
        (.ofPayload ⟨k, v.toc.nextVersion⟩ payload e.capacity) f ∧
      f.read e.offset = .ok (.ofPayload ⟨k, v.toc.nextVersion⟩ payload e.capacity, payload) ∧
      t.Describes (Row.put e.offset (.ofPayload ⟨k, v.toc.nextVersion⟩ payload e.capacity) shown) ∧
      t.ready = v.toc.ready ∧ t.signal = v.toc.signal ∧
      t.nextVersion = max (v.toc.nextVersion + 1) (Toc.bump v.toc.nextVersion) := by
  obtain ⟨h, _, hm, _, hkey, hr, hof⟩ := hl.slot hk hlive
  have hslot := h.size_le_slotSize
  have hsize : e.size = h.slotSize := by
    rw [hof]
    rfl
  have hcapacity : h.slotSize = Header.size + e.capacity := by
    rw [Entry.capacity, hsize]
    omega
  have hcap := h.capacity_lt hcapacity
  obtain ⟨f, hwrite, hsets, _, _, hread⟩ :=
    hl.tiled.writePayload hm ⟨k, v.toc.nextVersion⟩ hcapacity hfit
  have hentry : (⟨e.key, e.offset, e.size, e.isFree, v.toc.nextVersion⟩ : Entry) =
      .ofHeader e.offset (.ofPayload ⟨k, v.toc.nextVersion⟩ payload e.capacity) := by
    rw [Entry.ofHeader, Header.slotSize_ofPayload hcap, ← hcapacity, ← hsize, hlive,
      Toc.key_of_find? hk]
    rfl
  have hexchange : exchange k e payload v = .ok () ⟨f, v.draw.toc.upsertEntry
      ⟨e.key, e.offset, e.size, e.isFree, v.toc.nextVersion⟩⟩ := by
    rw [exchange, if_pos hfit, bind_of_ok (show allocate v = .ok v.toc.nextVersion v.draw from rfl)]
    exact (bind_of_ok (onFile_ok (v := v.draw) hwrite)).trans rfl
  rw [hentry, upsertEntry_ofHeader _ hr] at hexchange
  refine ⟨f, _, hexchange, hsets, hread, ?_, rfl, rfl, rfl⟩
  have hrewrite := hl.described.rewrite
    (h := .ofPayload ⟨k, v.toc.nextVersion⟩ payload e.capacity) hk rfl
  exact hrewrite.congr ⟨fun _ => rfl, fun _ => rfl⟩ fun _ => Iff.rfl

/-- **A payload that does not fit is put into another slot**, and the slot the key had is marked
unused; or there is no room. -/
theorem relocate_eq (hl : Loose v row shown) (hk : v.toc.find? k = some e)
    (hlive : e.isFree = false) (hfit : ¬ payload.length ≤ e.capacity) :
    (∃ o size v' f old, exchange k e payload v = .ok () ⟨f, (v'.toc.upsertEntry
        (placedEntry ⟨k, v.toc.nextVersion⟩ o size)).retire e⟩ ∧
      Placed v.draw row shown ⟨k, v.toc.nextVersion⟩ payload o size v' ∧
      e.offset ≠ o ∧ (e.offset, old) ∈ shown ∧ (e.offset, old) ∈ row ∧ old.inUse = true ∧
      old.key = k ∧ RecordFile.Sets v'.file
        (Row.put o (.ofPayload ⟨k, v.toc.nextVersion⟩ payload (size - Header.size)) row) e.offset
        old.tombstone f) ∨
    ∃ err f, exchange k e payload v = .error err ⟨f, v.draw.toc⟩ ∧ NoRoom v payload err ∧
      Left v.file row f := by
  rw [exchange, if_neg hfit]
  rcases hl.enter_eq k payload with ⟨o, size, v', henter, hp⟩ | ⟨err, f, henter, hroom, hleft⟩
  · left
    obtain ⟨old, hshown, hm, hu, hkey, _⟩ := hl.slot hk hlive
    -- Only slots out of use are given out.
    have hne : e.offset ≠ o := by
      intro heq
      have hfree := hp.idle _ hshown heq
      rw [hu] at hfree
      cases hfree
    obtain ⟨f, hmark, hdrop, _⟩ :=
      hp.sets.tiled.markUnused (Row.mem_put.mpr (Or.inr ⟨hm, hne⟩))
    refine ⟨o, size, v', f, old, ?_, hp, hne, hshown, hm, hu, hkey, hdrop⟩
    rw [bind_of_ok henter]
    exact (bind_of_ok (onFile_ok (v := ⟨v'.file,
      v'.toc.upsertEntry (placedEntry ⟨k, v.toc.nextVersion⟩ o size)⟩) hmark)).trans rfl
  · exact Or.inr ⟨err, f, bind_of_error henter, hroom, hleft⟩

/-- **A live entry is given up** with its slot. -/
theorem giveUp_eq (hl : Loose v row shown) (hk : v.toc.find? k = some e) (hlive : e.isFree = false) :
    ∃ f old, giveUp k e v = .ok () ⟨f, v.toc.markFree k⟩ ∧ (e.offset, old) ∈ shown ∧
      (e.offset, old) ∈ row ∧ old.inUse = true ∧ old.key = k ∧
      RecordFile.Sets v.file row e.offset old.tombstone f ∧
      (v.toc.markFree k).Describes (Row.put e.offset old.tombstone shown) := by
  obtain ⟨old, hshown, hm, hu, hkey, _⟩ := hl.slot hk hlive
  obtain ⟨f, hmark, hsets, _⟩ := hl.tiled.markUnused hm
  refine ⟨f, old, (bind_of_ok (onFile_ok hmark)).trans rfl, hshown, hm, hu, hkey, hsets, ?_⟩
  exact hl.described.markFree hk hshown

end Loose

/-! ## Slots set and given up -/

/-- The version after a write is one higher, unless versions have run out. -/
lemma nextVersion_write {next : UInt32} (ha : row.Aged next drawn) (hn : drawn + 2 < versionLimit) :
    max (next + 1) (Toc.bump next) = next + 1 := by
  have hfew := ha.few
  rw [← UInt32.toNat_inj, Row.toNat_max, Toc.toNat_bump (by omega), ha.toNat_succ hn, Nat.max_self]

section Write

variable {h : Header} {f : RecordFile} {t : Toc}

/-- **A slot is written** that is the only one of its key in use, or the first. -/
theorem Sound.write (hs : Sound v row used drawn) (hsets : RecordFile.Sets v.file row o h f)
    (hread : f.read o = .ok (h, payload)) (hu : h.inUse = true) (hr : h.key.isReserved = false)
    (hv : h.version = v.toc.nextVersion)
    (hsole : ∀ p ∈ row, p.2.inUse = true → (p.1 = o ↔ p.2.key = h.key))
    (hd : t.Describes (Row.put o h row)) (hready : t.ready = true) (hsignal : t.signal = .succeeded)
    (hnext : t.nextVersion = max (v.toc.nextVersion + 1) (Toc.bump h.version))
    (hknown : h.key ∈ used) :
    Holds ⟨f, t⟩ (fun j => if j = h.key then some payload else v.payload? j) used (drawn + 1) := by
  have hsound : Sound ⟨f, t⟩ (Row.put o h row) used (drawn + 1) := {
    whole := hs.whole.set hsets (fun _ => ⟨payload, hread⟩) fun _ => hknown
    described := hd
    ready := hready
    signal := hsignal
    aged := by
      intro hn
      have ha := hs.aged (by omega)
      rw [hnext, hv, nextVersion_write ha (by omega)]
      exact ha.write (by omega) hv hr fun p hp hpu hkey => (hsole p hp hpu).mpr hkey
    resumes := fun hsealed => absurd hsealed (RecordFile.not_isSealed hsets.unsealed) }
  refine ⟨⟨_, hsound⟩, fun k => ?_⟩
  split
  · rename_i hkey
    exact (payload?_eq_some hsound).mpr (hsets.shows.mpr (Or.inl ⟨hu, hkey.symm, hread⟩))
  · rename_i hkey
    refine payload?_congr hs hsound fun _ => hsets.shows_other (fun _ => Ne.symm hkey) ?_
    exact fun p hp hpu hpk heq => hkey (hpk ▸ (hsole p hp hpu).mp heq)

/-- **A slot in use is given up.** -/
theorem Sound.drop (hs : Sound v row used drawn) (hm : (o, h) ∈ row) (hu : h.inUse = true)
    (hsets : RecordFile.Sets v.file row o h.tombstone f)
    (hd : t.Describes (Row.put o h.tombstone row)) (hready : t.ready = true)
    (hsignal : t.signal = .succeeded) (hnext : t.nextVersion = v.toc.nextVersion) :
    Holds ⟨f, t⟩ (fun j => if j = h.key then none else v.payload? j) used drawn := by
  have hsound : Sound ⟨f, t⟩ (Row.put o h.tombstone row) used drawn := {
    whole := hs.whole.drop hm hsets
    described := hd
    ready := hready
    signal := hsignal
    aged := by
      intro hn
      rw [hnext]
      exact (hs.aged hn).drop hm
    resumes := fun hsealed => absurd hsealed (RecordFile.not_isSealed hsets.unsealed) }
  refine ⟨⟨_, hsound⟩, fun k => ?_⟩
  split
  · rename_i hkey
    refine payload?_of_not_shows hsound fun bs hshows => ?_
    rcases hsets.shows.mp hshows with ⟨heq, _⟩ | ⟨p, hp, hne, hpu, hpk, _⟩
    · cases heq
    · exact hne ((hs.sole hm hu hp hpu).mpr (hpk.trans hkey))
  · rename_i hkey
    refine payload?_congr hs hsound fun _ => hsets.shows_other (fun hu => by cases hu) ?_
    exact fun p hp hpu hpk heq => hkey (hpk ▸ (hs.sole hm hu hp hpu).mp heq)

/-- **A key is moved to a slot out of use**, and the slot it had is given up. -/
theorem Sound.move (hs : Sound v row used drawn) {old : Header} {oldOffset : Nat}
    {f' : RecordFile} (hm : (oldOffset, old) ∈ row) (hold : old.inUse = true)
    (hsets : RecordFile.Sets v.file row o h f) (hread : f.read o = .ok (h, payload))
    (hu : h.inUse = true) (hkey : old.key = h.key) (hv : h.version = v.toc.nextVersion)
    (hidle : ∀ p ∈ row, p.1 = o → p.2.inUse = false)
    (hdrop : RecordFile.Sets f (Row.put o h row) oldOffset old.tombstone f')
    (hd : t.Describes (Row.put oldOffset old.tombstone (Row.put o h row)))
    (hready : t.ready = true) (hsignal : t.signal = .succeeded)
    (hnext : t.nextVersion = max (v.toc.nextVersion + 1) (Toc.bump h.version)) :
    Holds ⟨f', t⟩ (fun j => if j = h.key then some payload else v.payload? j) used (drawn + 1) := by
  have hr : old.key.isReserved = false :=
    (hs.described.entry (hs.described.find?_of_inUse hm hold)).1
  have hne : oldOffset ≠ o := by
    intro heq
    have hfree := hidle _ hm heq
    rw [hold] at hfree
    cases hfree
  have hmem : (oldOffset, old) ∈ Row.put o h row := Row.mem_put.mpr (Or.inr ⟨hm, hne⟩)
  -- In between the key has two slots in use; the file is whole then, but the table shows one.
  have hwhole : f.Whole (Row.put o h row) used :=
    hs.whole.set hsets (fun _ => ⟨payload, hread⟩) fun _ => hkey ▸ hs.whole.known _ hm hr
  have hsound : Sound ⟨f', t⟩ (Row.put oldOffset old.tombstone (Row.put o h row)) used
      (drawn + 1) := {
    whole := hwhole.drop hmem hdrop
    described := hd
    ready := hready
    signal := hsignal
    aged := by
      intro hn
      have ha := hs.aged (by omega)
      rw [hnext, hv, nextVersion_write ha (by omega)]
      exact ha.move (by omega) hv (hkey ▸ hr) hm hne
        fun p hp hpu hpk => (hs.sole hm hold hp hpu).mpr (hpk.trans hkey.symm)
    resumes := fun hsealed => absurd hsealed (RecordFile.not_isSealed hdrop.unsealed) }
  refine ⟨⟨_, hsound⟩, fun k => ?_⟩
  split
  · rename_i hk
    refine (payload?_eq_some hsound).mpr (hdrop.shows.mpr (Or.inr ?_))
    exact ⟨(o, h), Row.mem_put.mpr (Or.inl rfl), Ne.symm hne, hu, hk.symm, hread⟩
  · rename_i hk
    refine payload?_congr hs hsound fun _ =>
      (hdrop.shows_other (fun hu => by cases hu) ?_).trans
        (hsets.shows_other (fun _ => Ne.symm hk) ?_)
    · intro p hp hpu hpk heq
      rcases Row.mem_put.mp hp with rfl | ⟨hp, _⟩
      · exact hk hpk.symm
      · exact hk (hpk.symm.trans (((hs.sole hm hold hp hpu).mp heq).trans hkey))
    · intro p hp hpu _ heq
      rw [hidle p hp heq] at hpu
      cases hpu

end Write

/-! ## Writes to a sound volume -/

/-- What a write that found no room leaves. -/
lemma Sound.holds_left (hs : Sound v row used drawn) {f : RecordFile} (hleft : Left v.file row f) :
    Holds { v with file := f } v.payload? used drawn := by
  rcases hleft with rfl | ⟨hkeeps, hu⟩
  · exact hs.holds
  · exact hs.holds_keep hkeeps hu

/-- **A payload is entered under a key that nobody used**, unless there is no room for it. -/
theorem Sound.enter (hs : Sound v row used drawn) (hr : k.isReserved = false) (hfresh : k ∉ used)
    (payload : Bytes) :
    (∃ v', Volume.enter k payload v = .ok () v' ∧
      Holds v' (fun j => if j = k then some payload else v.payload? j) (k :: used) (drawn + 1)) ∨
    ∃ err v', Volume.enter k payload v = .error err v' ∧ NoRoom v payload err ∧
      Holds v' v.payload? used (drawn + 1) := by
  rcases hs.loose.enter_eq k payload with ⟨o, size, v', henter, hp⟩ | ⟨err, f, henter, hroom, hleft⟩
  · -- No slot has the key, not even one out of use, so no table or scan can bring it back.
    have hunused : ∀ p ∈ row, p.2.key ≠ k := fun p hm hkey =>
      hfresh (hkey ▸ hs.whole.known p hm (hkey ▸ hr))
    have hnone : v.toc.find? k = none := by
      refine Option.eq_none_iff_forall_ne_some.mpr fun e he => ?_
      obtain ⟨_, h, hm, hof⟩ := hs.described.entry he
      exact hunused _ hm (hs.described.find?_of_entry he hm).2
    obtain ⟨hready, hsignal, hnext⟩ := hp.upsert_fields hr
    refine Or.inl ⟨_, henter, ?_⟩
    refine (hs.use k).write hp.sets hp.read rfl hr rfl (fun p hm hu => ?_)
      (hp.describes_insert hr hnone) (hready.trans hs.ready) (hsignal.trans hs.signal) hnext
      List.mem_cons_self
    refine ⟨fun ho => ?_, fun hkey => absurd hkey (hunused p hm)⟩
    rw [hp.idle p hm ho] at hu
    cases hu
  · exact Or.inr ⟨err, _, henter, hroom, hs.draw.holds_left hleft⟩

/-- **The payload of a live entry is exchanged**, unless there is no room for it. -/
theorem Sound.exchange (hs : Sound v row used drawn) (hk : v.toc.find? k = some e)
    (hlive : e.isFree = false) (payload : Bytes) :
    (∃ v', Volume.exchange k e payload v = .ok () v' ∧
      Holds v' (fun j => if j = k then some payload else v.payload? j) used (drawn + 1)) ∨
    ∃ err v', Volume.exchange k e payload v = .error err v' ∧ NoRoom v payload err ∧
      Holds v' v.payload? used (drawn + 1) := by
  obtain ⟨old, hm, _, hu, hkey, hr, _⟩ := hs.loose.slot hk hlive
  by_cases hfit : payload.length ≤ e.capacity
  · obtain ⟨f, t, hexchange, hsets, hread, hd, hready, hsignal, hnext⟩ :=
      hs.loose.rewrite_eq hk hlive hfit
    refine Or.inl ⟨_, hexchange, ?_⟩
    refine hs.write hsets hread rfl hr rfl (fun p hp hpu => ?_) hd (hready.trans hs.ready)
      (hsignal.trans hs.signal) hnext (hkey ▸ hs.whole.known _ hm (hkey.symm ▸ hr))
    rw [hs.sole hm hu hp hpu, hkey]
    rfl
  · rcases hs.loose.relocate_eq hk hlive hfit with
      ⟨o, size, v', f, old, hexchange, hp, hne, hm, _, hu, hkey, hdrop⟩ |
      ⟨err, f, hexchange, hroom, hleft⟩
    · obtain ⟨hready, hsignal, hnext⟩ := hp.upsert_fields hr
      refine Or.inl ⟨_, hexchange, ?_⟩
      exact hs.move hm hu hp.sets hp.read rfl hkey rfl hp.idle hdrop
        (hp.describes_move hr hk hlive hm hne) (hready.trans hs.ready) (hsignal.trans hs.signal)
        hnext
    · exact Or.inr ⟨err, _, hexchange, hroom, hs.draw.holds_left hleft⟩

/-- **A live entry is given up.** -/
theorem Sound.giveUp (hs : Sound v row used drawn) (hk : v.toc.find? k = some e)
    (hlive : e.isFree = false) :
    ∃ v', Volume.giveUp k e v = .ok () v' ∧
      Holds v' (fun j => if j = k then none else v.payload? j) used drawn := by
  obtain ⟨f, old, hgive, hm, _, hu, rfl, hsets, hd⟩ := hs.loose.giveUp_eq hk hlive
  refine ⟨_, hgive, hs.drop hm hu hsets hd ?_ ?_ ?_⟩
  all_goals rw [Toc.markFree, hk]
  · exact hs.ready
  · exact hs.signal
  · rfl

end SlotStore.Volume
