import Mathlib.Tactic.Common
import SlotStore.Proofs.Volume.Loose
import SlotStore.Proofs.Volume.Persist

/-!
# Slots in use, counted by key

A file may have several slots of one key in use.  Its table then shows one of them, and knows the
others as reusable.  No write adds a slot in use but that of a new key, and giving an entry up takes
one away, so their number for each key can be followed from write to write.

* `Volume.Tally`, `Volume.Tallied` : a bound for each key on its slots in use;
* `Volume.Tallied.enter`, `Volume.Tallied.exchange`, `Volume.Tallied.giveUp` : the writes;
* `Volume.Tallied.persist`, `Volume.Tallied.rescan` : sealing and scanning.
-/

namespace SlotStore

namespace Row

variable {row : Row} {o : Nat} {h old : Header} {k j : Key}

/-- One for the key itself and zero for any other. -/
def once (k j : Key) : Nat := if j = k then 1 else 0

lemma weight_of_inUse (hu : h.inUse = true) (hkey : h.key = k) (j : Key) :
    weight j h = once k j := by
  rw [weight, once, hkey]
  by_cases hj : j = k
  · rw [if_pos ⟨hu, hj.symm⟩, if_pos hj]
  · rw [if_neg fun heq => hj heq.2.symm, if_neg hj]

lemma weight_tombstone (j : Key) (h : Header) : weight j h.tombstone = 0 :=
  if_neg fun hu => by cases hu.1

/-- A slot that is written adds one slot in use of its key at most. -/
lemma uses_write_le (hd : row.Pairwise fun p q => p.1 ≠ q.1) (o : Nat) (hu : h.inUse = true)
    (hkey : h.key = k) (j : Key) : uses j (put o h row) ≤ uses j row + once k j := by
  rw [← weight_of_inUse hu hkey]
  by_cases hex : ∃ p ∈ row, p.1 = o
  · obtain ⟨⟨o', old⟩, hm, rfl⟩ := hex
    have hput := uses_put_of_mem j h hd hm
    exact Nat.le_trans (Nat.le_add_right _ _) (Nat.le_of_eq hput)
  · exact Nat.le_of_eq (uses_put_of_new j h fun p hp hpo => hex ⟨p, hp, hpo⟩)

/-- A slot in use that is written again stays the only change. -/
lemma uses_rewrite (hd : row.Pairwise fun p q => p.1 ≠ q.1) (hm : (o, old) ∈ row)
    (hold : old.inUse = true) (hu : h.inUse = true) (hkey : old.key = h.key) (j : Key) :
    uses j (put o h row) = uses j row := by
  have hput := uses_put_of_mem j h hd hm
  rw [weight_of_inUse hold rfl, weight_of_inUse hu hkey.symm] at hput
  exact Nat.add_right_cancel hput

/-- A slot in use that is marked unused takes one away. -/
lemma uses_tombstone (hd : row.Pairwise fun p q => p.1 ≠ q.1) (hm : (o, old) ∈ row)
    (hold : old.inUse = true) (hkey : old.key = k) (j : Key) :
    uses j (put o old.tombstone row) + once k j = uses j row := by
  have hput := uses_put_of_mem j old.tombstone hd hm
  rwa [weight_of_inUse hold hkey, weight_tombstone] at hput

/-- A row has no slot of the key in use. -/
def Lacks (k : Key) (row : Row) : Prop := ∀ p ∈ row, p.2.inUse = true → p.2.key ≠ k

lemma Lacks.put (hl : Lacks k row) (o : Nat) (hh : h.inUse = true → h.key ≠ k) :
    Lacks k (Row.put o h row) :=
  forall_put (P := fun h => h.inUse = true → h.key ≠ k) hl hh

/-- All keys of a row are among those `used`. -/
def Known (used : List Key) (row : Row) : Prop :=
  ∀ p ∈ row, p.2.key.isReserved = false → p.2.key ∈ used

lemma Known.mono {used' : List Key} (hk : Known used row) (h : ∀ k ∈ used, k ∈ used') :
    Known used' row := fun p hp hr => h _ (hk p hp hr)

lemma Known.put {used : List Key} (hk : Known used row) (o : Nat)
    (hh : h.key.isReserved = false → h.key ∈ used) : Known used (Row.put o h row) :=
  forall_put (P := fun h => h.key.isReserved = false → h.key ∈ used) hk hh

end Row

namespace Volume

open Steps

variable {v : Volume} {row shown : Row} {limit : Key → Int} {gone : Key → Prop} {used : List Key}
  {k : Key} {e : Entry} {payload : Bytes}

/-- **The slots in use of a volume without tail, counted**: each key has at most as many as the
limit says, none of them is shown for a key that is gone, and all keys are among those `used`. -/
structure Tally (v : Volume) (limit : Key → Int) (gone : Key → Prop) (used : List Key)
    (row shown : Row) : Prop where
  loose : Loose v row shown
  unsealed : v.file.sealedAt = none
  few : ∀ k, (row.uses k : Int) ≤ limit k
  gone : ∀ k, gone k → k ∈ used ∧ shown.Lacks k
  known : row.Known used

/-- A volume whose slots in use are counted. -/
def Tallied (v : Volume) (limit : Key → Int) (gone : Key → Prop) (used : List Key) : Prop :=
  ∃ row shown, Tally v limit gone used row shown

lemma Tally.distinct (ht : Tally v limit gone used row shown) :
    row.Pairwise fun p q => p.1 ≠ q.1 := ht.loose.tiled.fills.distinct

lemma Tallied.mono (ht : v.Tallied limit gone used) {limit' : Key → Int} {gone' : Key → Prop}
    {used' : List Key} (hlimit : ∀ k, limit k ≤ limit' k) (hgone : ∀ k, gone' k → gone k)
    (hused : ∀ k ∈ used, k ∈ used') : v.Tallied limit' gone' used' := by
  obtain ⟨row, shown, ht⟩ := ht
  exact ⟨row, shown, ht.loose, ht.unsealed, fun k => Int.le_trans (ht.few k) (hlimit k),
    fun k hk => ⟨hused k (ht.gone k (hgone k hk)).1, (ht.gone k (hgone k hk)).2⟩,
    ht.known.mono hused⟩

/-- **A key without slots in use has no live entry**, and neither has one that is gone. -/
lemma Tallied.not_live (ht : v.Tallied limit gone used) (hk : limit k ≤ 0 ∨ gone k) {e : Entry}
    (hentry : v.toc.find? k = some e) : e.isFree = true := by
  obtain ⟨row, shown, ht⟩ := ht
  by_contra hlive
  obtain ⟨h, hshown, hm, hu, hkey, _⟩ := ht.loose.slot hentry (Bool.eq_false_iff.mpr hlive)
  rcases hk with hk | hk
  · have hfew := ht.few k
    exact Row.uses_eq_zero.mp (by omega) _ hm hu hkey
  · exact (ht.gone k hk).2 _ hshown hu hkey

/-- What a write that found no room leaves. -/
lemma Tally.left (ht : Tally v limit gone used row shown) {f : RecordFile}
    (hleft : Left v.file row f) : Tallied ⟨f, v.draw.toc⟩ limit gone used := by
  have hu : f.sealedAt = none := by
    rcases hleft with rfl | ⟨_, hu⟩
    · exact ht.unsealed
    · exact hu
  exact ⟨row, shown, ht.loose.left hleft, hu, ht.few, ht.gone, ht.known⟩

/-- **A payload is entered under a key that nobody used**, which then has one more slot in use. -/
theorem Tallied.enter (ht : v.Tallied limit gone used) (hr : k.isReserved = false)
    (hfresh : k ∉ used) (payload : Bytes) :
    (∃ v', Volume.enter k payload v = .ok () v' ∧
      v'.Tallied (fun j => limit j + Row.once k j) gone (k :: used)) ∨
    ∃ err v', Volume.enter k payload v = .error err v' ∧ v'.Tallied limit gone used := by
  obtain ⟨row, shown, ht⟩ := ht
  have hnone := ht.loose.find?_eq_none hr fun p hp hpr heq => hfresh (heq ▸ ht.known p hp hpr)
  rcases ht.loose.entered hr hnone payload with
    ⟨o, h, v', henter, hu, hkey, hunsealed, hloose⟩ | ⟨err, f, henter, hleft⟩
  · refine Or.inl ⟨_, henter, _, _, {
      loose := hloose
      unsealed := hunsealed
      few := fun j => ?_
      gone := fun j hj => ⟨List.mem_cons_of_mem k (ht.gone j hj).1,
        (ht.gone j hj).2.put o fun _ heq => hfresh (hkey ▸ heq ▸ (ht.gone j hj).1)⟩
      known := (ht.known.mono fun j => List.mem_cons_of_mem k).put o fun _ =>
        hkey ▸ List.mem_cons_self }⟩
    have hwrite := Row.uses_write_le ht.distinct o hu hkey j
    have hfew := ht.few j
    omega
  · exact Or.inr ⟨err, _, henter, ht.left hleft⟩

/-- **The payload of a live entry is exchanged**, or not for want of room; either way no key has
more slots in use than before. -/
theorem Tallied.exchange (ht : v.Tallied limit gone used) (hk : v.toc.find? k = some e)
    (hlive : e.isFree = false) (payload : Bytes) :
    ∃ v', (Volume.exchange k e payload v = .ok () v' ∨
        ∃ err, Volume.exchange k e payload v = .error err v') ∧ v'.Tallied limit gone used := by
  obtain ⟨row, shown, ht⟩ := ht
  obtain ⟨own, hshown, hm, hu, hkey, hr, _⟩ := ht.loose.slot hk hlive
  have hknown : k ∈ used := hkey ▸ ht.known _ hm (hkey.symm ▸ hr)
  have hstays : ∀ j, gone j → k ≠ j := fun j hj heq => (ht.gone j hj).2 _ hshown hu (hkey.trans heq)
  rcases ht.loose.exchanged hk hlive payload with
    ⟨h, v', hexchange, hhu, hhkey, hunsealed, hloose⟩ |
    ⟨o, h, old, v', hexchange, hhu, hhkey, hne, holdm, holdu, holdkey, hd, hunsealed, hloose⟩ |
    ⟨err, f, hexchange, hleft⟩
  · refine ⟨_, Or.inl hexchange, _, _, {
      loose := hloose
      unsealed := hunsealed
      few := fun j => ?_
      gone := fun j hj => ⟨(ht.gone j hj).1, (ht.gone j hj).2.put _ fun _ => hhkey ▸ hstays j hj⟩
      known := ht.known.put _ fun _ => hhkey ▸ hknown }⟩
    rw [Row.uses_rewrite ht.distinct hm hu hhu (hkey.trans hhkey.symm)]
    exact ht.few j
  · refine ⟨_, Or.inl hexchange, _, _, {
      loose := hloose
      unsealed := hunsealed
      few := fun j => ?_
      gone := fun j hj => ⟨(ht.gone j hj).1,
        ((ht.gone j hj).2.put _ fun _ => hhkey ▸ hstays j hj).put _ fun hu => by cases hu⟩
      known := (ht.known.put _ fun _ => hhkey ▸ hknown).put _ (ht.known (e.offset, old) holdm) }⟩
    -- The key has one slot in use more, and then one less.
    have hwrite := Row.uses_write_le ht.distinct o hhu hhkey j
    have htomb := Row.uses_tombstone hd (Row.mem_put.mpr (Or.inr ⟨holdm, hne⟩)) holdu holdkey j
    have hfew := ht.few j
    omega
  · exact ⟨_, Or.inr ⟨err, hexchange⟩, ht.left hleft⟩

/-- **A live entry is given up**: its key has one slot in use less, and is gone. -/
theorem Tallied.giveUp (ht : v.Tallied limit gone used) (hk : v.toc.find? k = some e)
    (hlive : e.isFree = false) : ∃ v', Volume.giveUp k e v = .ok () v' ∧
      v'.Tallied (fun j => limit j - Row.once k j) (fun j => j = k ∨ gone j) used := by
  obtain ⟨row, shown, ht⟩ := ht
  obtain ⟨old, v', hgive, hm, hu, hkey, hunsealed, hloose⟩ := ht.loose.givenUp hk hlive
  have hr := (ht.loose.described.entry hk).1
  refine ⟨_, hgive, _, _, {
    loose := hloose
    unsealed := hunsealed
    few := fun j => ?_
    gone := fun j hj => ?_
    known := ht.known.put _ (ht.known (e.offset, old) hm) }⟩
  · have htomb := Row.uses_tombstone ht.distinct hm hu hkey j
    have hfew := ht.few j
    omega
  · rcases hj with rfl | hj
    · refine ⟨hkey ▸ ht.known _ hm (hkey.symm ▸ hr), fun p hp' hpu hpk => ?_⟩
      rcases Row.mem_put.mp hp' with rfl | ⟨hp', hne⟩
      · cases hpu
      · -- The slot given up was the only one of its key that was shown in use.
        have hown := ht.loose.described.find?_of_inUse (o := p.1) (h := p.2) hp' hpu
        rw [hpk, hk] at hown
        exact hne (congrArg Entry.offset (Option.some.inj hown)).symm
    · exact ⟨(ht.gone j hj).1, (ht.gone j hj).2.put _ fun hu => by cases hu⟩

/-! ## Sealing and scanning -/

/-- Where the regions of a loose volume can be. -/
lemma Loose.fits (hl : Loose v row shown) : ∀ e ∈ v.toc.regions, e.Fits := by
  intro e he
  have hlt := hl.tiled.cursor_lt
  have hspan : positionLimit ≤ Bytes.span 8 := by decide
  have hx : (e.offset, e.size) ∈ shown.extents :=
    (hl.described.mem_extents _).mp (List.mem_map.mpr ⟨e, he, rfl⟩)
  obtain ⟨⟨o, h⟩, hm, heq⟩ := List.mem_map.mp hx
  obtain ⟨ho, hs⟩ := Prod.mk.inj heq
  obtain ⟨h', hm', hsame⟩ := hl.veils.slotSize hm
  have hb := hl.tiled.bounds hm'
  have ho : o = e.offset := ho
  have hs : h.slotSize = e.size := hs
  exact ⟨by omega, by omega⟩

/-- **A file that was sealed presents a table**, and one that could not be sealed has no tail. -/
theorem Tallied.persist (ht : v.Tallied limit gone used) :
    (∃ start v', Volume.persist v = .ok start v' ∧ ¬ Bare v'.file.content) ∨
    ∃ err v', Volume.persist v = .error err v' ∧ v'.Tallied limit gone used := by
  obtain ⟨row, shown, ht⟩ := ht
  have hl := ht.loose
  rcases hl.tiled.sealWith ⟨Key.reserved, v.toc.nextVersion⟩ v.snapshot with
    ⟨f, hok, _⟩ | ⟨_, err, f, herr, hkeeps, hu⟩
  · have hpersist : Volume.persist v = .ok v.file.cursor { v with file := f } := by
      rw [persist_eq hl.ready]
      exact onFile_ok hok
    obtain ⟨hs, _, hv'⟩ := persist_eq_ok_iff.mp hpersist
    refine Or.inl ⟨_, _, hpersist, fun hbare => ?_⟩
    rw [hv'] at hbare
    have hspan : positionLimit ≤ Bytes.span 8 := by decide
    have hlt := hl.tiled.cursor_lt
    exact hbare _ _ ((endsIn_sealedFile hs).presents rfl (fits_snapshot hl.fits (by omega)) rfl rfl)
  · refine Or.inr ⟨err, { v with file := f }, ?_, row, shown, ?_⟩
    · rw [persist_eq hl.ready]
      exact onFile_error herr
    · exact ⟨⟨hkeeps.tiled, hl.described, hl.veils, hl.ready, hl.signal⟩, hu, ht.few, ht.gone,
        ht.known⟩

/-- **A file of slots is scanned**, whatever slots they are: the table shows those in use that are
the newest of their keys. -/
theorem tallied_scan {c : Content} {stop : Nat} (hf : Row.Fills c 0 row stop) (hr : c.Ragged stop)
    (hpos : stop < positionLimit) (hfew : ∀ k, (row.uses k : Int) ≤ limit k)
    (hknown : row.Known used) :
    ∃ v, Volume.runRebuild c.size ⟨.ofContent c, .unfinished⟩ = .ok () v ∧
      v.toc.signal = .succeeded ∧ v.Tallied limit (fun _ => False) used := by
  have hdistinct : (([] : Row) ++ row).Pairwise fun p q => p.1 ≠ q.1 := hf.distinct
  obtain ⟨shown, hd, hv⟩ := Toc.Describes.empty.mergeAll_veiled (.refl []) hdistinct
  obtain ⟨hready, hsignal⟩ := scannedToc_finished row
  have hfile : RecordFile.Tiled ⟨c.resize stop, stop, none⟩ row := by
    refine ⟨hf.congr (c.agrees_resize 0 (Nat.le_refl stop)).symm, .clean rfl ?_, ?_⟩
    · exact Content.size_resize _ _
    · rw [Content.size_resize]
      exact hpos
  refine ⟨_, runRebuild_fills hf hr hpos, hsignal, row, shown, {
    loose := ⟨hfile, hd.congr ⟨fun _ => rfl, fun _ => rfl⟩ fun _ => Iff.rfl, hv, hready, hsignal⟩
    unsealed := rfl
    few := hfew
    gone := fun _ hk => hk.elim
    known := hknown }⟩

/-- **The slots of a counted volume are scanned** when its file is opened again. -/
theorem Tallied.rescan (ht : v.Tallied limit gone used) :
    ∃ v', Volume.runRebuild v.file.content.size ⟨.ofContent v.file.content, .unfinished⟩ =
        .ok () v' ∧ v'.toc.signal = .succeeded ∧ v'.Tallied limit (fun _ => False) used := by
  obtain ⟨row, shown, ht⟩ := ht
  have htiled := ht.loose.tiled
  exact tallied_scan htiled.fills (htiled.ragged ht.unsealed) htiled.cursor_lt ht.few ht.known

end Volume

end SlotStore
