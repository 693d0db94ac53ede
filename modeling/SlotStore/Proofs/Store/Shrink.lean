import Mathlib.Tactic.Common
import SlotStore.Proofs.Volume.Place
import SlotStore.Store.Shrink

/-!
# Copying the live entities

A shrink appends the entity of every live entry to an empty shadow file.  The copy never fails for a
sound volume: every live entity can be read, and the shadow never gets longer than the data region.
The shadow and the list of the copied entries make up a sound volume that holds the same.

* `Volume.Copied` : what a part of the copy has come to;
* `Volume.Copied.step`, `Volume.Copied.run` : one entity, and then all of them;
* `Volume.Copied.sound`, `Volume.Copied.shows_iff` : the complete copy;
* `Volume.Sound.shrink` : the shadow put in the place of the file.
-/

namespace SlotStore.Volume

open Steps

variable {v : Volume} {row grow : Row} {used : List Key} {drawn : Nat} {es : List Entry}
  {g : RecordFile}

/-- **A shadow holds the entities of some entries**, in their order. -/
structure Copied (v : Volume) (row : Row) (es : List Entry) (g : RecordFile) (grow : Row) :
    Prop where
  tiled : g.Tiled grow
  unsealed : g.sealedAt = none
  keys : grow.map (·.2.key) = es.map (·.key)
  inUse : ∀ p ∈ grow, p.2.inUse = true
  origin : ∀ p ∈ grow, ∃ q ∈ row, q.2.inUse = true ∧ q.2.key = p.2.key ∧ q.2.version = p.2.version
  holds : ∀ p ∈ grow, ∃ payload, g.read p.1 = .ok (p.2, payload) ∧
    v.file.Shows row p.2.key payload
  room : g.cursor ≤ Toc.totalSize es

namespace Copied

lemma nil : Copied v row [] (.ofContent .empty) [] where
  tiled := .empty
  unsealed := rfl
  keys := rfl
  inUse _ hp := by cases hp
  origin _ hp := by cases hp
  holds _ hp := by cases hp
  room := Nat.le_refl 0

/-- What a copy comes to when the payload of a slot is appended to the shadow. -/
lemma snoc (hc : Copied v row es g grow) {e : Entry} {o : Nat} {h h' : Header} {payload : Bytes}
    {g' : RecordFile} (hm : (o, h) ∈ row) (hu : h.inUse = true)
    (hread : v.file.read o = .ok (h, payload)) (hentry : h'.key = e.key) (hu' : h'.inUse = true)
    (hkey : h.key = h'.key) (hversion : h.version = h'.version)
    (hsets : RecordFile.Sets g grow g.cursor h' g')
    (hread' : g'.read g.cursor = .ok (h', payload))
    (hroom : g'.cursor ≤ Toc.totalSize (es ++ [e])) :
    Copied v row (es ++ [e]) g' (grow ++ [(g.cursor, h')]) := by
  have hno : ∀ p ∈ grow, p.1 ≠ g.cursor := hc.tiled.fills.offset_ne_stop
  have hput : grow ++ [(g.cursor, h')] = Row.put g.cursor h' grow := (Row.put_eq_append hno).symm
  have hmem : ∀ p ∈ grow ++ [(g.cursor, h')], p = (g.cursor, h') ∨ p ∈ grow := by
    intro p hp
    rcases List.mem_append.mp hp with hp | hp
    · exact Or.inr hp
    · exact Or.inl (List.mem_singleton.mp hp)
  refine {
    tiled := hput ▸ hsets.tiled
    unsealed := hsets.unsealed
    keys := ?_
    inUse := ?_
    origin := ?_
    holds := ?_
    room := hroom }
  · rw [List.map_append, List.map_append, hc.keys]
    exact congrArg (fun k => es.map (·.key) ++ [k]) hentry
  · intro p hp
    rcases hmem p hp with rfl | hp
    · exact hu'
    · exact hc.inUse p hp
  · intro p hp
    rcases hmem p hp with rfl | hp
    · exact ⟨_, hm, hu, hkey, hversion⟩
    · exact hc.origin p hp
  · intro p hp
    rcases hmem p hp with rfl | hp
    · exact ⟨payload, hread', _, hm, hu, hkey, hread⟩
    · obtain ⟨payload', hpread, hshows⟩ := hc.holds p hp
      exact ⟨payload', (hsets.reads p hp (hno p hp)).trans hpread, hshows⟩

/-- **One more entity is copied.** -/
theorem step (hs : Sound v row used drawn) (hc : Copied v row es g grow) {e : Entry}
    (hk : v.toc.find? e.key = some e) (hlive : e.isFree = false)
    (hroom : Toc.totalSize es + e.size < positionLimit) :
    ∃ h g', Store.copyEntry v.file e g = .ok (.ofHeader g.cursor h) g' ∧
      Copied v row (es ++ [e]) g' (grow ++ [(g.cursor, h)]) := by
  obtain ⟨h, payload, hentry, hu, hkey, hm, he, hread⟩ := hs.readEntry hk hlive
  have hlength := hs.tiled.length_of_read hm hread
  have hslot := hs.tiled.length_le_capacity hm
  have hsize : e.size = h.slotSize := by
    rw [he]
    rfl
  have hcap : payload.length < lengthLimit := hlength ▸ h.length.toNat_lt
  have hcursor := hc.room
  obtain ⟨g', happend, hsets, hcursor', _, hread'⟩ := hc.tiled.append ⟨h.key, h.version⟩
    (Nat.le_refl payload.length) hcap (by omega)
  have hslotSize : (Header.ofPayload ⟨h.key, h.version⟩ payload payload.length).slotSize =
      Header.size + payload.length := Header.slotSize_ofPayload hcap
  refine ⟨.ofPayload ⟨h.key, h.version⟩ payload payload.length, g', ?_, ?_⟩
  · have hpure : RecordFile.orFail (Volume.readEntry v.file e) g = .ok (h, payload) g := by
      rw [hentry]
      rfl
    rw [Store.copyEntry, bind_of_ok hpure]
    dsimp only
    rw [bind_of_ok happend, Entry.ofHeader, hslotSize]
    rfl
  · refine hc.snoc hm hu hread hkey rfl rfl rfl hsets hread' ?_
    rw [Toc.totalSize_append, hcursor', Toc.totalSize, Toc.totalSize]
    omega

/-- **A list of live entries is copied**, entity after entity. -/
theorem run (hs : Sound v row used drawn) (rest : List Entry)
    (hlive : ∀ e ∈ rest, v.toc.find? e.key = some e ∧ e.isFree = false)
    (hc : Copied v row es g grow)
    (hroom : Toc.totalSize (es ++ rest) < positionLimit) :
    ∃ g' more, (rest.mapM (Store.copyEntry v.file)) g =
        .ok (more.map fun p => .ofHeader p.1 p.2) g' ∧
      Copied v row (es ++ rest) g' (grow ++ more) := by
  induction rest generalizing es g grow with
  | nil =>
    refine ⟨g, [], rfl, ?_⟩
    rw [List.append_nil, List.append_nil]
    exact hc
  | cons e rest ih =>
    obtain ⟨hk, hfree⟩ := hlive e List.mem_cons_self
    have hsum : Toc.totalSize (es ++ e :: rest) =
        Toc.totalSize es + (e.size + Toc.totalSize rest) := by
      rw [Toc.totalSize_append, Toc.totalSize]
    obtain ⟨h, g₁, hstep, hc₁⟩ := hc.step hs hk hfree (by omega)
    have hsplit : es ++ e :: rest = es ++ [e] ++ rest := by
      rw [List.append_assoc, List.singleton_append]
    rw [hsplit] at hroom ⊢
    obtain ⟨g', more, hrest, hc'⟩ :=
      ih (fun e' he' => hlive e' (List.mem_cons_of_mem e he')) hc₁ hroom
    refine ⟨g', (g.cursor, h) :: more, ?_, ?_⟩
    · rw [List.mapM_cons, bind_of_ok hstep, bind_of_ok hrest]
      rfl
    · rw [List.append_assoc grow, List.singleton_append] at hc'
      exact hc'

/-! ## A copy of all live entities -/

variable {k : Key} {payload : Bytes}

/-- No two slots of a copy have one key. -/
lemma distinct_keys (hc : Copied v row v.toc.activeEntries g grow) :
    grow.Pairwise fun p q => p.2.key ≠ q.2.key := by
  have hentries := List.pairwise_map.mpr v.toc.activeEntries_distinct
  rw [← hc.keys] at hentries
  exact List.pairwise_map.mp hentries

lemma eq_of_key (hc : Copied v row v.toc.activeEntries g grow) {p q : Nat × Header} (hp : p ∈ grow)
    (hq : q ∈ grow) (hkey : p.2.key = q.2.key) : p = q := by
  have hfindp := Keyed.find?_of_mem hc.distinct_keys hp
  rw [hkey, Keyed.find?_of_mem hc.distinct_keys hq] at hfindp
  exact (Option.some.inj hfindp).symm

lemma not_reserved (hs : Sound v row used drawn) (hc : Copied v row es g grow) {p : Nat × Header}
    (hp : p ∈ grow) : p.2.key.isReserved = false := by
  obtain ⟨q, hq, hqu, hqk, _⟩ := hc.origin p hp
  rw [← hqk]
  exact (hs.described.entry (hs.described.find?_of_inUse hq hqu)).1

/-- **The copy is sound** with a table of its own slots. -/
lemma sound (hs : Sound v row used drawn) (hc : Copied v row v.toc.activeEntries g grow) :
    Sound ⟨g, v.toc.replaceAll (grow.map fun p => .ofHeader p.1 p.2)⟩ grow used drawn where
  whole := {
    tiled := hc.tiled
    intact := by
      intro p hp _
      obtain ⟨payload, hread, _⟩ := hc.holds p hp
      exact ⟨payload, hread⟩
    known := by
      intro p hp hr
      obtain ⟨q, hq, _, hqk, _⟩ := hc.origin p hp
      rw [← hqk] at hr ⊢
      exact hs.whole.known q hq hr }
  described := .replaceAll v.toc hc.tiled.fills.single hc.distinct_keys fun _ => hc.not_reserved hs
  ready := hs.ready
  signal := hs.signal
  aged hn := {
    newest := fun o h hm _ => ⟨hc.not_reserved hs hm, fun o' h' hm' hkey hne => by
      have hsame : (o', h') = (o, h) := hc.eq_of_key hm' hm hkey
      exact absurd (Prod.mk.inj hsame).1 hne⟩
    below := by
      intro p hp
      obtain ⟨q, hq, _, _, hqv⟩ := hc.origin p hp
      rw [← hqv]
      exact (hs.aged hn).below q hq
    few := (hs.aged hn).few }
  resumes hsealed := absurd hsealed (RecordFile.not_isSealed hc.unsealed)

/-- The copy shows the entities of the file. -/
lemma shows_iff (hs : Sound v row used drawn) (hc : Copied v row v.toc.activeEntries g grow) :
    g.Shows grow k payload ↔ v.file.Shows row k payload := by
  constructor
  · rintro ⟨p, hp, _, hkey, hread⟩
    obtain ⟨payload', hread', hshows⟩ := hc.holds p hp
    cases hread.symm.trans hread'
    exact hkey ▸ hshows
  · -- What shows has a live entry, so it was copied, and the copy can only show the same.
    intro hshows
    have hold := (payload?_eq_some hs).mpr hshows
    obtain ⟨p, hp, hpu, hpk, _⟩ := hshows
    have hentry : Entry.ofHeader p.1 p.2 ∈ v.toc.activeEntries :=
      hs.described.mem_activeEntries.mpr
        ⟨hs.described.find?_of_inUse hp hpu, congrArg (! ·) hpu⟩
    have hmem : k ∈ grow.map (·.2.key) := by
      rw [hc.keys]
      exact List.mem_map.mpr ⟨_, hentry, hpk⟩
    obtain ⟨q, hq, hqk⟩ := List.mem_map.mp hmem
    obtain ⟨payload', hread, hshows⟩ := hc.holds q hq
    cases hold.symm.trans ((payload?_eq_some hs).mpr (hqk ▸ hshows))
    exact ⟨q, hq, hc.inUse q hq, hqk, hread⟩

end Copied

/-- **The shadow takes the place of the file**: a sound volume is always copied as a whole, and the
copy holds the same. -/
theorem Sound.shrink (hs : Sound v row used drawn) :
    ∃ g copied, Store.copyLive v.file v.toc.activeEntries = .ok (g, copied) ∧
      Holds ⟨{ g with sealedAt := none }, v.toc.replaceAll copied⟩ v.payload? used drawn := by
  have hlive : ∀ e ∈ v.toc.activeEntries, v.toc.find? e.key = some e ∧ e.isFree = false :=
    fun e he => hs.described.mem_activeEntries.mp he
  have hsum := hs.described.totalSize_activeEntries hs.tiled.fills
  have hlt := hs.tiled.cursor_lt
  obtain ⟨g, grow, hrun, hc⟩ := Copied.nil.run hs v.toc.activeEntries hlive
    (by rw [List.nil_append]; omega)
  rw [List.nil_append, List.nil_append] at hc
  have hfile : { g with sealedAt := none } = g := by
    rw [← hc.unsealed]
  refine ⟨g, grow.map fun p => .ofHeader p.1 p.2, ?_, ?_⟩
  · rw [Store.copyLive, EStateM.run, hrun]
  · rw [hfile]
    exact ⟨⟨grow, hc.sound hs⟩, fun k => payload?_congr hs (hc.sound hs) fun _ => hc.shows_iff hs⟩

end SlotStore.Volume
