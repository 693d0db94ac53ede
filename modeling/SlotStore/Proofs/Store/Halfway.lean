import Mathlib.Tactic.Common
import SlotStore.Proofs.Store.Layout
import SlotStore.Proofs.Store.Resting

/-!
# Asking while the table is rebuilt

A scan merges one slot after another, and a store answers about a key as soon as it has come to a
slot of it.  The slot may be an older one than another that is still to come.  A live entity is
never taken back; an absent one may turn out to be alive, where it was moved and the slot that it
left comes first.

* `Row.Overrules` : the slot to come that takes the place of an entry;
* `Volume.find?_merged` : the entry of a key after the rest of a scan;
* `Volume.scan_passes` : the tables that a scan passes through;
* `Store.Foresees`, `Store.foresees` : what is said of a key half way, and in the end;
* `Store.live?_kept`, `Store.absent_stays` : files that a store has written;
* `Run.answers_halfway` : all of it together, for every run;
* `Run.answers_halfway_moved` : an entity that was moved is said to be absent.
-/

namespace SlotStore

/-- **A slot to come overrules an entry**: it is the newest of them of its key, and newer than the
entry. -/
structure Row.Overrules (rest : Row) (e : Entry) (q : Nat × Header) : Prop where
  mem : q ∈ rest
  key : q.2.key = e.key
  newer : e.version < q.2.version
  newest : ∀ p ∈ rest, p.2.key = e.key → p.2.version ≤ q.2.version

/-- **Slots of a row of one key and version** are in use together. -/
def Row.Uniform (row : Row) : Prop :=
  ∀ p ∈ row, ∀ q ∈ row, p.2.key = q.2.key → p.2.version = q.2.version → p.2.inUse = q.2.inUse

namespace Row

variable {row rest : Row} {p q : Nat × Header} {e : Entry}

/-- Slots at one position are one. -/
lemma Single.header_eq (hs : row.Single) (hp : p ∈ row) (hq : q ∈ row) (hplace : p.1 = q.1) :
    p.2 = q.2 := by
  obtain ⟨o, h⟩ := p
  obtain ⟨o', h'⟩ := q
  cases hplace
  exact hs hp hq

/-- Slots of which those in use are the newest of their keys are uniform. -/
lemma Newest.uniform (hn : row.Newest) (hs : row.Single) : row.Uniform := by
  have hup : ∀ p ∈ row, ∀ q ∈ row, p.2.key = q.2.key → p.2.version = q.2.version →
      p.2.inUse = true → q.2.inUse = true := by
    intro p hp q hq hkey hversion hu
    by_cases hplace : q.1 = p.1
    · rw [hs.header_eq hq hp hplace]
      exact hu
    · have hlt := (hn hp hu).2 hq hkey.symm hplace
      rw [hversion] at hlt
      exact absurd hlt (UInt32.lt_irrefl _)
  intro p hp q hq hkey hversion
  exact Bool.eq_iff_iff.mpr ⟨hup p hp q hq hkey hversion, hup q hq p hp hkey.symm hversion.symm⟩

lemma Uniform.mono {row' : Row} (hu : row.Uniform) (hsub : ∀ p ∈ row', p ∈ row) : row'.Uniform :=
  fun p hp q hq => hu p (hsub p hp) q (hsub q hq)

/-- Slots that overrule one entry have one version, so they are in use together. -/
lemma Overrules.inUse_eq (hp : rest.Overrules e p) (hq : rest.Overrules e q) (hu : rest.Uniform) :
    p.2.inUse = q.2.inUse := by
  have hversion : p.2.version = q.2.version :=
    UInt32.le_antisymm (hq.newest p hp.mem hp.key) (hp.newest q hq.mem hq.key)
  exact hu p hp.mem q hq.mem (hp.key.trans hq.key.symm) hversion

end Row

/-- An entry was made from a slot of a row. -/
structure Entry.Of (row : Row) (e : Entry) (p : Nat × Header) : Prop where
  mem : p ∈ row
  offset : p.1 = e.offset
  key : p.2.key = e.key
  version : p.2.version = e.version
  live : e.isFree = false → p.2.inUse = true

namespace Toc

variable {t : Toc} {e a : Entry} {k : Key} {row : Row}

/-- What merging a slot of another place does to the entry of a key. -/
lemma find?_merge (hk : t.find? k = some e) (hnamed : k.isReserved = false)
    (hplace : e.offset ≠ a.offset) :
    (t.merge a).find? k = some (if a.key = k ∧ e.version < a.version then a else e) := by
  by_cases hkey : a.key = k
  · subst hkey
    rw [merge, if_neg (Bool.eq_false_iff.mp hnamed), hk]
    dsimp only
    rw [if_neg hplace]
    by_cases hnewer : e.version < a.version
    · rw [if_pos hnewer, if_pos ⟨rfl, hnewer⟩, find?_retire, find?_putEntry, if_pos rfl]
    · rw [if_neg hnewer, if_neg (fun h => hnewer h.2), find?_retire, hk]
  · have hother : (t.putEntry a).find? k = t.find? k := by
      rw [find?_putEntry, if_neg (Ne.symm hkey)]
    rw [if_neg (fun h => hkey h.1), ← hk, merge]
    split
    · exact find?_retire a t k
    · split
      · exact hother
      · split_ifs
        · rfl
        · exact hother
        · rfl

lemma find?_merge_reserved (hnone : t.find? .reserved = none) (a : Entry) :
    (t.merge a).find? .reserved = none := by
  rw [merge]
  split
  · exact hnone
  · rename_i hnamed
    have hother : (t.putEntry a).find? .reserved = none := by
      rw [find?_putEntry, if_neg fun h => hnamed (decide_eq_true h.symm), hnone]
    split
    · exact hother
    · split_ifs
      · exact hnone
      · exact hother
      · exact hnone

end Toc

namespace Volume

variable {t : Toc} {e : Entry} {k : Key} {row rest : Row}

/-- **The entry of a key after the rest of a scan** is the one that was there, unless a slot to come
overrules it. -/
theorem find?_merged (hk : t.find? k = some e) (hnamed : k.isReserved = false)
    (hplaces : ∀ q ∈ rest, e.offset ≠ q.1) (hrest : rest.Pairwise fun p q => p.1 ≠ q.1) :
    ((merged rest t).find? k = some e ∧ ∀ q ∈ rest, q.2.key = e.key → q.2.version ≤ e.version) ∨
      ∃ q, rest.Overrules e q ∧ (merged rest t).find? k = some (.ofHeader q.1 q.2) := by
  induction rest generalizing t e with
  | nil => exact Or.inl ⟨hk, fun _ hq => nomatch hq⟩
  | cons p rest ih =>
    obtain ⟨hplace, hplaces⟩ := List.forall_mem_cons.mp hplaces
    obtain ⟨hdistinct, hrest⟩ := List.pairwise_cons.mp hrest
    have hkey := Toc.key_of_find? hk
    have hstep : (t.merge (.ofHeader p.1 p.2)).find? k =
        some (if p.2.key = k ∧ e.version < p.2.version then .ofHeader p.1 p.2 else e) :=
      Toc.find?_merge hk hnamed hplace
    by_cases hnewer : p.2.key = k ∧ e.version < p.2.version
    · rw [if_pos hnewer] at hstep
      have hpkey : p.2.key = e.key := hnewer.1.trans hkey.symm
      rcases ih hstep hdistinct hrest with ⟨hfind, hle⟩ | ⟨q, hq, hfind⟩
      · refine Or.inr ⟨p, ⟨List.mem_cons_self, hpkey, hnewer.2, ?_⟩, hfind⟩
        refine List.forall_mem_cons.mpr ⟨fun _ => UInt32.le_refl _, fun q hq hqkey => ?_⟩
        exact hle q hq (hqkey.trans hpkey.symm)
      · have hqnewer : p.2.version < q.2.version := hq.newer
        refine Or.inr ⟨q, ⟨List.mem_cons_of_mem p hq.mem, hq.key.trans hpkey,
          UInt32.lt_trans hnewer.2 hqnewer, ?_⟩, hfind⟩
        refine List.forall_mem_cons.mpr ⟨fun _ => UInt32.le_of_lt hqnewer, fun q' hq' hqkey => ?_⟩
        exact hq.newest q' hq' (hqkey.trans hpkey.symm)
    · rw [if_neg hnewer] at hstep
      have hold : p.2.key = e.key → p.2.version ≤ e.version := fun h =>
        UInt32.not_lt.mp fun hlt => hnewer ⟨h.trans hkey, hlt⟩
      rcases ih hstep hplaces hrest with ⟨hfind, hle⟩ | ⟨q, hq, hfind⟩
      · exact Or.inl ⟨hfind, List.forall_mem_cons.mpr ⟨hold, hle⟩⟩
      · refine Or.inr ⟨q, ⟨List.mem_cons_of_mem p hq.mem, hq.key, hq.newer, ?_⟩, hfind⟩
        refine List.forall_mem_cons.mpr ⟨fun h => ?_, hq.newest⟩
        exact UInt32.le_trans (hold h) (UInt32.le_of_lt hq.newer)

lemma find?_merged_reserved (hnone : t.find? .reserved = none) (row : Row) :
    (merged row t).find? .reserved = none := by
  induction row generalizing t with
  | nil => exact hnone
  | cons p rest ih => exact ih (Toc.find?_merge_reserved hnone _)

/-- Every region of a table that is being rebuilt was made from a slot. -/
lemma regions_merged (htoc : ∀ e ∈ t.regions, ∃ p, e.Of row p) (hrest : ∀ q ∈ rest, q ∈ row) :
    ∀ e ∈ (merged rest t).regions, ∃ p, e.Of row p := by
  induction rest generalizing t with
  | nil => exact htoc
  | cons q rest ih =>
    obtain ⟨hq, hrest⟩ := List.forall_mem_cons.mp hrest
    refine ih (Toc.forall_regions_merge ?_ htoc ⟨q, hq, rfl, rfl, rfl, ?_⟩) hrest
    · rintro e ⟨p, hp⟩
      exact ⟨p, hp.mem, hp.offset, hp.key, hp.version, fun h => nomatch h⟩
    · exact fun hlive => by simpa [Entry.ofHeader] using hlive

/-- **A scan passes through the tables of the slots seen so far**, and goes on with the others. -/
theorem scan_passes {f : RecordFile} {seen : Row} (ht : f.Tiled (seen ++ rest)) :
    ∃ fuel, f.scan 0 f.cursor scanned (.unfinished, 0) =
      f.scanFrom f.cursor scanned fuel ((ScanSummary.start 0).across seen)
        (merged seen .unfinished, highest seen 0) := by
  have htake : ∀ o h state, scanned o h state = .ok (takeIn o h state) := fun _ _ _ => rfl
  obtain ⟨middle, hseen, hrest⟩ := ht.fills.split
  have hlength := hseen.length_le
  have hmiddle := hrest.le
  have hsize := ht.cursor_le
  have hpos := ht.cursor_lt
  obtain ⟨fuel, hfuel⟩ := Nat.exists_eq_add_of_le (show seen.length ≤ f.cursor - 0 + 1 by omega)
  have hvisit := Row.gatherM_eq_ok htake seen (.unfinished, 0)
  rw [gather_takeIn] at hvisit
  refine ⟨fuel, ?_⟩
  rw [RecordFile.scan, hfuel]
  exact (RecordFile.scanFrom_row fuel (.start 0) hseen hvisit hmiddle (by omega) (by omega)).1

end Volume

namespace Store

open Steps Volume

variable {s : Store} {f : RecordFile} {seen rest : Row} {k : Key} {e : Entry}

/-- A store whose table a scan has come half way with. -/
def halfway (s : Store) (f : RecordFile) (seen : Row) : Store :=
  { s with volume := ⟨f, merged seen .unfinished⟩ }

/-- The store when the scan has ended. -/
def rescanned (s : Store) (f : RecordFile) : Store :=
  { s with volume := final (runRebuild f.cursor ⟨f, .unfinished⟩) }

/-- **What is said of a key half way**, and in the end. -/
structure Foresees (u w : Store) (rest : Row) (k : Key) (p : Patience) : Prop where
  /-- A key with an entry is answered at once. -/
  told : ∀ e, u.toc.find? k = some e → lookup k p u = .ok (some (u.live? k)) u
  /-- A key without an entry has to wait. -/
  untold : k.isReserved = false → u.toc.find? k = none →
    lookup k p u = .ok none u ∨ lookup k p u = .error .cancelled u
  whole : lookup k p w = .ok (some (w.live? k)) w
  /-- Both times the entity is alive, or both times it is not, unless a slot to come says
  otherwise. -/
  agrees : ∀ e, u.toc.find? k = some e →
    ((w.live? k).isSome = (u.live? k).isSome ↔ ∀ q, rest.Overrules e q → q.2.inUse = !e.isFree)

/-- The table after a scan of the whole file. -/
lemma toc_rescanned {row : Row} (ht : f.Tiled row) (s : Store) :
    (s.rescanned f).toc = (scannedToc row).finish (.ok ()) := by
  rw [rescanned, runRebuild_eq (rebuild_of_tiled ht)]
  rfl

/-- The table after a scan shows what merging the slots shows. -/
lemma find?_rescanned {row : Row} (ht : f.Tiled row) (s : Store) (k : Key) :
    (s.rescanned f).toc.find? k = (merged row .unfinished).find? k := by
  rw [toc_rescanned ht]
  rfl

lemma live?_of_find? (h : s.toc.find? k = some e) : (s.live? k).isSome = !e.isFree := by
  rw [live?, h, Option.filter_some]
  cases e.isFree <;> rfl

/-! ## Half way -/

/-- **A key with an entry is answered at once.** -/
lemma lookup_told (hnamed : k.isReserved = false) (h : s.toc.find? k = some e) (p : Patience) :
    lookup k p s = .ok (some (s.live? k)) s := by
  have hlooked : s.looked k p = .ok (some (s.live? k)) := by
    rw [looked, if_neg (Bool.eq_false_iff.mp hnamed), h]
    exact if_pos (Or.inl rfl)
  rw [lookup_eq, hlooked]
  rfl

/-- **A key without one waits** while the table is not ready. -/
lemma lookup_untold (hnamed : k.isReserved = false) (h : s.toc.find? k = none)
    (hready : s.toc.ready = false) (hsignal : s.toc.signal = .pending) (p : Patience) :
    lookup k p s = .ok none s ∨ lookup k p s = .error .cancelled s := by
  have hlooked : s.looked k p =
      (s.awaited p).map fun b => if b then some (s.live? k) else none := by
    rw [looked, if_neg (Bool.eq_false_iff.mp hnamed), h, hready]
    exact if_neg (by rintro (h | h) <;> cases h)
  have hawaited : s.awaited p = .ok false ∨ s.awaited p = .error .cancelled := by
    rw [awaited, if_neg (Bool.eq_false_iff.mp hready), hsignal]
    split_ifs
    · exact Or.inr rfl
    · exact Or.inl rfl
    · exact Or.inl rfl
  rw [lookup_eq, hlooked]
  rcases hawaited with h | h <;> rw [h]
  · exact Or.inl rfl
  · exact Or.inr rfl

/-- Where the entry of a key comes from. -/
lemma of_halfway (h : (s.halfway f seen).toc.find? k = some e) :
    k.isReserved = false ∧ ∃ p, e.Of seen p := by
  refine ⟨Bool.eq_false_iff.mpr fun hk => ?_, ?_⟩
  · rw [of_decide_eq_true hk] at h
    cases (find?_merged_reserved rfl seen).symm.trans h
  · have hmem : e ∈ (merged seen .unfinished).regions :=
      Toc.mem_regions.mpr (Or.inl ((Toc.key_of_find? h).symm ▸ h))
    have hnew : ∀ e ∈ Toc.unfinished.regions, ∃ p, e.Of seen p := fun _ he => nomatch he
    exact regions_merged hnew (fun _ hq => hq) e hmem

/-- **The entry of a key in the end** is the one from half way, unless a slot to come overrules
it. -/
lemma find?_of_halfway (ht : f.Tiled (seen ++ rest)) (h : (s.halfway f seen).toc.find? k = some e) :
    ((s.rescanned f).toc.find? k = some e ∧ ∀ q ∈ rest, q.2.key = e.key → q.2.version ≤ e.version) ∨
      ∃ q, rest.Overrules e q ∧ (s.rescanned f).toc.find? k = some (.ofHeader q.1 q.2) := by
  obtain ⟨hnamed, p, hp⟩ := of_halfway h
  obtain ⟨_, hrest, happart⟩ := List.pairwise_append.mp ht.fills.distinct
  have hplaces : ∀ q ∈ rest, e.offset ≠ q.1 := fun q hq => hp.offset ▸ happart p hp.mem q hq
  rw [find?_rescanned ht, merged, List.foldl_append]
  exact find?_merged h hnamed hplaces hrest

/-- Both answers agree exactly if the slots to come that overrule the entry say the same. -/
lemma agrees_iff (ht : f.Tiled (seen ++ rest)) (hu : (seen ++ rest).Uniform)
    (h : (s.halfway f seen).toc.find? k = some e) :
    ((s.rescanned f).live? k).isSome = (!e.isFree) ↔
      ∀ q, rest.Overrules e q → q.2.inUse = !e.isFree := by
  rcases find?_of_halfway ht h with ⟨hfind, hle⟩ | ⟨q, hq, hfind⟩
  · rw [live?_of_find? hfind]
    refine iff_of_true rfl fun q hq => ?_
    exact absurd hq.newer (UInt32.not_lt.mpr (hle q hq.mem hq.key))
  · have hlive : ((s.rescanned f).live? k).isSome = q.2.inUse := by
      rw [live?_of_find? hfind]
      exact Bool.not_not q.2.inUse
    rw [hlive]
    have hrest : rest.Uniform := hu.mono fun _ => List.mem_append_right seen
    refine ⟨fun hsame q' hq' => ?_, fun hall => hall q hq⟩
    rw [hq'.inUse_eq hq hrest, hsame]

/-- **What a store says of a key half way**, on any file of slots of which those of one key and
version are in use together. -/
theorem foresees (ht : f.Tiled (seen ++ rest)) (hu : (seen ++ rest).Uniform) (s : Store) (k : Key)
    (p : Patience) : (s.halfway f seen).Foresees (s.rescanned f) rest k p where
  told e he := lookup_told (of_halfway he).1 he p
  untold hnamed hnone := by
    obtain ⟨_, hready, hsignal⟩ := merged_fields seen .unfinished
    exact lookup_untold hnamed hnone hready hsignal p
  whole := by
    refine lookup_ready ?_ fun hk => ?_
    · rw [toc_rescanned ht]
      exact (scannedToc_finished _).1
    · rw [find?_rescanned ht, of_decide_eq_true hk]
      exact find?_merged_reserved rfl _
  agrees e he := by
    rw [live?_of_find? he]
    exact agrees_iff ht hu he

/-! ## Files that a store has written -/

/-- A slot in use that is still to come overrules an entry of its key. -/
lemma overrules_of_inUse (ht : f.Tiled (seen ++ rest)) (hn : (seen ++ rest).Newest)
    {p q : Nat × Header} (hp : e.Of seen p) (hq : q ∈ rest) (hkey : q.2.key = e.key)
    (hu : q.2.inUse = true) : rest.Overrules e q := by
  have hnewest := (hn (List.mem_append_right seen hq) hu).2
  have happart := (List.pairwise_append.mp ht.fills.distinct).2.2
  refine ⟨hq, hkey, ?_, fun q' hq' hkey' => ?_⟩
  · rw [← hp.version]
    exact hnewest (List.mem_append_left rest hp.mem) (hp.key.trans hkey.symm)
      (happart p hp.mem q hq)
  · have hmem' := List.mem_append_right seen hq'
    by_cases hplace : q'.1 = q.1
    · have hsame := ht.fills.single.header_eq hmem' (List.mem_append_right seen hq) hplace
      exact UInt32.le_of_eq (congrArg Header.version hsame)
    · exact UInt32.le_of_lt (hnewest hmem' (hkey'.trans hkey.symm) hplace)

/-- Nothing overrules a live entry. -/
lemma not_overrules_live (ht : f.Tiled (seen ++ rest)) (hn : (seen ++ rest).Newest)
    {p q : Nat × Header} (hp : e.Of seen p) (hlive : e.isFree = false) : ¬ rest.Overrules e q := by
  intro hq
  have hnewest := (hn (List.mem_append_left rest hp.mem) (hp.live hlive)).2
  have happart := (List.pairwise_append.mp ht.fills.distinct).2.2
  have hlt := hnewest (List.mem_append_right seen hq.mem) (hq.key.trans hp.key.symm)
    (Ne.symm (happart p hp.mem q hq.mem))
  rw [hp.version] at hlt
  exact UInt32.lt_asymm hlt hq.newer

/-- **A live entity is never taken back.** -/
theorem live?_kept (ht : f.Tiled (seen ++ rest)) (hn : (seen ++ rest).Newest)
    (h : (s.halfway f seen).live? k = some e) : (s.rescanned f).live? k = some e := by
  obtain ⟨hfind, hlive⟩ := Option.filter_eq_some_iff.mp h
  have hlive' : e.isFree = false := by simpa using hlive
  obtain ⟨_, p, hp⟩ := of_halfway hfind
  rcases find?_of_halfway ht hfind with ⟨hfind, _⟩ | ⟨q, hq, _⟩
  · exact Option.filter_eq_some_iff.mpr ⟨hfind, hlive⟩
  · exact absurd hq (not_overrules_live ht hn hp hlive')

/-- **An absent entity stays absent** exactly if no slot in use of its key is still to come. -/
theorem absent_stays (ht : f.Tiled (seen ++ rest)) (hn : (seen ++ rest).Newest)
    (h : (s.halfway f seen).toc.find? k = some e) (hfree : e.isFree = true) :
    (s.rescanned f).live? k = none ↔ ∀ q ∈ rest, q.2.key = k → q.2.inUse = false := by
  obtain ⟨_, p, hp⟩ := of_halfway h
  have hkey := Toc.key_of_find? h
  have hagrees := agrees_iff ht (hn.uniform ht.fills.single) h
  rw [hfree, Bool.not_true, Option.isSome_eq_false_iff, Option.isNone_iff_eq_none] at hagrees
  rw [hagrees]
  refine ⟨fun hall q hq hqkey => Bool.eq_false_iff.mpr fun hu => ?_, fun hall q hq => ?_⟩
  · have hover := overrules_of_inUse ht hn hp hq (hqkey.trans hkey.symm) hu
    exact absurd hu (Bool.eq_false_iff.mp (hall q hover))
  · exact hall q hq.mem (hq.key.trans hkey)

/-- **What a store says of a key half way through the rebuild of a file that a store has written**,
and in the end. -/
structure Midway (s : Store) (f : RecordFile) (seen rest : Row) (k : Key) (p : Patience) : Prop
    extends (s.halfway f seen).Foresees (s.rescanned f) rest k p where
  /-- The scan of the whole file comes past this table. -/
  passes : ∃ fuel, f.scan 0 f.cursor scanned (.unfinished, 0) =
    f.scanFrom f.cursor scanned fuel ((ScanSummary.start 0).across seen)
      ((s.halfway f seen).toc, highest seen 0)
  kept : ∀ e, (s.halfway f seen).live? k = some e → (s.rescanned f).live? k = some e
  stays : ∀ e, (s.halfway f seen).toc.find? k = some e → e.isFree = true →
    ((s.rescanned f).live? k = none ↔ ∀ q ∈ rest, q.2.key = k → q.2.inUse = false)

/-- **Half of a scan** tells what it has seen. -/
lemma midway (ht : f.Tiled (seen ++ rest)) (hn : (seen ++ rest).Newest) (s : Store) (k : Key)
    (p : Patience) : s.Midway f seen rest k p :=
  { foresees ht (hn.uniform ht.fills.single) s k p with
    passes := scan_passes ht
    kept := fun _ he => live?_kept ht hn he
    stays := fun _ he hfree => absent_stays ht hn he hfree }

end Store

section Runs

open Store

variable {α : Type} {c : Coding α} {h : List (Event α)} {s : Store}

/-- **Asking while the table is rebuilt** of a file that a store has written.  Whatever slots the
scan has seen, a key with an entry is answered at once and a key without one has to wait.  A live
entity is alive in the end as well, and in the same slot.  An absent one is absent in the end
exactly if no slot in use of its key is still to come. -/
theorem Run.answers_halfway (run : Run c FileRules h s) (hn : drawn h + 1 < versionLimit) :
    ∃ row, s.file.Tiled row ∧ ∀ seen rest, row = seen ++ rest →
      ∀ (base : Store) (k : Key) (p : Patience), base.Midway s.file seen rest k p := by
  obtain ⟨row, hs⟩ := run.sound hn
  refine ⟨row, hs.tiled, ?_⟩
  rintro seen rest rfl base k p
  exact midway hs.tiled (hs.aged hn).newest base k p

/-- A store in which an entity was added and then moved. -/
def Store.moved : Store :=
  ((fresh.perform .plain (.add .sample [7])).2.perform .plain (.update .sample [7, 8])).2

lemma exists_run_moved :
    ∃ h, Run .plain (FileRules (α := Bytes)) h moved ∧ drawn h + 1 < versionLimit := by
  have hadd : FileRules (α := Bytes) [] .fresh (.add .sample [7]) :=
    ⟨⟨by decide, by decide⟩, trivial⟩
  have hupdate : ∀ h s, FileRules (α := Bytes) h s (.update .sample [7, 8]) :=
    fun _ _ => ⟨trivial, trivial⟩
  have opened : Run .plain FileRules [] .fresh := .opened Store.openFile_fresh
  exact ⟨_, (opened.next hadd).next (hupdate _ _), by decide +kernel⟩

/-- The file of an entity that was moved is rebuilt. -/
theorem Run.answers_halfway_rebuilt :
    ∃ row, moved.file.Tiled row ∧ ∀ seen rest, row = seen ++ rest →
      ∀ (base : Store) (k : Key) (p : Patience), base.Midway moved.file seen rest k p := by
  obtain ⟨h, run, hn⟩ := exists_run_moved
  exact run.answers_halfway hn

/-- **An entity that was moved is said to be absent** at once, when the scan has seen the slot that
it left and not the one that it is in. -/
theorem Run.answers_halfway_moved : ∃ h seen rest e, Run .plain (FileRules (α := Bytes)) h moved ∧
    moved.file.Tiled (seen ++ rest) ∧ ∀ p,
      lookup .sample p (moved.halfway moved.file seen) =
          .ok (some none) (moved.halfway moved.file seen) ∧
        lookup .sample p (moved.rescanned moved.file) =
          .ok (some (some e)) (moved.rescanned moved.file) := by
  obtain ⟨h, run, hn⟩ := exists_run_moved
  obtain ⟨row, hs⟩ := run.sound hn
  have ht : moved.file.Tiled row := hs.tiled
  have hslots : (moved.file.slots 0 moved.file.cursor).2 = row := by
    rw [RecordFile.slots, ht.scan (fun _ _ _ => rfl), Row.gather_slots]
    rfl
  have hsplit : row.take 1 ++ row.drop 1 = row := List.take_append_drop 1 row
  have hmid := midway (hsplit.symm ▸ ht) (hsplit.symm ▸ (hs.aged hn).newest) moved .sample
  obtain ⟨e, he⟩ : ∃ e, (moved.halfway moved.file (row.take 1)).toc.find? .sample = some e :=
    Option.isSome_iff_exists.mp (by rw [← hslots]; decide +kernel)
  have habsent : (moved.halfway moved.file (row.take 1)).live? .sample = none := by
    rw [← hslots]
    decide +kernel
  obtain ⟨e', hlive⟩ : ∃ e', (moved.rescanned moved.file).live? .sample = some e' :=
    Option.isSome_iff_exists.mp (by decide +kernel)
  refine ⟨h, row.take 1, row.drop 1, e', run, hsplit.symm ▸ ht, fun p => ⟨?_, ?_⟩⟩
  · rw [(hmid p).told e he, habsent]
  · rw [(hmid p).whole, hlive]

end Runs

end SlotStore
