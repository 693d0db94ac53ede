import Mathlib.Tactic.Common
import SlotStore.Proofs.Volume.Rebuild

/-!
# Tables come from headers

A file that presents no table is scanned when it is opened.  Whatever is in such a file, each region
of the table that the scan comes to is a slot whose header stands in the file, and no region reaches
past the cursor, also when the scan meets bytes that are no header and fails.

* `Entry.From`, `Volume.Headed` : regions that come from headers;
* `Volume.runRebuild_headed` : so do those of a scan.
-/

namespace SlotStore

/-- **A region comes from a header** of a file: a slot stands there, with its key, size and version,
and it is in use if the region is live. -/
def Entry.From (c : Content) (e : Entry) : Prop :=
  ∃ h, c.HeaderAt e.offset h ∧ h.key = e.key ∧ h.slotSize = e.size ∧ h.version = e.version ∧
    (e.isFree = false → h.inUse = true)

lemma Entry.from_ofHeader {c : Content} {o : Nat} {h : Header} (hh : c.HeaderAt o h) :
    (Entry.ofHeader o h).From c :=
  ⟨h, hh, rfl, rfl, rfl, fun hlive => by simpa [Entry.ofHeader] using hlive⟩

lemma Entry.From.free {c : Content} {e : Entry} (he : e.From c) :
    { e with isFree := true }.From c := by
  obtain ⟨h, hh, hkey, hsize, hversion, _⟩ := he
  exact ⟨h, hh, hkey, hsize, hversion, fun hlive => by cases hlive⟩

namespace Volume

open Steps

variable {c : Content}

/-- The regions of a table come from headers, and end by a position. -/
structure Headed (c : Content) (stop : Nat) (t : Toc) : Prop where
  from_header : ∀ e ∈ t.regions, e.From c
  below : ∀ e ∈ t.regions, e.stop ≤ stop

namespace Headed

variable {stop : Nat} {t : Toc}

lemma mono {stop' : Nat} (ht : Headed c stop t) (h : stop ≤ stop') : Headed c stop' t :=
  ⟨ht.from_header, fun e he => Nat.le_trans (ht.below e he) h⟩

lemma congr {t' : Toc} (ht : Headed c stop t) (hr : t'.regions = t.regions) : Headed c stop t' :=
  ⟨hr ▸ ht.from_header, hr ▸ ht.below⟩

/-- A slot that is merged has its header in the file. -/
lemma merge (ht : Headed c stop t) {h : Header} (hh : c.HeaderAt stop h) :
    Headed c (stop + h.slotSize) (t.merge (.ofHeader stop h)) where
  from_header := Toc.forall_regions_merge (fun _ he => he.free) ht.from_header
    (Entry.from_ofHeader hh)
  below := Toc.forall_regions_merge (P := fun e => e.stop ≤ stop + h.slotSize) (fun _ he => he)
    (ht.mono (Nat.le_add_right _ _)).below (Nat.le_refl _)

end Headed

/-- **A scan comes to a table whose regions come from headers**, and reach to the end of the last
slot it saw at most. -/
theorem scan_headed (hbelow : c.size < positionLimit) : ∃ stop ≤ c.size,
    Headed c stop ((RecordFile.ofContent c).scan 0 c.size scanned (.unfinished, 0)).2.1 ∧
      ∀ s, ((RecordFile.ofContent c).scan 0 c.size scanned (.unfinished, 0)).1 = .ok s →
        s.stop = stop := by
  have htake : ∀ o h state, scanned o h state = .ok (takeIn o h state) := fun _ _ _ => rfl
  refine RecordFile.scan_induction (f := .ofContent c)
    (P := fun stop state => Headed c stop state.1) htake (Nat.zero_le _) (Nat.le_refl _) hbelow ?_
    (fun o h state ht hh _ => ht.merge hh)
  exact ⟨fun _ he => (by cases he), fun _ he => (by cases he)⟩

/-- **Whatever a file holds, the table that it is scanned for comes from headers**, and the cursor
stands behind all of its regions. -/
theorem runRebuild_headed (hbelow : c.size < positionLimit) :
    ∃ v, (runRebuild c.size ⟨.ofContent c, .unfinished⟩ = .ok () v ∨
        ∃ err, runRebuild c.size ⟨.ofContent c, .unfinished⟩ = .error err v) ∧
      Headed c v.file.cursor v.toc := by
  obtain ⟨stop, hstop, hheaded, hsummary⟩ := scan_headed hbelow
  generalize hscan : (RecordFile.ofContent c).scan 0 c.size scanned (.unfinished, 0) = outcome
    at hheaded hsummary
  obtain ⟨result, t, n⟩ := outcome
  dsimp only at hheaded hsummary
  cases result with
  | error err =>
    exact ⟨_, Or.inr ⟨err, runRebuild_eq_error (rebuild_of_error hscan)⟩,
      (hheaded.mono hstop).congr rfl⟩
  | ok summary =>
    obtain rfl := hsummary summary rfl
    cases htorn : summary.torn with
    | false =>
      exact ⟨_, Or.inl (runRebuild_eq (rebuild_of_scan hscan htorn)),
        (hheaded.mono hstop).congr rfl⟩
    | true =>
      have hpos : summary.stop < positionLimit := by omega
      exact ⟨_, Or.inl (runRebuild_eq (rebuild_of_torn hscan htorn hpos)), hheaded.congr rfl⟩

end Volume

end SlotStore
