import Mathlib.Tactic.Common
import SlotStore.Proofs.Volume.Writes

/-!
# Writes to a loose volume

A table may take slots for free that are in use, and a write does not mend that: the slot that it
sets is set in the file and in what the table shows alike, and all others stay as they are.

* `Volume.Loose.left` : a write that found no room;
* `Volume.Loose.entered`, `Volume.Loose.exchanged`, `Volume.Loose.givenUp` : the slots after each of
  the three writes.
-/

namespace SlotStore.Volume.Loose

open Steps

variable {v : Volume} {row shown : Row} {k : Key} {e : Entry} {f : RecordFile}

/-- What a write that found no room leaves. -/
lemma left (hl : Loose v row shown) (hleft : Left v.file row f) :
    Loose ⟨f, v.draw.toc⟩ row shown := by
  have htiled : f.Tiled row := by
    rcases hleft with rfl | ⟨hkeeps, _⟩
    · exact hl.tiled
    · exact hkeeps.tiled
  exact ⟨htiled, hl.draw.described, hl.veils, hl.ready, hl.signal⟩

/-- A key that no slot has is not in the table. -/
lemma find?_eq_none (hl : Loose v row shown) (hr : k.isReserved = false)
    (hno : ∀ p ∈ row, p.2.key.isReserved = false → p.2.key ≠ k) : v.toc.find? k = none := by
  refine Option.eq_none_iff_forall_ne_some.mpr fun e he => ?_
  obtain ⟨_, h, hm, _⟩ := hl.described.entry he
  have hkey := (hl.described.find?_of_entry he hm).2
  obtain ⟨h', hm', hsame⟩ := hl.veils hm
  have hkey' : h'.key = k := by
    rcases hsame with rfl | rfl
    · exact hkey
    · exact hkey
  exact hno _ hm' (hkey'.symm ▸ hr) hkey'

/-- **A payload is entered** under a key without an entry: one slot in use of the key is set. -/
theorem entered (hl : Loose v row shown) (hr : k.isReserved = false)
    (hnone : v.toc.find? k = none) (payload : Bytes) :
    (∃ o h v', enter k payload v = .ok () v' ∧ h.inUse = true ∧ h.key = k ∧
      v'.file.sealedAt = none ∧ Loose v' (Row.put o h row) (Row.put o h shown)) ∨
    ∃ err f, enter k payload v = .error err ⟨f, v.draw.toc⟩ ∧ Left v.file row f := by
  rcases hl.enter_eq k payload with ⟨o, size, v', henter, hp⟩ | ⟨err, f, henter, _, hleft⟩
  · obtain ⟨hready, hsignal, _⟩ := hp.upsert_fields hr
    refine Or.inl ⟨o, .ofPayload ⟨k, v.toc.nextVersion⟩ payload (size - Header.size), _, henter,
      rfl, rfl, hp.sets.unsealed, ?_⟩
    exact ⟨hp.sets.tiled, hp.describes_insert hr hnone, hl.veils.put _ _, hready.trans hl.ready,
      hsignal.trans hl.signal⟩
  · exact Or.inr ⟨err, f, henter, hleft⟩

/-- **The payload of a live entry is exchanged**: its slot is set, or another slot of the key is set
and its own is given up. -/
theorem exchanged (hl : Loose v row shown) (hk : v.toc.find? k = some e) (hlive : e.isFree = false)
    (payload : Bytes) :
    (∃ h v', exchange k e payload v = .ok () v' ∧ h.inUse = true ∧ h.key = k ∧
      v'.file.sealedAt = none ∧ Loose v' (Row.put e.offset h row) (Row.put e.offset h shown)) ∨
    (∃ o h old v', exchange k e payload v = .ok () v' ∧ h.inUse = true ∧ h.key = k ∧
      e.offset ≠ o ∧ (e.offset, old) ∈ row ∧ old.inUse = true ∧ old.key = k ∧
      (Row.put o h row).Pairwise (fun p q => p.1 ≠ q.1) ∧ v'.file.sealedAt = none ∧
      Loose v' (Row.put e.offset old.tombstone (Row.put o h row))
        (Row.put e.offset old.tombstone (Row.put o h shown))) ∨
    ∃ err f, exchange k e payload v = .error err ⟨f, v.draw.toc⟩ ∧ Left v.file row f := by
  have hr := (hl.described.entry hk).1
  by_cases hfit : payload.length ≤ e.capacity
  · obtain ⟨f, t, hexchange, hsets, _, hd, hready, hsignal, _⟩ := hl.rewrite_eq hk hlive hfit
    refine Or.inl ⟨.ofPayload ⟨k, v.toc.nextVersion⟩ payload e.capacity, _, hexchange, rfl, rfl,
      hsets.unsealed, ?_⟩
    exact ⟨hsets.tiled, hd, hl.veils.put _ _, hready.trans hl.ready, hsignal.trans hl.signal⟩
  · rcases hl.relocate_eq hk hlive hfit with
      ⟨o, size, v', f, old, hexchange, hp, hne, hshown, hm, hu, hkey, hdrop⟩ |
      ⟨err, f, hexchange, _, hleft⟩
    · obtain ⟨hready, hsignal, _⟩ := hp.upsert_fields hr
      refine Or.inr (Or.inl ⟨o, .ofPayload ⟨k, v.toc.nextVersion⟩ payload (size - Header.size), old,
        _, hexchange, rfl, rfl, hne, hm, hu, hkey, hp.sets.tiled.fills.distinct, hdrop.unsealed,
        ?_⟩)
      exact ⟨hdrop.tiled, hp.describes_move hr hk hlive hshown hne, (hl.veils.put _ _).put _ _,
        hready.trans hl.ready, hsignal.trans hl.signal⟩
    · exact Or.inr (Or.inr ⟨err, f, hexchange, hleft⟩)

/-- **A live entry is given up** with its slot. -/
theorem givenUp (hl : Loose v row shown) (hk : v.toc.find? k = some e) (hlive : e.isFree = false) :
    ∃ old v', giveUp k e v = .ok () v' ∧ (e.offset, old) ∈ row ∧ old.inUse = true ∧ old.key = k ∧
      v'.file.sealedAt = none ∧
      Loose v' (Row.put e.offset old.tombstone row) (Row.put e.offset old.tombstone shown) := by
  obtain ⟨f, old, hgive, _, hm, hu, hkey, hsets, hd⟩ := hl.giveUp_eq hk hlive
  have hfree : (v.toc.markFree k).ready = v.toc.ready ∧
      (v.toc.markFree k).signal = v.toc.signal := by
    rw [Toc.markFree, hk]
    exact ⟨rfl, rfl⟩
  refine ⟨old, _, hgive, hm, hu, hkey, hsets.unsealed, ?_⟩
  exact ⟨hsets.tiled, hd, hl.veils.put _ _, hfree.1.trans hl.ready, hfree.2.trans hl.signal⟩

end SlotStore.Volume.Loose
