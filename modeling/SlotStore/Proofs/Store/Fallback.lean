import Mathlib.Tactic.Common
import SlotStore.Proofs.Store.Deleted
import SlotStore.Proofs.Store.Layout
import SlotStore.Proofs.Volume.Fallback

/-!
# Stores with a damaged tail

The table of contents that a checkpoint or a close leaves in the file is a copy.  If it is damaged
the store is opened by a scan, with the same live entries, as long as the store never took somebody
else's bytes for its table.

* `Store.Stands.parked_of_close` : a store that was closed;
* `Run.falls_back` : a damaged table costs a scan and nothing else;
* `Run.falls_back_planted` : a table from a payload, which a scan does not agree with.
-/

namespace SlotStore

open Volume

variable {α : Type} {c : Coding α} {h : List (Event α)} {s s' : Store}

/-- A store that was closed holds what it held. -/
lemma Store.Stands.parked_of_close {held : Key → Option Bytes} {used : List Key} {n : Nat}
    (hs : s.Stands held used n) (hclose : Store.close s = .ok () s') : s'.Parked held used n := by
  cases hs with
  | serves hserves =>
    obtain ⟨t, ⟨hok, _⟩ | ⟨e, herror, _⟩, hparked⟩ := hserves.close
    · cases hclose.symm.trans hok
      exact hparked
    · cases hclose.symm.trans herror
  | parked hparked =>
    cases hclose.symm.trans hparked.shut.close
    exact hparked

/-- **A damaged table costs a scan and nothing else**, whatever run led to the sealed file, and
whether it was left by a checkpoint or by closing the store. -/
theorem Run.falls_back {start : Nat} {d : Content} (run : Run c FileRules h s)
    (hn : drawn h + 1 < versionLimit) (hleft : s' = s ∨ Store.close s = .ok () s')
    (hsealed : s'.file.sealedAt = some start) (hdamage : s'.file.TailDamaged start d) :
    ∃ t w, load (.ofContent s'.file.content) = .ok (some ⟨s'.file, t⟩) ∧ Toc.Alike s'.toc t ∧
      FellBack d start t w ∧ ∀ config shadow, config.validate = .ok () →
        ∃ r, Store.openFile config (.ok d) shadow = .ok r ∧ r.volume = w ∧
          r.waitReady = .ok () := by
  obtain ⟨held, hs⟩ := run.stands (fun _ _ _ allowed => ⟨allowed.fresh, allowed.reopens⟩) hn
  have hholds : s'.volume.Holds held (added h) (drawn h) := by
    rcases hleft with rfl | hclose
    · exact hs.holds
    · exact (hs.parked_of_close hclose).holds
  obtain ⟨row, hsound⟩ := hholds.sound
  obtain ⟨t, w, hload, halike, hback⟩ := hsound.fallBack hn hsealed hdamage
  refine ⟨t, w, hload, halike, hback, fun config shadow hvalid => ?_⟩
  have hbelow : d.size < positionLimit := by
    obtain ⟨_, _, _, he⟩ := hsound.tailed hsealed
    rw [(hdamage.spared he).1]
    exact he.below
  have hbare : Bare d := (mount_eq_scan_iff hbelow).mp hback.mounted
  obtain ⟨r, hopen, _, hvolume⟩ :=
    Store.openFile_scan hvalid hbelow hbare hback.scanned hback.signal shadow
  have hsignal : r.toc.signal = .succeeded := by
    rw [Store.toc, hvolume]
    exact hback.signal
  exact ⟨r, hopen, hvolume, Store.waitReady_of_succeeded hsignal⟩

namespace Store

/-- The content of the file after its footer lost the mark. -/
def unmarked (s : Store) : Content :=
  s.file.content.write (s.file.content.size - Footer.size) [0, 0, 0, 0]

/-- Overwriting the marker damages the tail. -/
lemma tailDamaged_unmarked (s : Store) (start : Nat) : s.file.TailDamaged start s.unmarked :=
  .mark rfl (by decide)

/-- An opened store with as many live slots as it counts. -/
lemma exists_opened {r : Except Error Store} {n : Nat}
    (h : r.toOption.map (·.stats.slots.live) = some n) :
    ∃ s, r = .ok s ∧ s.stats.slots.live = n := by
  cases r with
  | ok s => exact ⟨s, rfl, Option.some.inj h⟩
  | error e => cases h

end Store

namespace Moved

/-- A store with a live slot, and a retired one that the entity was moved from. -/
def updated : List (Event Bytes) × Store :=
  let added := Store.advance .plain (.add .sample [7]) ([], .fresh)
  Store.advance .plain (.update .sample [7, 8]) added

/-- An entity is added and then moved. -/
lemma run : Run .plain FileRules updated.1 updated.2 := by
  have hadd : FileRules (α := Bytes) [] .fresh (.add .sample [7]) :=
    ⟨⟨by decide, by decide⟩, trivial⟩
  have hupdate : ∀ h s, FileRules (α := Bytes) h s (.update .sample [7, 8]) :=
    fun _ _ => ⟨trivial, trivial⟩
  have opened : Run .plain FileRules [] .fresh := .opened Store.openFile_fresh
  exact (opened.next hadd).next (hupdate _ _)

/-- The store after it was closed. -/
def closed : Store := Steps.final (Store.close updated.2)

/-- Closing seals the file. -/
lemma close_ok : Store.close updated.2 = .ok () closed :=
  Steps.eq_ok_of_failure? (by decide +kernel)

end Moved

/-- The mark is lost in the file that a store with a live slot and a retired one left when it was
closed. -/
theorem Run.falls_back_closed : ∃ h s s' start, Run .plain FileRules h s ∧
    drawn h + 1 < versionLimit ∧ Store.close s = .ok () s' ∧ s'.file.sealedAt = some start ∧
      s'.file.TailDamaged start s'.unmarked ∧ s'.stats.slots.retired = 1 ∧
        ∃ t w, load (.ofContent s'.file.content) = .ok (some ⟨s'.file, t⟩) ∧
          Toc.Alike s'.toc t ∧ FellBack s'.unmarked start t w ∧
            ∀ config shadow, config.validate = .ok () →
              ∃ r, Store.openFile config (.ok s'.unmarked) shadow = .ok r ∧ r.volume = w ∧
                r.waitReady = .ok () := by
  have hn : drawn Moved.updated.1 + 1 < versionLimit := by decide +kernel
  have hsealed : Moved.closed.file.sealedAt = some 75 := by decide +kernel
  have hdamage := Moved.closed.tailDamaged_unmarked 75
  exact ⟨_, _, _, _, Moved.run, hn, Moved.close_ok, hsealed, hdamage, by decide +kernel,
    Moved.run.falls_back hn (Or.inr Moved.close_ok) hsealed hdamage⟩

/-! ## A table from a payload -/

namespace Planted

/-- A table of the header of the first slot alone, which it tells to be free. -/
def table : Snapshot where
  format := Snapshot.currentFormat
  dataEnd := Header.size
  nextVersion := 2
  entries := [⟨.sample, 0, Header.size, true, 1⟩]
  retired := []

/-- The tail of a file with that table. -/
def payload : Bytes := RecordFile.tail Header.size ⟨.reserved, 1⟩ table.write

/-- The tail is the payload of the only entity, and the store is opened again and sealed. -/
def marked : List (Event Bytes) × Store :=
  let opened := Store.advance .plain (.reopen .scanning) ([], .fresh)
  let added := Store.advance .plain (.add .sample payload) opened
  let reopened := Store.advance .plain (.reopen .scanning) added
  Store.advance .plain .checkpoint reopened

lemma run : Run .plain (fun h _ op => op.Fresh h) marked.1 marked.2 := by
  have hreopen : ∀ h, (Operation.reopen (α := Bytes) .scanning).Fresh h := fun _ => trivial
  have hcheckpoint : ∀ h, (Operation.checkpoint (α := Bytes)).Fresh h := fun _ => trivial
  have hadd : ∀ h, .sample ∉ added h → (Operation.add .sample payload).Fresh h :=
    fun _ h => ⟨by decide, h⟩
  have fresh : Run (α := Bytes) .plain (fun h _ op => op.Fresh h) [] .fresh :=
    .opened Store.openFile_fresh
  have opened := fresh.next (hreopen _)
  have added := opened.next (hadd _ (by decide))
  have reopened := added.next (hreopen _)
  exact reopened.next (hcheckpoint _)

end Planted

/-- **The table may be one that somebody put into a payload.**  Then the scan finds an entity that
the table did not have. -/
theorem Run.falls_back_planted : ∃ h s start intact damaged,
    Run .plain (fun h _ op => op.Fresh h) h s ∧ drawn h + 1 < versionLimit ∧
      s.file.sealedAt = some start ∧ s.file.TailDamaged start s.unmarked ∧
        Store.openFile .scanning (.ok s.file.content) .absent = .ok intact ∧
          Store.openFile .scanning (.ok s.unmarked) .absent = .ok damaged ∧
            intact.stats.slots.live = 0 ∧ damaged.stats.slots.live = 1 := by
  obtain ⟨intact, hintact, hnone⟩ := Store.exists_opened (n := 0)
    (r := Store.openFile .scanning (.ok Planted.marked.2.file.content) .absent) (by decide +kernel)
  obtain ⟨damaged, hdamaged, hone⟩ := Store.exists_opened (n := 1)
    (r := Store.openFile .scanning (.ok Planted.marked.2.unmarked) .absent) (by decide +kernel)
  have hsealed : Planted.marked.2.file.sealedAt = some Header.size := by decide +kernel
  exact ⟨_, _, _, intact, damaged, Planted.run, by decide +kernel, hsealed,
    Store.tailDamaged_unmarked _ _, hintact, hdamaged, hnone, hone⟩

end SlotStore
