import Mathlib.Tactic.Common
import SlotStore.Proofs.Store.Shrink
import SlotStore.Proofs.Store.Writes

/-!
# Storing a store away

A checkpoint seals the file, a shrink copies it, closing may seal it, and opening loads the table of
the tail or scans the slots.  None of these changes what the store holds.

* `Store.Serves.checkpoint`, `Store.Serves.shrink` : operations on the whole file;
* `Store.Parked`, `Store.Serves.close` : a closed store still holds what it held;
* `Store.Parked.openFile` : a store is opened on the file of a closed one.
-/

namespace SlotStore.Store

open Steps Volume

variable {s : Store} {held : Key → Option Bytes} {used : List Key} {drawn : Nat} {err : Error}

/-! ## The whole file -/

/-- **A checkpoint** keeps what a store holds, and seals the file unless the table is too large. -/
theorem Serves.checkpoint (hs : s.Serves held used drawn) :
    ∃ s', (Store.checkpoint s = .ok () s' ∧ s'.file.isSealed = true ∨
      ∃ err, Store.checkpoint s = .error err s' ∧ NoSeal s.volume) ∧ s'.Serves held used drawn := by
  obtain ⟨hi, ⟨row, hsound⟩, hheld⟩ := hs
  obtain rfl : s.volume.payload? = held := funext hheld
  rw [Store.checkpoint, throughGate_idle hi, get_bind,
    bind_of_ok (waitReady_inside hsound.signal _)]
  rcases hsound.persist with ⟨f, hpersist, hsealed, hv⟩ | ⟨err, f, hpersist, hseal, hv⟩
  · have hact : onVolume persist (s.inside .exclusive) = .ok s.volume.file.cursor
        { s.inside .exclusive with volume := { s.volume with file := f } } := onVolume_ok hpersist
    rw [bind_of_ok hact]
    exact ⟨_, Or.inl ⟨rfl, hsealed⟩, .of_leaveGate rfl hi.locks hi.cancelled hi.closed hv⟩
  · have hact : onVolume persist (s.inside .exclusive) = .error err
        { s.inside .exclusive with volume := { s.volume with file := f } } :=
      onVolume_error hpersist
    rw [bind_of_error hact]
    exact ⟨_, Or.inr ⟨err, rfl, hseal⟩, .of_leaveGate rfl hi.locks hi.cancelled hi.closed hv⟩

/-- **A shrink** keeps what a store holds, and succeeds unless a directory stands in the way. -/
theorem Serves.shrink (hs : s.Serves held used drawn) :
    (∃ r s', Store.shrink s = .ok r s' ∧ s'.Serves held used drawn) ∨
      s.shadow = .directory ∧ Store.shrink s = .error (.file .isDirectory) s := by
  obtain ⟨hi, ⟨row, hsound⟩, hheld⟩ := hs
  obtain rfl : s.volume.payload? = held := funext hheld
  rw [Store.shrink, shrinkUnder, throughGate_idle hi, get_bind,
    bind_of_ok (waitReady_inside hsound.signal _)]
  by_cases hshadow : s.shadow = .directory
  · have hmake : (s.inside .exclusive).makeShadow = .error (.file .isDirectory) := by
      rw [makeShadow, show (s.inside .exclusive).shadow = .directory from hshadow]
    have hclear : { s.inside .exclusive with shadow := (s.inside .exclusive).shadow.cleared } =
        s.inside .exclusive := by
      rw [inside, hshadow, RecordFile.ShadowNode.cleared, ← hshadow]
    refine Or.inr ⟨hshadow, ?_⟩
    simp only [hmake, set_bind, hclear]
    exact congrArg (EStateM.Result.error _) (hi.leaveGate_inside .exclusive)
  · obtain ⟨g, copied, hcopy, hv⟩ := hsound.shrink
    have hmake : (s.inside .exclusive).makeShadow = .ok (g, copied) := by
      rw [makeShadow]
      split
      · rename_i h
        exact absurd h hshadow
      · exact hcopy
    simp only [hmake]
    exact Or.inl ⟨_, _, rfl, .of_leaveGate rfl hi.locks hi.cancelled hi.closed hv⟩

/-! ## Closing -/

/-- **A closed store** that holds payloads under keys. -/
structure Parked (s : Store) (held : Key → Option Bytes) (used : List Key) (drawn : Nat) :
    Prop where
  shut : s.Shut
  holds : s.volume.Holds held used drawn

/-- A store that its last party is closing. -/
def closing (s : Store) : Store :=
  { s.inside .exclusive with
    gate := (Gate.passed .exclusive).close
    locks := s.locks.close
    cancelled := true
    closed := true }

/-- Closing an idle store flushes it behind the gate. -/
lemma close_idle (hi : s.Idle) :
    Store.close s = after (leaveGate .exclusive) (flush s.closing) := by
  have henter : enterGate .exclusive ⟨none, none⟩ s = .ok true (s.inside .exclusive) :=
    enterGate_idle hi fun h => by cases h
  rw [Store.close, get_bind, if_neg (by rw [hi.closed]; exact Bool.false_ne_true),
    bind_of_ok henter, modify_bind, ensuring_eq]
  rfl

lemma Parked.of_closing {v : Volume} (hv : v.Holds held used drawn) :
    (leaveGate .exclusive { s.closing with volume := v }).Parked held used drawn :=
  ⟨⟨rfl, rfl⟩, hv⟩

/-- **Closing** keeps what a store holds.  It fails only if the file had to be sealed and could
not. -/
theorem Serves.close (hs : s.Serves held used drawn) :
    ∃ s', (Store.close s = .ok () s' ∧ (s.config.persistOnClose = true → s'.file.isSealed = true) ∨
      ∃ err, Store.close s = .error err s' ∧ s.config.persistOnClose = true ∧ NoSeal s.volume) ∧
      s'.Parked held used drawn := by
  obtain ⟨hi, hv⟩ := hs
  have hready : s.closing.waitReady = .ok () := by
    obtain ⟨row, hsound⟩ := hv.sound
    exact waitReady_of_succeeded (s := s.closing) hsound.signal
  obtain ⟨⟨row, hsound⟩, hheld⟩ := hv
  obtain rfl : s.volume.payload? = held := funext hheld
  rw [close_idle hi, flush, get_bind]
  by_cases hpersists : s.config.persistOnClose = true
  · rw [if_pos (show s.closing.config.persistOnClose = true from hpersists)]
    simp only [hready]
    rcases hsound.persist with ⟨f, hpersist, hsealed, hv⟩ | ⟨err, f, hpersist, hseal, hv⟩
    · have hact : onVolume persist s.closing = .ok s.volume.file.cursor
          { s.closing with volume := { s.volume with file := f } } := onVolume_ok hpersist
      rw [bind_of_ok hact]
      exact ⟨_, Or.inl ⟨rfl, fun _ => hsealed⟩, .of_closing hv⟩
    · have hact : onVolume persist s.closing = .error err
          { s.closing with volume := { s.volume with file := f } } := onVolume_error hpersist
      rw [bind_of_error hact]
      exact ⟨_, Or.inr ⟨err, rfl, hpersists, hseal⟩, .of_closing hv⟩
  · rw [if_neg (show ¬ s.closing.config.persistOnClose = true from hpersists)]
    exact ⟨_, Or.inl ⟨rfl, fun h => absurd h hpersists⟩, .of_closing hsound.holds⟩

/-- A store is closed only once. -/
lemma Shut.close (hs : s.Shut) : Store.close s = .ok () s := by
  rw [Store.close, get_bind, if_pos hs.closed]
  rfl

/-! ## Opening -/

section Open

variable {config : Config} {c : Content} {shadow : RecordFile.ShadowNode} {v : Volume}

/-- A configuration that is not valid opens nothing. -/
lemma openFile_invalid (h : config.validate = .error err) :
    openFile config (.ok c) shadow = .error err := by
  rw [openFile, h]
  rfl

/-- **A file that presents a table** is opened with it. -/
lemma openFile_load (hvalid : config.validate = .ok ()) (hload : load (.ofContent c) = .ok (some v))
    (shadow : RecordFile.ShadowNode) :
    ∃ s, openFile config (.ok c) shadow = .ok s ∧ s.Idle ∧ s.volume = v := by
  rw [openFile, hvalid]
  simp only [Except.mapError, bind, Except.bind, mount_of_load hload]
  exact ⟨_, rfl, ⟨rfl, rfl, rfl, rfl⟩, rfl⟩

/-- **A file that presents none** is scanned. -/
lemma openFile_scan (hvalid : config.validate = .ok ()) (hbelow : c.size < positionLimit)
    (hbare : Bare c) (hrun : runRebuild c.size ⟨.ofContent c, .unfinished⟩ = .ok () v)
    (hsignal : v.toc.signal = .succeeded) (shadow : RecordFile.ShadowNode) :
    ∃ s, openFile config (.ok c) shadow = .ok s ∧ s.Idle ∧ s.volume = v := by
  have hmount := (mount_eq_scan_iff hbelow).mpr hbare
  rw [openFile, hvalid]
  simp only [Except.mapError, bind, Except.bind, hmount, hrun, waitReady, Store.toc, hsignal]
  split <;> exact ⟨_, rfl, ⟨rfl, rfl, rfl, rfl⟩, rfl⟩

/-- **A store is opened on a file**, with the table of its tail or by a scan while versions have not
run out, and holds what the file held. -/
theorem serves_openFile (hv : v.Holds held used drawn) (hvalid : config.validate = .ok ())
    (hway : v.file.isSealed = true ∨ drawn + 1 < versionLimit ∧ Bare v.file.content)
    (shadow : RecordFile.ShadowNode) :
    ∃ s, openFile config (.ok v.file.content) shadow = .ok s ∧ s.Serves held used drawn := by
  obtain ⟨⟨row, hsound⟩, hheld⟩ := hv
  obtain rfl : v.payload? = held := funext hheld
  by_cases hsealed : v.file.isSealed = true
  · obtain ⟨v', hload, hv'⟩ := hsound.resume hsealed
    obtain ⟨s, hopen, hi, hvolume⟩ := openFile_load hvalid hload shadow
    exact ⟨s, hopen, hi, hvolume ▸ hv'⟩
  · obtain ⟨hfew, hbare⟩ := hway.resolve_left hsealed
    obtain ⟨v', hrun, hv'⟩ := hsound.remount hfew (Option.not_isSome_iff_eq_none.mp hsealed)
    obtain ⟨row', hsound'⟩ := hv'.sound
    obtain ⟨s, hopen, hi, hvolume⟩ :=
      openFile_scan hvalid hsound.tiled.below hbare hrun hsound'.signal shadow
    exact ⟨s, hopen, hi, hvolume ▸ hv'⟩

end Open

end SlotStore.Store
