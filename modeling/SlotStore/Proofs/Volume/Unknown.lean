import Mathlib.Tactic.Common
import SlotStore.Proofs.Record.Unknown
import SlotStore.Proofs.Volume.Writes

/-!
# Writes to a volume with unknown bytes

A write to a volume whose file may hold anything fails before it changes the file or the table, as
long as the table offers slots inside the file and the header of a slot that is given up can still
be read.

* `Volume.Offers`, `Volume.Leaves` : what the table offers for a payload, and the slot that the
  payload leaves;
* `Volume.place_cases` : placing a payload;
* `Volume.enter_cases`, `Volume.exchange_cases`, `Volume.giveUp_cases` : the three writes;
* `Volume.Loose.offers`, `Volume.Loose.leaves` : both hold while the table describes the file;
* `Volume.seated_place` and its like : the tail begins at the cursor after every action.
-/

namespace SlotStore.Volume

open Steps RecordFile

variable {α β : Type} {v v' : Volume} {k : Key} {e : Entry} {stamp : Stamp} {payload : Bytes}
  {row shown : Row}

/-- **The slot that the table offers for a payload lies in the file**, and is no larger than a slot
can be. -/
def Offers (v : Volume) (payload : Bytes) : Prop :=
  ∀ e, v.toc.freeSlot? (Header.size + payload.length) = some e →
    e.offset ≤ v.file.cursor ∧ e.size < Header.size + lengthLimit

/-- **The slot that a payload leaves can be marked unused**: its header can be read, and the slot
that the table offers for the payload does not touch it. -/
structure Leaves (v : Volume) (e : Entry) (payload : Bytes) : Prop where
  header : ∃ h, v.file.readHeader e.offset = .ok h
  apart : ∀ e', v.toc.freeSlot? (Header.size + payload.length) = some e' →
    e.offset + Header.size ≤ e'.offset ∨ e'.stop ≤ e.offset

/-- What placing a payload leaves of the file: no tail, and the headers that are not overwritten. -/
structure Rewritten (v : Volume) (payload : Bytes) (f : RecordFile) : Prop where
  unsealed : f.sealedAt = none
  spares : ∀ start, start + Header.size ≤ v.file.cursor →
    (∀ e', v.toc.freeSlot? (Header.size + payload.length) = some e' →
      start + Header.size ≤ e'.offset ∨ e'.stop ≤ start) → Spares v.file f start

/-! ## Placing -/

lemma spares_filled {f : RecordFile} {o start : Nat} {h : Header}
    (hapart : start + Header.size ≤ o ∨ o + (Header.size + payload.length) ≤ start) :
    Spares f (f.filled o h payload) start := by
  refine Spares.write (Nat.le_max_left _ _) ?_
  rwa [List.length_append, Header.length_encode]

lemma settle_of_write {o size : Nat} {h : Header} {f : RecordFile}
    (hwrite : writePayload o stamp payload (size - Header.size) v.file = .ok h f) :
    settle stamp payload (o, size) v = .ok (o, size) { v with file := f } :=
  tryCatch_of_ok ((bind_of_ok (onFile_ok hwrite)).trans rfl)

/-- A slot that is offered is reused. -/
lemma place_of_some (hfound : v.toc.freeSlot? (Header.size + payload.length) = some e) :
    place stamp payload v =
      settle stamp payload (e.offset, e.size) { v with toc := v.toc.release e } := by
  rw [place, get_bind, Toc.takeFreeSlot?, hfound]
  rfl

/-- If none is offered a slot is reserved. -/
lemma place_of_none (hnone : v.toc.freeSlot? (Header.size + payload.length) = none) :
    place stamp payload v = (onFile (RecordFile.reserve (Header.size + payload.length)) >>= fun o =>
      settle stamp payload (o, Header.size + payload.length)) v := by
  rw [place, get_bind, Toc.takeFreeSlot?, hnone]
  rfl

lemma place_found (stamp : Stamp) (hs : v.file.Seated) (hr : v.file.Roomy) (ho : v.Offers payload)
    (hfound : v.toc.freeSlot? (Header.size + payload.length) = some e) :
    ∃ v', place stamp payload v = .ok (e.offset, e.size) v' ∧ Rewritten v payload v'.file := by
  obtain ⟨hoffset, hsize⟩ := ho e hfound
  obtain ⟨hlarge, _⟩ := Toc.mem_of_freeSlot? hfound
  have hroom := hr
  unfold Roomy at hroom
  have hwrite : writePayload e.offset stamp payload (e.size - Header.size) v.file = _ :=
    writePayload_eq (by omega) (by omega) hoffset (dropTail_seated hs hr) (by omega)
  have hplace : place stamp payload v = .ok (e.offset, e.size) ⟨v.file.untailed.filled e.offset
      (.ofPayload stamp payload (e.size - Header.size)) payload, v.toc.release e⟩ := by
    rw [place_of_some hfound]
    exact settle_of_write (v := ⟨v.file, v.toc.release e⟩) hwrite
  refine ⟨_, hplace, v.file.sealedAt_untailed, fun start hbelow hapart => ?_⟩
  refine (Spares.untailed hs hbelow).trans (spares_filled ?_)
  have happart := hapart e hfound
  rw [Entry.stop] at happart
  omega

lemma place_new (hs : v.file.Seated) (hr : v.file.Roomy)
    (hnone : v.toc.freeSlot? (Header.size + payload.length) = none) :
    (∃ err, place stamp payload v = .error err v) ∨
      ∃ o size v', place stamp payload v = .ok (o, size) v' ∧ Rewritten v payload v'.file := by
  rw [place_of_none hnone]
  rcases reserve_cases hs hr (Nat.le_add_right Header.size payload.length) with
    ⟨err, hrefused⟩ | ⟨hsize, hok⟩
  · exact Or.inl ⟨err, bind_of_error (onFile_error hrefused)⟩
  · -- The slot that was appended takes the payload.
    let f₁ : RecordFile := { v.file.untailed with
      content := (v.file.untailed.stamped (Header.size + payload.length)).growTo
        (v.file.cursor + (Header.size + payload.length))
      cursor := v.file.cursor + (Header.size + payload.length) }
    have hroom := hr
    unfold Roomy at hroom
    have hu : f₁.sealedAt = none := v.file.sealedAt_untailed
    have hdrop : dropTail f₁ = .ok () f₁ := by
      have h := dropTail_eq (f := f₁) (by rw [hu]; exact nofun)
      rwa [untailed_of_none hu] at h
    have hwrite : writePayload v.file.cursor stamp payload
        (Header.size + payload.length - Header.size) f₁ = _ :=
      writePayload_eq (by omega) (by omega)
        (show v.file.cursor ≤ f₁.cursor from Nat.le_add_right _ _) hdrop (by omega)
    have hsettle := settle_of_write (v := { v with file := f₁ }) hwrite
    refine Or.inr ⟨_, _, _, (bind_of_ok (onFile_ok hok)).trans hsettle, hu,
      fun start hbelow _ => ?_⟩
    have hplaceholder : (placeholder (Header.size + payload.length - Header.size)).encode.length =
      Header.size := Header.length_encode _
    have hstamped : Spares v.file.untailed f₁ start := by
      refine Spares.write (by rw [cursor_untailed]; exact Nat.le_add_right _ _) (Or.inl ?_)
      rwa [cursor_untailed]
    exact ((Spares.untailed hs hbelow).trans hstamped).trans (spares_filled (Or.inl hbelow))

/-- **A payload is refused before the volume is touched, or placed.** -/
theorem place_cases (hs : v.file.Seated) (hr : v.file.Roomy) (ho : v.Offers payload)
    (stamp : Stamp) : (∃ err, place stamp payload v = .error err v) ∨
      ∃ o size v', place stamp payload v = .ok (o, size) v' ∧ Rewritten v payload v'.file := by
  cases hfound : v.toc.freeSlot? (Header.size + payload.length) with
  | some e =>
    obtain ⟨v', hplace, hrewritten⟩ := place_found stamp hs hr ho hfound
    exact Or.inr ⟨_, _, v', hplace, hrewritten⟩
  | none => exact place_new hs hr hfound

/-! ## The three writes -/

/-- **Entering a payload** fails before anything is changed but the next version, or succeeds. -/
theorem enter_cases (hs : v.file.Seated) (hr : v.file.Roomy) (ho : v.Offers payload) (k : Key) :
    (∃ err, enter k payload v = .error err v.draw) ∨
      ∃ v', enter k payload v = .ok () v' ∧ Rewritten v payload v'.file := by
  have hallocate : allocate v = .ok v.toc.nextVersion v.draw := rfl
  rw [enter, bind_of_ok hallocate]
  rcases place_cases (v := v.draw) hs hr ho ⟨k, v.toc.nextVersion⟩ with
    ⟨err, hrefused⟩ | ⟨o, size, v', hplace, hunsealed, hspares⟩
  · exact Or.inl ⟨err, bind_of_error hrefused⟩
  · exact Or.inr ⟨_, (bind_of_ok hplace).trans rfl, hunsealed, hspares⟩

/-- A slot whose header was not overwritten is marked unused. -/
lemma Rewritten.markUnused {f : RecordFile} (hw : Rewritten v payload f) (hr : v.file.Roomy)
    (hl : v.Leaves e payload) : ∃ f', RecordFile.markUnused e.offset f = .ok () f' := by
  obtain ⟨h, hh⟩ := hl.header
  have hbelow := (readHeader_bounds hh).1
  have hkept := (hw.spares e.offset hbelow hl.apart).readHeader hh
  have hdrop : dropTail f = .ok () f.untailed :=
    dropTail_eq (by rw [hw.unsealed]; exact nofun)
  have hsize : 2 ≤ Header.size := by decide
  have hlimit : 0 < lengthLimit := by decide
  unfold Roomy at hr
  exact ⟨_, markUnused_eq hkept hdrop (by omega)⟩

/-- **Exchanging a payload** fails before anything is changed but the next version, or succeeds. -/
theorem exchange_cases (hs : v.file.Seated) (hr : v.file.Roomy)
    (hmoves : e.capacity < payload.length → v.Offers payload ∧ v.Leaves e payload) (k : Key) :
    (∃ err, exchange k e payload v = .error err v.draw) ∨
      ∃ v', exchange k e payload v = .ok () v' := by
  by_cases hfit : payload.length ≤ e.capacity
  · have hallocate : allocate v = .ok v.toc.nextVersion v.draw := rfl
    rw [exchange, if_pos hfit, bind_of_ok hallocate]
    rcases writePayload_cases (f := v.draw.file) hs hr e.offset ⟨k, v.toc.nextVersion⟩ payload
      e.capacity with ⟨err, hrefused⟩ | ⟨_, hok⟩
    · exact Or.inl ⟨err, bind_of_error (onFile_error hrefused)⟩
    · exact Or.inr ⟨_, (bind_of_ok (onFile_ok hok)).trans rfl⟩
  · obtain ⟨ho, hl⟩ := hmoves (Nat.not_le.mp hfit)
    rw [exchange, if_neg hfit]
    rcases enter_cases hs hr ho k with ⟨err, hrefused⟩ | ⟨v', hok, hrewritten⟩
    · exact Or.inl ⟨err, bind_of_error hrefused⟩
    · obtain ⟨f', hmark⟩ := hrewritten.markUnused hr hl
      exact Or.inr ⟨_, (bind_of_ok hok).trans ((bind_of_ok (onFile_ok hmark)).trans rfl)⟩

/-- **Giving an entry up** fails before anything is changed, or succeeds. -/
theorem giveUp_cases (hs : v.file.Seated) (hr : v.file.Roomy) (k : Key) (e : Entry) :
    (∃ err, giveUp k e v = .error err v) ∨ ∃ v', giveUp k e v = .ok () v' := by
  rcases markUnused_cases hs hr e.offset with ⟨err, hrefused⟩ | ⟨h, _, hok⟩
  · exact Or.inl ⟨err, bind_of_error (onFile_error hrefused)⟩
  · exact Or.inr ⟨_, (bind_of_ok (onFile_ok hok)).trans rfl⟩

/-! ## While the table describes the file -/

/-- **A table that describes the file offers slots inside it.** -/
lemma Loose.offers (hl : Loose v row shown) (payload : Bytes) : v.Offers payload := by
  intro e hfound
  obtain ⟨_, ⟨h, hm, hsize, _⟩, _⟩ := hl.described.release hfound
  obtain ⟨h', hm', hsame⟩ := hl.veils.slotSize hm
  have hb := hl.tiled.bounds hm'
  have hword : h'.capacity.toNat < lengthLimit := h'.capacity.toNat_lt
  rw [Header.slotSize] at hsame hb
  omega

/-- **The slot of a live entry can be left** while the table describes the file. -/
lemma Loose.leaves (hl : Loose v row shown) (hk : v.toc.find? k = some e)
    (hlive : e.isFree = false) (payload : Bytes) : v.Leaves e payload := by
  obtain ⟨h, hshown, hm, hu, _⟩ := hl.slot hk hlive
  refine ⟨⟨h, hl.tiled.readHeader hm⟩, fun e' hfound => ?_⟩
  obtain ⟨_, ⟨g, hg, hsize, hidle⟩, _⟩ := hl.described.release hfound
  obtain ⟨g', hg', hsame⟩ := hl.veils.slotSize hg
  have hne : e.offset ≠ e'.offset := by
    intro heq
    have hsingle := hl.described.single (show (e'.offset, h) ∈ shown from heq ▸ hshown) hg
    rw [← hsingle, hu] at hidle
    cases hidle
  have hapart := hl.tiled.fills.apart hm hg' hne
  have hlarge := h.size_le_slotSize
  rw [Entry.stop]
  omega

/-! ## The tail begins at the cursor -/

lemma seated_onFile {act : FileM α} (h : Maintains Seated act) :
    Maintains (fun v : Volume => v.file.Seated) (onFile act) := by
  intro v hv
  have hfinal := h v.file hv
  rw [onFile]
  cases hact : act v.file <;> rw [hact] at hfinal <;> exact hfinal

lemma seated_onToc (change : Toc → Toc) :
    Maintains (fun v : Volume => v.file.Seated) (onToc change) := .modify fun _ h => h

lemma maintains_tryCatch {P : Volume → Prop} {act : VolumeM α} {handle : Error → VolumeM α}
    (hact : Maintains P act) (hhandle : ∀ e, Maintains P (handle e)) :
    Maintains P (tryCatch act handle) := by
  intro v hv
  have hfinal := hact v hv
  simp only [tryCatch, tryCatchThe, MonadExceptOf.tryCatch, EStateM.tryCatch]
  cases h : act v with
  | ok x v' => exact hact.of_ok h hv
  | error e v' => exact hhandle e v' (hact.of_error h hv)

/-- **Placing** leaves the tail at the cursor. -/
lemma seated_place (stamp : Stamp) (payload : Bytes) :
    Maintains (fun v : Volume => v.file.Seated) (place stamp payload) := by
  intro v hv
  have hwrite : ∀ x : Nat × Nat, Maintains (fun v : Volume => v.file.Seated)
      (settle stamp payload x) := fun x =>
    maintains_tryCatch
      (.bind (seated_onFile (cuts_writePayload _ _ _ _).seated) fun _ => .pure)
      fun e => .bind (seated_onToc _) fun _ => .throw
  cases hfound : v.toc.freeSlot? (Header.size + payload.length) with
  | some e =>
    rw [place_of_some hfound]
    exact hwrite _ _ hv
  | none =>
    rw [place_of_none hfound]
    exact Maintains.bind (seated_onFile (cuts_reserve _).seated) (fun _ => hwrite _) v hv

/-- **Sealing** puts the tail at the cursor. -/
lemma seated_persist : Maintains (fun v : Volume => v.file.Seated) persist :=
  .get_bind fun _ => .ite (fun _ => .throw) fun _ => seated_onFile (seated_sealWith _ _)

/-- **A rebuild** leaves the tail at the cursor or cuts it off. -/
lemma seated_rebuild (limit : Nat) :
    Maintains (fun v : Volume => v.file.Seated) (rebuild limit) := by
  intro v hv
  have hrest : ∀ (result : Except Error ScanSummary) (highest : UInt32),
      Maintains (fun v : Volume => v.file.Seated) (do
        let summary ← onFile (RecordFile.orFail result)
        onToc (Toc.observeVersion highest)
        if summary.torn then onFile (RecordFile.truncate summary.stop)
        return summary) := by
    refine fun result highest => .bind (seated_onFile ?_) fun summary => .bind (seated_onToc _)
      fun _ => ?_
    · cases result with
      | ok x => exact .pure
      | error e => exact .throw
    · split
      · exact .bind (seated_onFile (seated_truncate _)) fun _ => .pure
      · exact .pure
  exact hrest _ _ { v with toc := _ } hv

lemma seated_runRebuild (limit : Nat) :
    Maintains (fun v : Volume => v.file.Seated) (runRebuild limit) := by
  have hobserve : Maintains (fun v : Volume => v.file.Seated) (Error.observe (rebuild limit)) := by
    intro v hv
    have hfinal := seated_rebuild limit v hv
    rw [Error.observe]
    cases h : rebuild limit v <;> rw [h] at hfinal <;> exact hfinal
  refine hobserve.bind fun result => .bind (seated_onToc _) fun _ => ?_
  cases result with
  | ok x => exact .pure
  | error e => exact .throw

/-- A file that presents a table has its tail at the cursor. -/
lemma seated_load {f : RecordFile} (h : load f = .ok (some v)) : v.file.Seated := by
  simp only [load, bind, Except.bind] at h
  split at h
  · cases h
  · split at h
    · cases h
    · cases h
      intro start hstart
      exact (Option.some.inj hstart).symm

lemma seated_mount (c : Content) : (mount (.ofContent c)).1.file.Seated := by
  unfold mount
  split
  · rename_i v hload
    exact seated_load hload
  · exact seated_of_none rfl

end SlotStore.Volume
