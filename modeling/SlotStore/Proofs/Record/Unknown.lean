import Mathlib.Tactic.Common
import SlotStore.Proofs.Record.Stable

/-!
# Operations on a file with unknown bytes

The bytes of a file may have been changed behind its back, so nothing is said of them here.  As long
as the tail begins at the cursor and the cursor is far from the last position, an operation on a
slot still either fails before it touches the file, or succeeds.

* `RecordFile.Seated` : the tail begins at the cursor, which every operation keeps;
* `RecordFile.Roomy` : one more slot of any size ends below the last position;
* `RecordFile.reserve_cases`, `RecordFile.writePayload_cases`, `RecordFile.markUnused_cases` : the
  two ways an operation can go;
* `RecordFile.Spares` : what was written leaves a header elsewhere as it was.
-/

namespace SlotStore.RecordFile

open Steps

variable {f f' g : RecordFile} {start size capacity o : Nat} {stamp : Stamp} {payload : Bytes}
  {h : Header} {α : Type}

/-! ## Where the tail begins -/

/-- **The tail begins at the cursor.** -/
def Seated (f : RecordFile) : Prop := ∀ start, f.sealedAt = some start → start = f.cursor

lemma seated_of_none (hu : f.sealedAt = none) : f.Seated := by
  intro start hs
  rw [hu] at hs
  cases hs

/-- What is steady leaves the tail at the cursor. -/
lemma Steady.seated (hs : f.Seated) (h : Steady f f') : f'.Seated := by
  rcases h with hu | ⟨hsealed, hcursor, -⟩
  · exact seated_of_none hu
  · intro start hstart
    rw [hcursor]
    exact hs start (hsealed ▸ hstart)

/-- What cuts the tail off leaves none that begins elsewhere. -/
lemma Cuts.seated {act : FileM α} (hc : Cuts act) : Maintains Seated act := by
  intro f hf
  cases h : act f with
  | ok x f' => exact seated_of_none (hc.ok h)
  | error e f' => exact (hc.error h).seated hf

/-- **Sealing puts the tail at the cursor.** -/
lemma seated_sealWith (stamp : Stamp) (payload : Bytes) : Maintains Seated (sealWith stamp payload)
    := by
  intro f hf
  cases h : sealWith stamp payload f with
  | error e f' => exact (steady_of_sealWith_error h).seated hf
  | ok start f' =>
    obtain ⟨hlen, hpos, hdrop⟩ := sealWith_eq_ok h
    rw [sealWith_eq hlen hdrop (by rwa [cursor_untailed])] at h
    cases h
    intro start hstart
    exact (Option.some.inj hstart).symm

/-- Cutting the file short leaves no tail elsewhere. -/
lemma seated_truncate (n : Nat) : Maintains Seated (truncate n) := by
  intro f _
  have hrest : Maintains (fun f => f.sealedAt = none) (do
      setLength n
      modify fun f => { f with cursor := n }) :=
    .bind (stable_unsealed.resize n) fun _ => .modify fun _ h => h
  exact seated_of_none (hrest { f with sealedAt := none } rfl)

/-! ## Room behind the last slot -/

/-- **One more slot of any size ends below the last position.** -/
def Roomy (f : RecordFile) : Prop := f.cursor + (Header.size + lengthLimit) ≤ positionLimit

/-- A tail at the cursor can be cut off. -/
lemma dropTail_seated (hs : f.Seated) (hr : f.Roomy) : dropTail f = .ok () f.untailed := by
  refine dropTail_eq fun start hstart => ?_
  have := hs start hstart
  have hsize : 0 < Header.size := by decide
  unfold Roomy at hr
  omega

/-! ## The two ways an operation can go -/

/-- **A payload is refused before the file is touched, or written.** -/
theorem writePayload_cases (hs : f.Seated) (hr : f.Roomy) (start : Nat) (stamp : Stamp)
    (payload : Bytes) (capacity : Nat) :
    (∃ e, writePayload start stamp payload capacity f = .error e f) ∨
      start ≤ f.cursor ∧ writePayload start stamp payload capacity f =
        .ok (.ofPayload stamp payload capacity)
          (f.untailed.filled start (.ofPayload stamp payload capacity) payload) := by
  by_cases hbegun : payload.length ≤ capacity ∧ capacity < lengthLimit ∧ start ≤ f.cursor
  · obtain ⟨hfit, hcap, hstart⟩ := hbegun
    refine Or.inr ⟨hstart, writePayload_eq hfit hcap hstart (dropTail_seated hs hr) ?_⟩
    unfold Roomy at hr
    omega
  · obtain ⟨e, hbegin⟩ := beginWrite_refused stamp hbegun
    exact Or.inl ⟨e, bind_of_error hbegin⟩

/-- **A slot is refused before the file is touched, or appended.** -/
theorem reserve_cases (hs : f.Seated) (hr : f.Roomy) (hsize : Header.size ≤ size) :
    (∃ e, reserve size f = .error e f) ∨ size < Header.size + lengthLimit ∧
      reserve size f = .ok f.cursor { f.untailed with
        content := (f.untailed.stamped size).growTo (f.cursor + size)
        cursor := f.cursor + size } := by
  rcases Nat.lt_or_ge (size - Header.size) lengthLimit with hcap | hcap
  · have hreserve := reserve_eq hsize hcap (dropTail_seated hs hr)
      (by rw [cursor_untailed]; unfold Roomy at hr; omega)
    rw [cursor_untailed] at hreserve
    exact Or.inr ⟨by omega, hreserve⟩
  · exact Or.inl ⟨_, reserve_tooLarge hsize hcap⟩

/-- **A header that can be read** is below the cursor and inside the file. -/
lemma readHeader_bounds (hh : f.readHeader start = .ok h) :
    start + Header.size ≤ f.cursor ∧ start + Header.size ≤ f.content.size ∧
      start < positionLimit ∧ f.content.HeaderAt start h := by
  unfold readHeader at hh
  obtain ⟨_, hrange, hh⟩ := exists_ok_of_bind hh
  obtain ⟨bs, hbytes, hdecode⟩ := exists_ok_of_bind hh
  obtain ⟨hpos, hin, -⟩ := of_bytesAt hbytes
  have hsize : Header.size ≠ 0 := by decide
  exact ⟨le_of_checkRange hrange, by omega, hpos, headerAt_of_bytesAt hbytes hdecode⟩

/-- **A slot is marked unused** unless its header cannot be read. -/
theorem markUnused_cases (hs : f.Seated) (hr : f.Roomy) (start : Nat) :
    (∃ e, markUnused start f = .error e f) ∨ ∃ h, f.readHeader start = .ok h ∧
      markUnused start f =
        .ok () { f.untailed with content := f.untailed.content.write (start + 1) [0] } := by
  cases hh : f.readHeader start with
  | error e =>
    refine Or.inl ⟨e, ?_⟩
    rw [markUnused, get_bind, hh]
    rfl
  | ok h =>
    have hb := (readHeader_bounds hh).1
    have hsize : 2 ≤ Header.size := by decide
    unfold Roomy at hr
    have hlimit : 0 < lengthLimit := by decide
    exact Or.inr ⟨h, rfl, markUnused_eq hh (dropTail_seated hs hr) (by omega)⟩

/-! ## Headers elsewhere -/

/-- **What was written leaves the header at a position as it was.** -/
structure Spares (f f' : RecordFile) (start : Nat) : Prop where
  cursor : f.cursor ≤ f'.cursor
  size : start + Header.size ≤ f.content.size → start + Header.size ≤ f'.content.size
  agrees : f.content.Agrees f'.content start (start + Header.size)

namespace Spares

lemma refl (f : RecordFile) (start : Nat) : Spares f f start :=
  ⟨Nat.le_refl _, id, fun _ _ _ => rfl⟩

lemma trans (h : Spares f g start) (h' : Spares g f' start) : Spares f f' start :=
  ⟨Nat.le_trans h.cursor h'.cursor, h'.size ∘ h.size, h.agrees.trans h'.agrees⟩

/-- A header that was not overwritten is read as before. -/
lemma readHeader (hsp : Spares f f' start) (hh : f.readHeader start = .ok h) :
    f'.readHeader start = .ok h := by
  obtain ⟨hcursor, hsize, hpos, hhead⟩ := readHeader_bounds hh
  exact readHeader_eq (hhead.congr hsp.agrees) (Nat.le_trans hcursor hsp.cursor) (hsp.size hsize)
    hpos

/-- Cutting the tail off leaves the headers below the cursor. -/
lemma untailed (hs : f.Seated) (hbelow : start + Header.size ≤ f.cursor) :
    Spares f f.untailed start := by
  cases hsealed : f.sealedAt with
  | none =>
    rw [untailed_of_none hsealed]
    exact refl f start
  | some o =>
    have ho := hs o hsealed
    rw [untailed_of_some hsealed]
    refine ⟨Nat.le_refl _, fun _ => ?_, ?_⟩
    · show _ ≤ (f.content.resize o).size
      rw [Content.size_resize]
      omega
    · exact (Content.agrees_resize f.content start (by omega)).symm

/-- A write elsewhere that does not move the cursor back leaves a header. -/
lemma write {bs : Bytes} {position stop cursor : Nat} (hcursor : f.cursor ≤ cursor)
    (hapart : start + Header.size ≤ position ∨ position + bs.length ≤ start) :
    Spares f { f with
      content := (f.content.write position bs).growTo stop
      cursor := cursor } start := by
  refine ⟨hcursor, fun hsize => ?_, ?_⟩
  · show _ ≤ ((f.content.write position bs).growTo stop).size
    have hwrite := f.content.le_size_write position bs
    rw [Content.size_growTo]
    omega
  · exact (((f.content.write position bs).agrees_growTo stop start _).trans
      (f.content.agrees_write_of_disjoint hapart)).symm

end Spares

end SlotStore.RecordFile
