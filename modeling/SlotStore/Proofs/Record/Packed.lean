import Mathlib.Tactic.Common
import SlotStore.Proofs.Record.Tiled

/-!
# Records that lie back to back

Records that are appended to an empty file lie there back to back, each in a slot that it fills.
Where they lie and what the file holds follows from the records alone.

* `RecordFile.laid`, `RecordFile.laidRow` : records with their offsets, and their slots;
* `RecordFile.extent` : the bytes that records take;
* `RecordFile.Packed` : a file that holds some records and nothing else;
* `RecordFile.Packed.append`, `RecordFile.Packed.appendAll` : one more record, and several.
-/

namespace SlotStore.RecordFile

open Steps

variable {f f' : RecordFile} {x : Stamp × Bytes} {xs ys : List (Stamp × Bytes)} {o : Nat}

/-! ## Where records lie -/

/-- The header of the slot that a record fills. -/
def headerOf (x : Stamp × Bytes) : Header := .ofPayload x.1 x.2 x.2.length

/-- **Records that lie back to back**, each with its offset. -/
def laid : Nat → List (Stamp × Bytes) → List (Nat × Stamp × Bytes)
  | _, [] => []
  | o, x :: xs => (o, x) :: laid (o + (Header.size + x.2.length)) xs

/-- **The bytes that records take**: those of their headers and of their payloads. -/
def extent : List (Stamp × Bytes) → Nat
  | [] => 0
  | x :: xs => Header.size + x.2.length + extent xs

/-- The slots of records that lie back to back from the beginning. -/
def laidRow (xs : List (Stamp × Bytes)) : Row := (laid 0 xs).map fun q => (q.1, headerOf q.2)

lemma laid_append (o : Nat) (xs ys : List (Stamp × Bytes)) :
    laid o (xs ++ ys) = laid o xs ++ laid (o + extent xs) ys := by
  induction xs generalizing o with
  | nil => rfl
  | cons x xs ih =>
    rw [List.cons_append, laid, laid, ih, List.cons_append, extent, Nat.add_assoc]

lemma extent_append (xs ys : List (Stamp × Bytes)) : extent (xs ++ ys) = extent xs + extent ys := by
  induction xs with
  | nil => rw [List.nil_append, extent, Nat.zero_add]
  | cons x xs ih =>
    rw [List.cons_append, extent, extent, ih]
    omega

/-- The records are all there, in their order. -/
lemma map_laid (o : Nat) (xs : List (Stamp × Bytes)) : (laid o xs).map (·.2) = xs := by
  induction xs generalizing o with
  | nil => rfl
  | cons x xs ih => rw [laid, List.map_cons, ih]

/-- One more record is laid at the end. -/
lemma laidRow_snoc (xs : List (Stamp × Bytes)) (x : Stamp × Bytes) :
    laidRow (xs ++ [x]) = laidRow xs ++ [(extent xs, headerOf x)] := by
  rw [laidRow, laid_append, List.map_append, Nat.zero_add]
  rfl

/-! ## Files of records -/

/-- **A file holds some records and nothing else.** -/
structure Packed (xs : List (Stamp × Bytes)) (f : RecordFile) : Prop where
  tiled : f.Tiled (laidRow xs)
  unsealed : f.sealedAt = none
  cursor : f.cursor = extent xs
  size : f.content.size = f.cursor
  short : ∀ x ∈ xs, x.2.length < lengthLimit
  reads : ∀ q ∈ laid 0 xs, f.read q.1 = .ok (headerOf q.2, q.2.2)

namespace Packed

lemma nil : Packed [] (.ofContent .empty) where
  tiled := .empty
  unsealed := rfl
  cursor := rfl
  size := rfl
  short _ hx := by cases hx
  reads _ hq := by cases hq

/-- What a successful append has found: the payload is short enough, and the slot ends below the
last position. -/
lemma room (hp : Packed xs f) (h : RecordFile.append x.1 x.2 x.2.length f = .ok o f') :
    x.2.length < lengthLimit ∧ f.cursor + (Header.size + x.2.length) < positionLimit := by
  have hcapacity : Header.size + x.2.length - Header.size = x.2.length := by omega
  have hle := Nat.le_add_right Header.size x.2.length
  rw [RecordFile.append] at h
  obtain ⟨start, f₁, hreserve, _⟩ := bind_eq_ok h
  rcases Nat.lt_or_ge x.2.length lengthLimit with hshort | hlong
  · refine ⟨hshort, ?_⟩
    rcases hp.tiled.reserve hle (hcapacity.symm ▸ hshort) with
      ⟨f₂, hok, _, hsize, hsets⟩ | ⟨_, f₂, herr, _⟩
    · have hbelow := hsets.tiled.below
      rwa [hsize] at hbelow
    · cases hreserve.symm.trans herr
  · cases hreserve.symm.trans (reserve_tooLarge hle (hcapacity.symm ▸ hlong))

/-- **One more record is appended.** -/
theorem append (hp : Packed xs f) (h : RecordFile.append x.1 x.2 x.2.length f = .ok o f') :
    o = f.cursor ∧ Packed (xs ++ [x]) f' := by
  obtain ⟨hshort, hroom⟩ := hp.room h
  obtain ⟨f₁, happend, hsets, hcursor, hsize, hread⟩ :=
    hp.tiled.append x.1 (Nat.le_refl x.2.length) hshort hroom
  cases h.symm.trans happend
  have hno : ∀ p ∈ laidRow xs, p.1 ≠ f.cursor := hp.tiled.fills.offset_ne_stop
  have hrow : Row.put f.cursor (headerOf x) (laidRow xs) = laidRow (xs ++ [x]) := by
    rw [Row.put_eq_append hno, laidRow_snoc, hp.cursor]
  refine ⟨rfl, ⟨hrow ▸ hsets.tiled, hsets.unsealed, ?_, hsize, ?_, ?_⟩⟩
  · rw [hcursor, hp.cursor, extent_append]
    rfl
  · intro y hy
    rcases List.mem_append.mp hy with hy | hy
    · exact hp.short y hy
    · rw [List.mem_singleton.mp hy]
      exact hshort
  · intro q hq
    rw [laid_append, List.mem_append, Nat.zero_add, ← hp.cursor] at hq
    rcases hq with hq | hq
    · have hm : (q.1, headerOf q.2) ∈ laidRow xs := List.mem_map.mpr ⟨q, hq, rfl⟩
      exact (hsets.reads _ hm (hno _ hm)).trans (hp.reads q hq)
    · rw [List.mem_singleton.mp hq]
      exact hread

end Packed

/-- Appends records one after another. -/
def appendAll (xs : List (Stamp × Bytes)) : FileM Unit := xs.forM fun (stamp, payload) => do
  let _ ← append stamp payload payload.length

lemma appendAll_cons (x : Stamp × Bytes) (xs : List (Stamp × Bytes)) :
    appendAll (x :: xs) = append x.1 x.2 x.2.length >>= fun _ => appendAll xs := by
  have happend : (do let _ ← append x.1 x.2 x.2.length) = append x.1 x.2 x.2.length >>= fun _ =>
    (pure () : FileM Unit) := rfl
  show ((do let _ ← append x.1 x.2 x.2.length) >>= fun _ => appendAll xs) = _
  rw [happend, bind_assoc]
  rfl

/-- **Several records are appended.** -/
theorem Packed.appendAll (hp : Packed xs f) (h : RecordFile.appendAll ys f = .ok () f') :
    Packed (xs ++ ys) f' := by
  induction ys generalizing xs f with
  | nil =>
    cases h
    rw [List.append_nil]
    exact hp
  | cons y ys ih =>
    rw [appendAll_cons] at h
    obtain ⟨o, g, happend, hrest⟩ := bind_eq_ok h
    have hall := ih (hp.append happend).2 hrest
    rwa [List.append_assoc, List.singleton_append] at hall

/-- A file of records is an empty one to which they were appended. -/
lemma ofRecords_eq (xs : List (Stamp × Bytes)) : ofRecords xs =
    match appendAll xs (.ofContent .empty) with
    | .ok _ f => .ok f
    | .error e _ => .error e := rfl

lemma ofRecords_eq_ok_iff : ofRecords xs = .ok f ↔ appendAll xs (.ofContent .empty) = .ok () f := by
  rw [ofRecords_eq]
  cases appendAll xs (.ofContent .empty) with
  | ok u g =>
    constructor <;> intro h <;> cases h <;> rfl
  | error e g =>
    constructor <;> intro h <;> cases h

/-- **A file that records were appended to** holds them and nothing else. -/
theorem packed_ofRecords (h : ofRecords xs = .ok f) : Packed xs f :=
  Packed.nil.appendAll (ofRecords_eq_ok_iff.mp h)

end SlotStore.RecordFile
