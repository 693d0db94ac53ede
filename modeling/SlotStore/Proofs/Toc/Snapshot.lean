import Mathlib.Tactic.Common
import SlotStore.Proofs.Token
import SlotStore.Toc.Snapshot

/-!
# The written table of contents read back

A snapshot is read back from its payload if its offsets and sizes fit words of eight bytes and its
lists fit a MessagePack array.  Each list is no longer than the payload, so the second is given for
every payload that fits a slot.

* `Entry.Fits`, `Snapshot.Fits` : numbers that the written form can hold;
* `Snapshot.read?_write` : the round trip;
* `Snapshot.length_le_write` : how long the lists can be.
-/

namespace SlotStore

/-- An entry whose position and size fit words of eight bytes. -/
structure Entry.Fits (e : Entry) : Prop where
  offset : e.offset < Bytes.span 8
  size : e.size < Bytes.span 8

namespace Snapshot

open MessagePack

/-- A snapshot all of whose numbers fit words of eight bytes. -/
structure Fits (s : Snapshot) : Prop where
  dataEnd : s.dataEnd < Bytes.span 8
  entries : ∀ e ∈ s.entries, e.Fits
  retired : ∀ e ∈ s.retired, e.Fits

/-! ## Fields -/

/-- A key is read as it was written. -/
lemma key?_writeBinary (k : Key) (rest : Bytes) :
    key? (writeBinary k.bytes ++ rest) = some (k, rest) := by
  have hlen : k.bytes.length < Bytes.span 4 := by
    rw [k.length_bytes]
    decide
  rw [key?, token?_writeBinary hlen]
  show (Key.ofBytes? k.bytes).map (·, rest) = _
  rw [Key.ofBytes?_bytes]
  rfl

lemma word32?_writeUnsigned (n : UInt32) (rest : Bytes) :
    word32? (writeUnsigned n.toNat ++ rest) = some (n, rest) := by
  have hn : n.toNat < Bytes.span 4 := n.toNat_lt
  rw [word32?, natural?_writeUnsigned hn (by decide)]
  show some (UInt32.ofNat n.toNat, rest) = _
  rw [UInt32.ofNat_toNat]

lemma word64?_writeUnsigned {n : Nat} (hn : n < Bytes.span 8) (rest : Bytes) :
    word64? (writeUnsigned n ++ rest) = some (n, rest) :=
  natural?_writeUnsigned hn (Nat.le_refl _) rest

/-! ## Entries -/

/-- **An entry** is read as it was written. -/
lemma readEntry?_writeEntry {e : Entry} (he : e.Fits) (rest : Bytes) :
    readEntry? (writeEntry e ++ rest) = some (e, rest) := by
  have hfields : writeEntry e ++ rest = writeArray 5 ++ (writeBinary e.key.bytes ++
      (writeUnsigned e.offset ++ (writeUnsigned e.size ++ (writeBool e.isFree ++
        (writeUnsigned e.version.toNat ++ rest))))) := by
    simp only [writeEntry, List.append_assoc]
  have hcount : 5 = entryFields.length := rfl
  rw [ readEntry?, hfields, record?_writeArray hcount (by decide)]
  simp only [entryFields, sequence?, key?_writeBinary, word64?_writeUnsigned he.offset,
    word64?_writeUnsigned he.size, bool?_writeBool, word32?_writeUnsigned, bind, Option.map_some,
    Option.bind_some]
  rfl

/-- **A list of entries** is read as it was written. -/
lemma list?_writeEntries {es : List Entry} (hlen : es.length < Bytes.span 4)
    (hes : ∀ e ∈ es, e.Fits) (rest : Bytes) :
    list? readEntry? (writeEntries es ++ rest) = some (es, rest) :=
  list?_writeArray hlen (fun e he => readEntry?_writeEntry (hes e he)) rest

/-! ## The whole snapshot -/

/-- **A snapshot is read back** from its payload. -/
theorem read?_write {s : Snapshot} (hs : s.Fits) (hentries : s.entries.length < Bytes.span 4)
    (hretired : s.retired.length < Bytes.span 4) : read? s.write = some s := by
  have hfields : s.write = writeArray 5 ++ (writeUnsigned s.format.toNat ++
      (writeUnsigned s.dataEnd ++ (writeUnsigned s.nextVersion.toNat ++
        (writeEntries s.entries ++ (writeEntries s.retired ++ []))))) := by
    simp only [write, List.append_assoc, List.append_nil]
  have hcount : 5 = fields.length := rfl
  rw [read?, hfields, record?_writeArray hcount (by decide)]
  simp only [fields, sequence?, word32?_writeUnsigned, word64?_writeUnsigned hs.dataEnd,
    list?_writeEntries hentries hs.entries, list?_writeEntries hretired hs.retired, bind,
    Option.map_some, Option.bind_some]
  rfl

lemma length_le_writeEntries (es : List Entry) : es.length ≤ (writeEntries es).length := by
  have hentry : ∀ e : Entry, 1 ≤ (writeEntry e).length := by
    intro e
    simp [writeEntry, writeArray]
  rw [writeEntries, List.length_append]
  refine Nat.le_trans ?_ (Nat.le_add_left _ _)
  induction es with
  | nil => exact Nat.le_refl 0
  | cons e es ih =>
    have := hentry e
    rw [List.flatMap_cons, List.length_append, List.length_cons]
    omega

lemma length_le_write (s : Snapshot) :
    s.entries.length ≤ s.write.length ∧ s.retired.length ≤ s.write.length := by
  have hentries := length_le_writeEntries s.entries
  have hretired := length_le_writeEntries s.retired
  simp only [write, List.length_append]
  omega

end Snapshot

end SlotStore
