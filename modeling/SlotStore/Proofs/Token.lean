import Mathlib.Tactic.Common
import SlotStore.Codec.MessagePack.Record

/-!
# Tokens read back

A token that was written is read back, whatever follows it, and so are the typed values and the
sequences that are made of tokens.

* `token?_writeUnsigned`, `token?_writeArray`, `token?_writeBinary`, `token?_writeBool` : tokens;
* `natural?_writeUnsigned`, `bool?_writeBool` : typed values;
* `list?_writeArray` : an array, given that its items are read back.
-/

namespace SlotStore.MessagePack

/-- A word is read as it was written. -/
lemma word?_bigEndian {width n : Nat} (hn : n < Bytes.span width) (rest : Bytes) :
    word? width (Bytes.bigEndian width n ++ rest) = some (n, rest) := by
  have hsplit := Bytes.splitExactly?_append (Bytes.bigEndian width n) rest
  rw [Bytes.length_bigEndian] at hsplit
  rw [word?, hsplit, Option.map_some]
  exact congrArg (fun m => some (m, rest)) (Bytes.ofBigEndian_bigEndian hn)

/-- Bytes behind their length are read as they were written. -/
lemma sized?_append {width : Nat} {bs : Bytes} (hn : bs.length < Bytes.span width) (rest : Bytes) :
    sized? width (Bytes.bigEndian width bs.length ++ (bs ++ rest)) = some (bs, rest) := by
  rw [sized?, word?_bigEndian hn, Option.bind_some]
  exact Bytes.splitExactly?_append bs rest

lemma token?_byte {n : Nat} (hn : n < 256) (rest : Bytes) :
    token? (UInt8.ofNat n :: rest) = afterMarker? n rest := by
  rw [token?, UInt8.toNat_ofNat_of_lt' hn]

lemma token?_marked (marker : UInt8) (width n : Nat) (rest : Bytes) :
    token? (marked marker width n ++ rest) =
      afterMarker? marker.toNat (Bytes.bigEndian width n ++ rest) := rfl

/-! ## Tokens -/

/-- **A number** is read as it was written. -/
theorem token?_writeUnsigned {n : Nat} (hn : n < Bytes.span 8) (rest : Bytes) :
    token? (writeUnsigned n ++ rest) = some (.unsigned n, rest) := by
  unfold writeUnsigned
  split_ifs with h7 h1 h2 h4
  · rw [List.singleton_append, token?_byte (by omega)]
    exact if_pos h7
  · rw [token?_marked]
    simp [afterMarker?, word?_bigEndian h1]
  · rw [token?_marked]
    simp [afterMarker?, word?_bigEndian h2]
  · rw [token?_marked]
    simp [afterMarker?, word?_bigEndian h4]
  · rw [token?_marked]
    simp [afterMarker?, word?_bigEndian hn]

/-- **The head of an array** is read as it was written. -/
theorem token?_writeArray {n : Nat} (hn : n < Bytes.span 4) (rest : Bytes) :
    token? (writeArray n ++ rest) = some (.array n, rest) := by
  unfold writeArray
  split_ifs with h4 h2
  · rw [List.singleton_append, token?_byte (by omega)]
    have hcase : afterMarker? (0x90 + n) rest = some (.array (0x90 + n - 0x90), rest) :=
      (if_neg (by omega)).trans ((if_neg (by omega)).trans (if_pos (by omega)))
    rw [hcase, Nat.add_sub_cancel_left]
  · rw [token?_marked]
    simp [afterMarker?, word?_bigEndian h2]
  · rw [token?_marked]
    simp [afterMarker?, word?_bigEndian hn]

/-- **Bytes** are read as they were written. -/
theorem token?_writeBinary {bs : Bytes} (hn : bs.length < Bytes.span 4) (rest : Bytes) :
    token? (writeBinary bs ++ rest) = some (.binary bs, rest) := by
  unfold writeBinary
  rw [List.append_assoc]
  split_ifs with h1 h2
  · exact congrArg (Option.map _) (sized?_append h1 rest)
  · exact congrArg (Option.map _) (sized?_append h2 rest)
  · exact congrArg (Option.map _) (sized?_append hn rest)

/-- **A truth value** is read as it was written. -/
theorem token?_writeBool (b : Bool) (rest : Bytes) :
    token? (writeBool b ++ rest) = some (.bool b, rest) := by
  cases b <;> rfl

/-! ## Typed values -/

theorem natural?_writeUnsigned {n bound : Nat} (hn : n < bound) (hbound : bound ≤ Bytes.span 8)
    (rest : Bytes) : natural? bound (writeUnsigned n ++ rest) = some (n, rest) := by
  have hint : integer? 0 bound (writeUnsigned n ++ rest) = some ((n : Int), rest) := by
    rw [integer?, token?_writeUnsigned (Nat.lt_of_lt_of_le hn hbound)]
    exact if_pos ⟨Int.natCast_nonneg n, Int.ofNat_lt.mpr hn⟩
  rw [natural?, hint]
  rfl

theorem bool?_writeBool (b : Bool) (rest : Bytes) :
    bool? (writeBool b ++ rest) = some (b, rest) := by
  rw [bool?, token?_writeBool]
  rfl

/-! ## Sequences -/

section Sequence

variable {α : Type} {read : Bytes → Option (α × Bytes)} {write : α → Bytes}

/-- **Items one after another** are read as they were written, if each of them is. -/
lemma items?_flatMap {xs : List α}
    (hread : ∀ x ∈ xs, ∀ rest, read (write x ++ rest) = some (x, rest)) (rest : Bytes) :
    items? read xs.length (xs.flatMap write ++ rest) = some (xs, rest) := by
  induction xs with
  | nil => rfl
  | cons x xs ih =>
    have hx := hread x List.mem_cons_self (xs.flatMap write ++ rest)
    have hxs := ih fun y hy => hread y (List.mem_cons_of_mem x hy)
    rw [List.flatMap_cons, List.append_assoc, List.length_cons, items?, hx]
    simp only [bind, Option.bind_some, hxs, pure]

/-- An array is read back if each of its items is. -/
theorem list?_writeArray {xs : List α} (hlen : xs.length < Bytes.span 4)
    (hread : ∀ x ∈ xs, ∀ rest, read (write x ++ rest) = some (x, rest)) (rest : Bytes) :
    list? read (writeArray xs.length ++ xs.flatMap write ++ rest) = some (xs, rest) := by
  rw [list?, List.append_assoc, token?_writeArray hlen]
  exact items?_flatMap hread rest

end Sequence

/-- **A record written as an array** is read field by field. -/
theorem record?_writeArray {σ : Type} {fields : List (Field σ)} {n : Nat} (hn : n = fields.length)
    (hlen : n < Bytes.span 4) (depth : Nat) (draft : σ) (rest : Bytes) :
    record? fields depth draft (writeArray n ++ rest) = sequence? fields draft rest := by
  rw [record?, token?_writeArray hlen]
  exact if_pos hn

end SlotStore.MessagePack
