import Mathlib.Tactic.Common
import SlotStore.Record.Content

/-!
# Ranges of a file

Two contents agree on a range if they hold the same bytes there.  Whatever reads only that range
cannot tell them apart, and a positioned write is seen only in its own range.

* `Content.Agrees` : the same bytes from a position up to another;
* `Content.slice_congr` : ranges that agree have the same slices;
* `Content.slice_write_append`, `Content.agrees_write_of_disjoint` : what a write puts in, and
  what it leaves;
* `Content.slice_add` : a slice in two parts.
-/

namespace SlotStore.Content

variable {c d e : Content}

/-- The same bytes at every position from `start` on and below `stop`. -/
def Agrees (c d : Content) (start stop : Nat) : Prop :=
  ∀ i, start ≤ i → i < stop → c.byte i = d.byte i

namespace Agrees

lemma symm {start stop : Nat} (h : Agrees c d start stop) : Agrees d c start stop :=
  fun i hl hr => (h i hl hr).symm

lemma trans {start stop : Nat} (h : Agrees c d start stop) (h' : Agrees d e start stop) :
    Agrees c e start stop := fun i hl hr => (h i hl hr).trans (h' i hl hr)

lemma mono {start stop start' stop' : Nat} (h : Agrees c d start stop) (hl : start ≤ start')
    (hr : stop' ≤ stop) : Agrees c d start' stop' :=
  fun i hi hi' => h i (by omega) (by omega)

end Agrees

/-! ## Slices -/

/-- Contents that agree on a range have the same bytes there. -/
lemma slice_congr {start n : Nat} (h : Agrees c d start (start + n)) :
    c.slice start n = d.slice start n := by
  refine List.map_congr_left fun i hi => ?_
  have hi : i < n := List.mem_range.mp hi
  exact h (start + i) (by omega) (by omega)

lemma slice_add (c : Content) (start m n : Nat) :
    c.slice start (m + n) = c.slice start m ++ c.slice (start + m) n := by
  simp [slice, List.range_add, Nat.add_assoc]

/-- A slice inside a file can be read. -/
lemma slice?_eq_some {start n : Nat} (h : start + n ≤ c.size) :
    c.slice? start n = some (c.slice start n) :=
  if_pos (Or.inl h)

/-! ## Writes -/

/-- A write changes nothing on either side of it. -/
lemma agrees_write_of_disjoint (c : Content) {position : Nat} {bs : Bytes}
    {start stop : Nat} (h : stop ≤ position ∨ position + bs.length ≤ start) :
    Agrees (c.write position bs) c start stop := by
  intro i hl hr
  rw [byte_write, if_neg]
  omega

/-- What was written is what is read there. -/
lemma slice_write_self (c : Content) (start : Nat) (bs : Bytes) :
    (c.write start bs).slice start bs.length = bs := by
  refine List.ext_getElem (by simp) fun i hi _ => ?_
  have hi : i < bs.length := by simpa using hi
  simp only [slice, List.getElem_map, List.getElem_range, byte_write]
  rw [if_pos (by omega), Nat.add_sub_cancel_left, List.getD_eq_getElem?_getD,
    List.getElem?_eq_getElem hi, Option.getD_some]

/-- The part of a write that begins somewhere inside it. -/
lemma slice_write_append (c : Content) (start : Nat) (front middle back : Bytes) :
    (c.write start (front ++ (middle ++ back))).slice (start + front.length) middle.length =
      middle := by
  have hall := c.slice_write_self start (front ++ (middle ++ back))
  rw [List.length_append, List.length_append, slice_add, slice_add] at hall
  have hrest := (List.append_inj hall (by simp)).2
  exact (List.append_inj hrest (by simp)).1

/-- One byte that is written changes one byte of a slice. -/
lemma slice_write_byte (c : Content) (start n i : Nat) (b : UInt8) :
    (c.write (start + i) [b]).slice start n = (c.slice start n).set i b := by
  refine List.ext_getElem (by simp) fun j hj _ => ?_
  have hj : j < n := by simpa using hj
  simp only [slice, List.getElem_map, List.getElem_range, byte_write, List.getElem_set,
    List.length_singleton]
  by_cases hij : i = j
  · subst hij
    rw [if_pos (by omega), if_pos rfl, Nat.sub_self]
    rfl
  · rw [if_neg (by omega), if_neg hij]

/-- A write inside a file does not make it longer. -/
lemma size_write_of_le (c : Content) {start : Nat} {bs : Bytes} (h : start + bs.length ≤ c.size) :
    (c.write start bs).size = c.size := by
  by_cases hbs : bs = []
  · rw [hbs, write, if_pos rfl]
  · rw [size_write c start bs hbs, Nat.max_eq_left h]

/-- A write makes no file shorter. -/
lemma le_size_write (c : Content) (start : Nat) (bs : Bytes) :
    c.size ≤ (c.write start bs).size := by
  by_cases hbs : bs = []
  · simp [write, hbs]
  · rw [size_write c start bs hbs]
    exact Nat.le_max_left _ _

/-! ## Lengths -/

/-- Cutting or growing a file changes nothing in front of the new end. -/
lemma agrees_resize (c : Content) {n stop : Nat} (start : Nat) (h : stop ≤ n) :
    Agrees (c.resize n) c start stop := by
  intro i _ hr
  rw [byte_resize, if_pos (by omega)]

lemma resize_self (c : Content) : c.resize c.size = c := by
  rw [resize, dif_pos (Nat.le_refl _)]

/-- A file that grows ends at the farther of the two ends. -/
lemma size_growTo (c : Content) (n : Nat) : (c.growTo n).size = max c.size n := by
  unfold growTo
  split
  · rw [size_resize, Nat.max_eq_right (by omega)]
  · rw [Nat.max_eq_left (by omega)]

/-- **Growing adds zeros**, which the bytes past the end are anyway. -/
lemma byte_growTo (c : Content) (n i : Nat) : (c.growTo n).byte i = c.byte i := by
  unfold growTo
  split
  · rename_i h
    rw [byte_resize]
    split
    · rfl
    · exact (c.byte_eq_zero i (by omega)).symm
  · rfl

lemma agrees_growTo (c : Content) (n start stop : Nat) : Agrees (c.growTo n) c start stop :=
  fun i _ _ => c.byte_growTo n i

end SlotStore.Content
