import Mathlib.Tactic.Common
import SlotStore.Proofs.Record.Content
import SlotStore.Proofs.Record.Header

/-!
# Rows of slots

The data region of a record file is a row of slots, each where the one before it ends.  A `Row`
lists them with their headers, and `Row.Fills` says that a row lies in a file and fills a range of
it exactly.  Every operation on slots is stated through this view.

* `Content.HeaderAt` : the header that stands at an offset;
* `Row.Fills` : the slots of a row fill a range;
* `Row.put` : a row in which one slot is rewritten, or a new one is appended;
* `Row.Fills.eq_of_overlap`, `Row.Fills.exists_mem_of_lt` : no byte is in two slots, and every byte
  is in one.
-/

namespace SlotStore

/-- The header at an offset of a file. -/
def Content.HeaderAt (c : Content) (offset : Nat) (h : Header) : Prop :=
  Header.Spells (c.slice offset Header.size) h

/-- A slot has room for its header. -/
lemma Header.size_le_slotSize (h : Header) : Header.size ≤ h.slotSize := Nat.le_add_right _ _

lemma Header.slotSize_pos (h : Header) : 0 < h.slotSize := by
  have := h.size_le_slotSize
  rw [Header.size] at this
  omega

/-- A header stays where the bytes do. -/
lemma Content.HeaderAt.congr {c d : Content} {offset : Nat} {h : Header} (hc : c.HeaderAt offset h)
    (ha : c.Agrees d offset (offset + Header.size)) : d.HeaderAt offset h := by
  rw [Content.HeaderAt, ← Content.slice_congr ha]
  exact hc

/-- Bytes spell one header. -/
lemma Content.HeaderAt.unique {c : Content} {offset : Nat} {h h' : Header}
    (hc : c.HeaderAt offset h) (hc' : c.HeaderAt offset h') : h = h' := by
  have hok : Header.decode offset _ = .ok h := Header.decode_eq_ok_iff.mpr hc
  cases hok.symm.trans (Header.decode_eq_ok_iff.mpr hc')
  rfl

/-- The payload fits into the slot of its header. -/
lemma Content.HeaderAt.length_le {c : Content} {offset : Nat} {h : Header}
    (hc : c.HeaderAt offset h) : Header.size + h.length.toNat ≤ h.slotSize := by
  have hfits := UInt32.le_iff_toNat_le.mp hc.fits
  rw [Header.slotSize]
  omega

/-- Slots with their headers, in the order of the file. -/
abbrev Row := List (Nat × Header)

namespace Row

/-- The offset and size of each slot. -/
def extents (row : Row) : List (Nat × Nat) := row.map fun p => (p.1, p.2.slotSize)

/-- The bytes of several slots, by their offsets and sizes. -/
def bytes : List (Nat × Nat) → Nat
  | [] => 0
  | x :: xs => x.2 + bytes xs

lemma bytes_append (xs ys : List (Nat × Nat)) : bytes (xs ++ ys) = bytes xs + bytes ys := by
  induction xs with
  | nil => rw [List.nil_append, bytes, Nat.zero_add]
  | cons x xs ih => rw [List.cons_append, bytes, bytes, ih, Nat.add_assoc]

lemma bytes_perm {xs ys : List (Nat × Nat)} (h : xs.Perm ys) : bytes xs = bytes ys := by
  induction h with
  | nil => rfl
  | cons x _ ih => rw [bytes, bytes, ih]
  | swap x y xs => rw [bytes, bytes, bytes, bytes, Nat.add_left_comm]
  | trans _ _ ih ih' => exact ih.trans ih'

/-- **The slots of a row fill a range of a file**: each begins where the one before it ends. -/
inductive Fills (c : Content) : (start : Nat) → Row → (stop : Nat) → Prop
  | nil (start : Nat) : Fills c start [] start
  | cons {start stop : Nat} {h : Header} {rest : Row} (head : c.HeaderAt start h)
      (tail : Fills c (start + h.slotSize) rest stop) : Fills c start ((start, h) :: rest) stop

namespace Fills

variable {c d : Content} {start stop : Nat} {row : Row}

lemma le (hf : Fills c start row stop) : start ≤ stop := by
  induction hf with
  | nil => exact Nat.le_refl _
  | cons _ _ ih => omega

lemma append {middle : Nat} {rest : Row} (hf : Fills c start row middle)
    (hf' : Fills c middle rest stop) : Fills c start (row ++ rest) stop := by
  induction hf with
  | nil => exact hf'
  | cons head _ ih => exact .cons head (ih hf')

/-- The first slots of a row fill the beginning of its range. -/
lemma split {rest : Row} (hf : Fills c start (row ++ rest) stop) :
    ∃ middle, Fills c start row middle ∧ Fills c middle rest stop := by
  induction row generalizing start with
  | nil => exact ⟨start, .nil start, hf⟩
  | cons p row ih =>
    cases hf with
    | cons head tail =>
      obtain ⟨middle, hrow, hrest⟩ := ih tail
      exact ⟨middle, .cons head hrow, hrest⟩

/-- Each slot of a row is inside the range. -/
lemma bounds (hf : Fills c start row stop) {o : Nat} {h : Header} (hm : (o, h) ∈ row) :
    start ≤ o ∧ o + h.slotSize ≤ stop := by
  induction hf with
  | nil => cases hm
  | @cons start stop h' rest _ tail ih =>
    rcases List.mem_cons.mp hm with heq | hm
    · cases heq
      exact ⟨Nat.le_refl _, tail.le⟩
    · have := ih hm
      omega

lemma headerAt (hf : Fills c start row stop) {o : Nat} {h : Header} (hm : (o, h) ∈ row) :
    c.HeaderAt o h := by
  induction hf with
  | nil => cases hm
  | cons head _ ih =>
    rcases List.mem_cons.mp hm with heq | hm
    · cases heq
      exact head
    · exact ih hm

/-- **The slots of a row follow one another.** -/
lemma pairwise (hf : Fills c start row stop) :
    row.Pairwise fun p q => p.1 + p.2.slotSize ≤ q.1 := by
  induction hf with
  | nil => exact .nil
  | cons _ tail ih => exact .cons (fun p hp => (tail.bounds hp).1) ih

/-- **Two slots that share a byte are the same slot.** -/
theorem eq_of_overlap (hf : Fills c start row stop) {p q : Nat × Header} (hp : p ∈ row)
    (hq : q ∈ row) (hpq : p.1 < q.1 + q.2.slotSize) (hqp : q.1 < p.1 + p.2.slotSize) : p = q := by
  induction hf with
  | nil => cases hp
  | cons _ tail ih =>
    rcases List.mem_cons.mp hp with hp | hp <;> rcases List.mem_cons.mp hq with hq | hq
    · rw [hp, hq]
    · have hb := (tail.bounds hq).1
      subst hp
      simp only at hqp
      omega
    · have hb := (tail.bounds hp).1
      subst hq
      simp only at hpq
      omega
    · exact ih hp hq

/-- One position has one header. -/
lemma header_unique (hf : Fills c start row stop) {o : Nat} {h h' : Header} (hm : (o, h) ∈ row)
    (hm' : (o, h') ∈ row) : h = h' := by
  have hs := h.slotSize_pos
  have hs' := h'.slotSize_pos
  exact (Prod.mk.inj (hf.eq_of_overlap hm hm' (by simpa using hs') (by simpa using hs))).2

/-- Different slots lie apart. -/
lemma apart (hf : Fills c start row stop) {o o' : Nat} {h h' : Header} (hm : (o, h) ∈ row)
    (hm' : (o', h') ∈ row) (hne : o ≠ o') : o + h.slotSize ≤ o' ∨ o' + h'.slotSize ≤ o := by
  by_contra hover
  have hover := not_or.mp hover
  exact hne (Prod.mk.inj (hf.eq_of_overlap hm hm' (Nat.not_le.mp hover.2)
    (Nat.not_le.mp hover.1))).1

/-- **Every byte of the range is in a slot.** -/
theorem exists_mem_of_lt (hf : Fills c start row stop) {i : Nat} (hl : start ≤ i) (hr : i < stop) :
    ∃ p ∈ row, p.1 ≤ i ∧ i < p.1 + p.2.slotSize := by
  induction hf with
  | nil => omega
  | @cons start stop h rest _ _ ih =>
    by_cases hi : i < start + h.slotSize
    · exact ⟨(start, h), List.mem_cons_self, hl, hi⟩
    · obtain ⟨p, hp, hpi⟩ := ih (by omega) hr
      exact ⟨p, List.mem_cons_of_mem _ hp, hpi⟩

/-- **The slots of a row fill the range.** -/
lemma bytes_extents (hf : Fills c start row stop) : start + bytes row.extents = stop := by
  induction hf with
  | nil => rfl
  | cons _ _ ih =>
    rw [← ih, Nat.add_assoc]
    rfl

lemma length_le (hf : Fills c start row stop) : start + row.length ≤ stop := by
  induction hf with
  | nil => simp
  | @cons start stop h rest _ _ ih =>
    have := h.slotSize_pos
    simp only [List.length_cons]
    omega

/-- A row is seen by the bytes of its range alone. -/
lemma congr (hf : Fills c start row stop) (ha : c.Agrees d start stop) :
    Fills d start row stop := by
  induction hf with
  | nil => exact .nil _
  | @cons start stop h rest head tail ih =>
    have hs := h.size_le_slotSize
    have ht := tail.le
    exact .cons (head.congr (ha.mono (Nat.le_refl _) (by omega)))
      (ih (ha.mono (by omega) (Nat.le_refl _)))

end Fills

/-! ## Rewriting a slot -/

/-- A row with a header at an offset, in place of the one there or else as a new slot behind the
last. -/
def put (o : Nat) (h : Header) (row : Row) : Row :=
  if ∃ p ∈ row, p.1 = o then row.map fun p => if p.1 = o then (o, h) else p else row ++ [(o, h)]

/-- The slots of a row after a header was put in. -/
lemma mem_put {o : Nat} {h : Header} {row : Row} {p : Nat × Header} :
    p ∈ put o h row ↔ p = (o, h) ∨ p ∈ row ∧ p.1 ≠ o := by
  unfold put
  split
  · rename_i hex
    simp only [List.mem_map]
    constructor
    · rintro ⟨q, hq, rfl⟩
      by_cases hqo : q.1 = o
      · exact Or.inl (if_pos hqo)
      · rw [if_neg hqo]
        exact Or.inr ⟨hq, hqo⟩
    · rintro (rfl | ⟨hp, hpo⟩)
      · obtain ⟨q, hq, hqo⟩ := hex
        exact ⟨q, hq, if_pos hqo⟩
      · exact ⟨p, hp, if_neg hpo⟩
  · rename_i hex
    simp only [List.mem_append, List.mem_singleton]
    constructor
    · rintro (hp | hp)
      · exact Or.inr ⟨hp, fun hpo => hex ⟨p, hp, hpo⟩⟩
      · exact Or.inl hp
    · rintro (hp | ⟨hp, _⟩)
      · exact Or.inr hp
      · exact Or.inl hp

lemma forall_put {P : Header → Prop} {o : Nat} {h : Header} {row : Row} (hrow : ∀ p ∈ row, P p.2)
    (hh : P h) : ∀ p ∈ put o h row, P p.2 := by
  intro p hp
  rcases mem_put.mp hp with rfl | ⟨hp, _⟩
  · exact hh
  · exact hrow p hp

/-- Headers put at two positions do not depend on the order. -/
lemma mem_put_comm {o' : Nat} {h' : Header} (hne : o ≠ o') {p : Nat × Header}
    (hp : p ∈ put o h (put o' h' row)) : p ∈ put o' h' (put o h row) := by
  simp only [mem_put] at hp ⊢
  rcases hp with rfl | ⟨rfl | hp, hpo⟩
  · exact Or.inr ⟨Or.inl rfl, hne⟩
  · exact Or.inl rfl
  · exact Or.inr ⟨Or.inr ⟨hp.1, hpo⟩, hp.2⟩

/-- The header that is put last at a position stays. -/
lemma put_put (o : Nat) (h h' : Header) (row : Row) : put o h' (put o h row) = put o h' row := by
  have hmem : ∃ p ∈ put o h row, p.1 = o := ⟨(o, h), mem_put.mpr (Or.inl rfl), rfl⟩
  by_cases hex : ∃ p ∈ row, p.1 = o
  · rw [put, if_pos hmem, put, put, if_pos hex, if_pos hex, List.map_map]
    refine List.map_congr_left fun p _ => ?_
    by_cases hp : p.1 = o
    · simp only [Function.comp, if_pos hp, if_true]
    · simp only [Function.comp, if_neg hp]
  · have hfix : (row.map fun p => if p.1 = o then (o, h') else p) = row :=
      (List.map_congr_left fun p hp => if_neg fun hpo => hex ⟨p, hp, hpo⟩).trans (List.map_id row)
    rw [put, if_pos hmem, put, put, if_neg hex, if_neg hex, List.map_append, hfix]
    simp only [List.map_cons, List.map_nil, if_true]

/-- A header at a new position goes to the end. -/
lemma put_eq_append {o : Nat} {h : Header} {row : Row} (hno : ∀ p ∈ row, p.1 ≠ o) :
    put o h row = row ++ [(o, h)] :=
  if_neg fun ⟨p, hp, hpo⟩ => hno p hp hpo

namespace Fills

variable {c d : Content} {start stop : Nat} {row : Row}

lemma map_of_lt (hf : Fills c start row stop) {o : Nat} (h : Header) (ho : o < start) :
    (row.map fun p => if p.1 = o then (o, h) else p) = row := by
  refine (List.map_congr_left fun p hp => ?_).trans (List.map_id row)
  have := (hf.bounds (o := p.1) (h := p.2) hp).1
  exact if_neg (by omega)

/-- **Rewriting one slot** leaves a row that fills the same range, as long as its size stays and no
byte outside it changes. -/
theorem put_of_mem (hf : Fills c start row stop) {o : Nat} {h h' : Header} (hm : (o, h) ∈ row)
    (hsize : h'.slotSize = h.slotSize) (hd : d.HeaderAt o h') (hl : c.Agrees d start o)
    (hr : c.Agrees d (o + h.slotSize) stop) : Fills d start (put o h' row) stop := by
  rw [put, if_pos ⟨_, hm, rfl⟩]
  induction hf with
  | nil => cases hm
  | @cons start stop hh rest head tail ih =>
    rcases List.mem_cons.mp hm with heq | hm
    · cases heq
      rw [List.map_cons, if_pos rfl, tail.map_of_lt _ (by have := h.slotSize_pos; omega)]
      refine .cons hd ?_
      rw [hsize]
      exact tail.congr hr
    · have hb := (tail.bounds hm).1
      have hp := hh.slotSize_pos
      have hs := hh.size_le_slotSize
      rw [List.map_cons, if_neg (by simp only; omega)]
      exact .cons (head.congr (hl.mono (Nat.le_refl _) (by omega)))
        (ih hm (hl.mono (by omega) (Nat.le_refl _)) hr)

lemma offset_ne_stop (hf : Fills c start row stop) : ∀ p ∈ row, p.1 ≠ stop := by
  intro p hp hps
  have hb := (hf.bounds (o := p.1) (h := p.2) hp).2
  have := p.2.slotSize_pos
  omega

/-- **Appending a slot** extends the range. -/
theorem put_stop (hf : Fills c start row stop) {h : Header} (hd : d.HeaderAt stop h)
    (ha : c.Agrees d start stop) : Fills d start (put stop h row) (stop + h.slotSize) := by
  rw [put_eq_append hf.offset_ne_stop]
  exact (hf.congr ha).append (.cons hd (.nil _))

/-- A header of the same size leaves the extents of the row. -/
lemma extents_put_of_mem (hf : Fills c start row stop) {o : Nat} {h h' : Header} (hm : (o, h) ∈ row)
    (hsize : h'.slotSize = h.slotSize) : (put o h' row).extents = row.extents := by
  rw [put, if_pos ⟨_, hm, rfl⟩, extents, extents, List.map_map]
  refine List.map_congr_left fun p hp => ?_
  by_cases hpo : p.1 = o
  · have hp' : (o, p.2) ∈ row := hpo ▸ hp
    rw [Function.comp, if_pos hpo, hsize, hf.header_unique hm hp', hpo]
  · rw [Function.comp, if_neg hpo]

/-- A slot at the end of the row adds its extent. -/
lemma extents_put_stop (hf : Fills c start row stop) (h : Header) :
    (put stop h row).extents = row.extents ++ [(stop, h.slotSize)] := by
  rw [put_eq_append hf.offset_ne_stop, extents, List.map_append]
  rfl

end Fills

end Row

end SlotStore
