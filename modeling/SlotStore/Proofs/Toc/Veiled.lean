import Mathlib.Tactic.Common
import SlotStore.Proofs.Toc.Merge

/-!
# Tables that hide slots in use

A file that a crash left may have several slots of one key in use.  A scan makes the newest of them
the slot of the key and retires the others, but their headers stay as they are.  The table then
describes a row in which those slots are marked unused, and that row *veils* the one in the file.

* `Row.Veils` : the slots of a row are those of another one or their tombstones;
* `Row.uses` : how many slots a key has in use;
* `Toc.Describes.merge_veiled`, `Toc.Describes.mergeAll_veiled` : what any row is merged to.
-/

namespace SlotStore

namespace Row

variable {row shown : Row} {o : Nat} {h old : Header} {k : Key}

/-- **A row veils another one** if each of its slots is one of that row or its tombstone. -/
def Veils (shown row : Row) : Prop :=
  ∀ ⦃o h⦄, (o, h) ∈ shown → ∃ h', (o, h') ∈ row ∧ (h = h' ∨ h = h'.tombstone)

namespace Veils

lemma refl (row : Row) : Veils row row := fun _ h hm => ⟨h, hm, Or.inl rfl⟩

/-- What a veil shows in use is in use. -/
lemma mem_of_inUse (hv : Veils shown row) (hm : (o, h) ∈ shown) (hu : h.inUse = true) :
    (o, h) ∈ row := by
  obtain ⟨h', hm', rfl | rfl⟩ := hv hm
  · exact hm'
  · cases hu

/-- A veiled slot is as large as it was. -/
lemma slotSize (hv : Veils shown row) (hm : (o, h) ∈ shown) :
    ∃ h', (o, h') ∈ row ∧ h'.slotSize = h.slotSize := by
  obtain ⟨h', hm', rfl | rfl⟩ := hv hm
  · exact ⟨_, hm', rfl⟩
  · exact ⟨_, hm', rfl⟩

lemma offset_ne (hv : Veils shown row) (hno : ∀ p ∈ row, p.1 ≠ o) : ∀ p ∈ shown, p.1 ≠ o := by
  intro p hp
  obtain ⟨h', hm', _⟩ := hv (o := p.1) (h := p.2) hp
  exact hno (p.1, h') hm'

/-- A header that is put lifts the veil. -/
lemma put (hv : Veils shown row) (o : Nat) (h : Header) :
    Veils (Row.put o h shown) (Row.put o h row) := by
  intro o' h₁ hm
  rcases mem_put.mp hm with heq | ⟨hm, hne⟩
  · exact ⟨h₁, mem_put.mpr (Or.inl heq), Or.inl rfl⟩
  · obtain ⟨h', hm', hsame⟩ := hv hm
    exact ⟨h', mem_put.mpr (Or.inr ⟨hm', hne⟩), hsame⟩

/-- A new slot may be hidden at once. -/
lemma putTombstone (hv : Veils shown row) (o : Nat) (h : Header) :
    Veils (Row.put o h.tombstone shown) (Row.put o h row) := by
  intro o' h₁ hm
  rcases mem_put.mp hm with heq | ⟨hm, hne⟩
  · cases heq
    exact ⟨h, mem_put.mpr (Or.inl rfl), Or.inr rfl⟩
  · obtain ⟨h', hm', hsame⟩ := hv hm
    exact ⟨h', mem_put.mpr (Or.inr ⟨hm', hne⟩), hsame⟩

/-- A slot that is shown may be hidden later. -/
lemma hide (hv : Veils shown row) (hm : (o, h) ∈ shown) :
    Veils (Row.put o h.tombstone shown) row := by
  intro o' h₁ hm₁
  rcases mem_put.mp hm₁ with heq | ⟨hm₁, _⟩
  · cases heq
    obtain ⟨h', hm', rfl | rfl⟩ := hv hm
    · exact ⟨_, hm', Or.inr rfl⟩
    · exact ⟨_, hm', Or.inr rfl⟩
  · exact hv hm₁

end Veils

/-! ## Slots in use -/

/-- One for a slot that the key has in use, and zero for any other. -/
def weight (k : Key) (h : Header) : Nat := if h.inUse = true ∧ h.key = k then 1 else 0

/-- **How many slots a key has in use.** -/
def uses (k : Key) (row : Row) : Nat := row.countP fun p => p.2.inUse && p.2.key = k

lemma uses_nil (k : Key) : uses k [] = 0 := rfl

lemma uses_cons (k : Key) (p : Nat × Header) (row : Row) :
    uses k (p :: row) = uses k row + weight k p.2 := by
  rw [uses, List.countP_cons]
  simp only [weight, Bool.and_eq_true, decide_eq_true_eq]
  rfl

lemma uses_append (k : Key) (row rest : Row) : uses k (row ++ rest) = uses k row + uses k rest :=
  List.countP_append

/-- A key is not used exactly if no slot in use has it. -/
lemma uses_eq_zero : uses k row = 0 ↔ ∀ p ∈ row, p.2.inUse = true → p.2.key ≠ k := by
  simp [uses, List.countP_eq_zero]

/-- A new slot uses its key once more. -/
lemma uses_put_of_new (k : Key) (h : Header) (hno : ∀ p ∈ row, p.1 ≠ o) :
    uses k (put o h row) = uses k row + weight k h := by
  rw [put_eq_append hno, uses_append, uses_cons, uses_nil, Nat.zero_add]

/-- Setting a slot changes the count by what the slot was and what it is. -/
lemma uses_put_of_mem (k : Key) (h : Header) (hd : row.Pairwise fun p q => p.1 ≠ q.1)
    (hm : (o, old) ∈ row) : uses k (put o h row) + weight k old = uses k row + weight k h := by
  rw [put, if_pos ⟨_, hm, rfl⟩]
  induction row with
  | nil => cases hm
  | cons p rest ih =>
    obtain ⟨hp, hd⟩ := List.pairwise_cons.mp hd
    rw [List.map_cons, uses_cons, uses_cons]
    rcases List.mem_cons.mp hm with rfl | hm
    · have hrest : (rest.map fun q => if q.1 = o then (o, h) else q) = rest :=
        (List.map_congr_left fun q hq => if_neg (Ne.symm (hp q hq))).trans (List.map_id rest)
      rw [hrest, if_pos rfl, Nat.add_right_comm]
    · have := ih hd hm
      rw [if_neg (hp _ hm)]
      omega

end Row

namespace Toc.Describes

variable {t : Toc} {row shown : Row} {o : Nat}

/-- **Merging any slot** that the table does not know: the table then describes a veil of the slots
seen. -/
theorem merge_veiled (hd : t.Describes shown) (hv : shown.Veils row) (hno : ∀ p ∈ row, p.1 ≠ o)
    (h : Header) : ∃ shown', (t.merge (.ofHeader o h)).Describes shown' ∧
      shown'.Veils (Row.put o h row) := by
  have hno' := hv.offset_ne hno
  have hretired : ∃ shown', (t.retire (.ofHeader o h)).Describes shown' ∧
      shown'.Veils (Row.put o h row) :=
    ⟨_, hd.retire (e := .ofHeader o h) (h := h.tombstone) hno' rfl rfl, hv.putTombstone o h⟩
  -- A slot that is not taken is retired, and so is the one it takes the place of: both are hidden.
  unfold Toc.merge
  split
  · exact hretired
  · rename_i hr
    have hr : h.key.isReserved = false := Bool.eq_false_iff.mpr hr
    split
    · rename_i hnone
      exact ⟨_, hd.putEntry hno' hnone hr, hv.put o h⟩
    · rename_i old hold
      obtain ⟨_, h', hm', _⟩ := hd.entry hold
      have hne : old.offset ≠ o := hno' _ hm'
      rw [if_neg (show ¬ old.offset = (Entry.ofHeader o h).offset from hne)]
      split
      · have hmem : (old.offset, h') ∈ Row.put o h shown := Row.mem_put.mpr (Or.inr ⟨hm', hne⟩)
        exact ⟨_, hd.relocate hno' hold hm', (hv.put o h).hide hmem⟩
      · exact hretired

/-- **Merging any row** whose slots have offsets of their own. -/
theorem mergeAll_veiled {rest : Row} (hd : t.Describes shown) (hv : shown.Veils row)
    (hdistinct : (row ++ rest).Pairwise fun p q => p.1 ≠ q.1) :
    ∃ shown', (rest.foldl (fun t p => t.merge (.ofHeader p.1 p.2)) t).Describes shown' ∧
      shown'.Veils (row ++ rest) := by
  induction rest generalizing t shown row with
  | nil =>
    rw [List.append_nil]
    exact ⟨shown, hd, hv⟩
  | cons p rest ih =>
    have hno : ∀ q ∈ row, q.1 ≠ p.1 := fun q hq =>
      (List.pairwise_append.mp hdistinct).2.2 q hq p List.mem_cons_self
    have hput : Row.put p.1 p.2 row = row ++ [p] := Row.put_eq_append hno
    have hsplit : row ++ p :: rest = Row.put p.1 p.2 row ++ rest := by
      rw [hput, List.append_assoc, List.singleton_append]
    rw [hsplit] at hdistinct ⊢
    obtain ⟨shown', hd', hv'⟩ := hd.merge_veiled hv hno p.2
    exact ih hd' hv' hdistinct

end Toc.Describes

end SlotStore
