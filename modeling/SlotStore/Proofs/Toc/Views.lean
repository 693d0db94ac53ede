import Mathlib.Tactic.Common
import SlotStore.Toc

/-!
# Two views of a table of contents

A table is seen through the entry of each key, `Toc.find?`, and the retired slot at each offset,
`Toc.spare?`.  Every operation on tables is given by what it does to these two views.

* `Keyed.get?_ofList` : a collection made of distinct items holds them;
* `Toc.spare?` : the retired slot at an offset;
* `Toc.byOffset_perm`, `Toc.activeEntries_eq_reverse` : entries have one order in the file;
* `Toc.mem_of_freeSlot?` : the slot that is given out is a free or a retired one, and large enough;
* `Toc.Alike` : tables with the same views.
-/

namespace SlotStore

namespace Keyed

variable {κ α : Type} [DecidableEq κ] {key : α → κ}

/-- Items with different keys that are put are found. -/
lemma get?_foldl_put (xs : List α) (hd : xs.Pairwise fun a b => key a ≠ key b) (c : Keyed key)
    (k : κ) : (xs.foldl put c).get? k = (xs.find? fun a => key a = k).or (c.get? k) := by
  induction xs generalizing c with
  | nil => rfl
  | cons x xs ih =>
    obtain ⟨hx, hxs⟩ := List.pairwise_cons.mp hd
    rw [List.foldl_cons, ih hxs, get?_put, List.find?_cons]
    by_cases hk : key x = k
    · have hnone : (xs.find? fun a => key a = k) = none := by
        refine List.find?_eq_none.mpr fun a ha hak => hx a ha ?_
        rw [hk, of_decide_eq_true hak]
      rw [hnone, if_pos hk.symm, decide_eq_true hk]
      rfl
    · rw [if_neg (Ne.symm hk), decide_eq_false hk]

/-- **A collection made of distinct items** finds each of them by its key. -/
theorem get?_ofList {xs : List α} (hd : xs.Pairwise fun a b => key a ≠ key b) (k : κ) :
    (ofList xs : Keyed key).get? k = xs.find? fun a => key a = k := by
  rw [ofList, get?_foldl_put xs hd, get?_empty, Option.or_none]

/-- The items of a collection in another order make up the same collection. -/
theorem get?_ofList_perm {c : Keyed key} {xs : List α} (hp : xs.Perm c.items) (k : κ) :
    (ofList xs : Keyed key).get? k = c.get? k := by
  have hd : xs.Pairwise fun a b => key a ≠ key b :=
    (hp.pairwise_iff fun h => Ne.symm h).mpr c.distinct
  rw [get?_ofList hd]
  refine Option.ext fun x => ?_
  constructor
  · intro hx
    have hk : key x = k := by simpa using List.find?_some hx
    rw [← hk]
    exact (c.mem_iff_get? x).mp (hp.mem_iff.mp (List.mem_of_find?_eq_some hx))
  · intro hx
    have hk := key_of_get? hx
    subst hk
    exact find?_of_mem hd (hp.mem_iff.mpr ((c.mem_iff_get? x).mpr hx))

lemma items_foldl_put (xs : List α) (hd : xs.Pairwise fun a b => key a ≠ key b) (c : Keyed key)
    (hc : ∀ x ∈ xs, ∀ a ∈ c.items, key a ≠ key x) :
    (xs.foldl put c).items = xs.reverse ++ c.items := by
  induction xs generalizing c with
  | nil => rfl
  | cons x xs ih =>
    obtain ⟨hx, hxs⟩ := List.pairwise_cons.mp hd
    have hput : (c.put x).items = x :: c.items := by
      refine congrArg (x :: ·) (List.filter_eq_self.mpr fun a ha => ?_)
      exact decide_eq_true (hc x List.mem_cons_self a ha)
    rw [List.foldl_cons, ih hxs, hput, List.reverse_cons, List.append_assoc]
    · rfl
    · intro y hy a ha
      rw [hput] at ha
      rcases List.mem_cons.mp ha with rfl | ha
      · exact hx y hy
      · exact hc y (List.mem_cons_of_mem x hy) a ha

/-- A collection made of its items in another order has these items. -/
theorem perm_ofList {c : Keyed key} {xs : List α} (hp : xs.Perm c.items) :
    (ofList xs : Keyed key).items.Perm c.items := by
  have hd : xs.Pairwise fun a b => key a ≠ key b :=
    (hp.pairwise_iff fun h => Ne.symm h).mpr c.distinct
  rw [ofList, items_foldl_put xs hd .empty fun _ _ _ h => by cases h]
  exact (List.Perm.of_eq (List.append_nil xs.reverse)).trans (xs.reverse_perm.trans hp)

end Keyed

/-- The preferred slot of several is one of them. -/
lemma Entry.mem_of_best? {e : Entry} : ∀ {es : List Entry}, best? es = some e → e ∈ es
  | [], h => by cases h
  | x :: xs, h => by
    rw [best?] at h
    split at h
    · cases h
      exact List.mem_cons_self
    · rename_i b hb
      split at h <;> cases h
      · exact List.mem_cons_of_mem _ (mem_of_best? hb)
      · exact List.mem_cons_self

namespace Toc

variable {t t' : Toc} {e : Entry} {k : Key} {o : Nat}

/-- The retired slot at an offset. -/
def spare? (t : Toc) (o : Nat) : Option Entry := t.retired.get? o

lemma key_of_find? (h : t.find? k = some e) : e.key = k := Keyed.key_of_get? h

lemma offset_of_spare? (h : t.spare? o = some e) : e.offset = o := Keyed.key_of_get? h

/-- An entry is found under its key. -/
lemma mem_entries_iff : e ∈ t.entries.items ↔ t.find? e.key = some e := t.entries.mem_iff_get? e

/-- A retired slot is found at its offset. -/
lemma mem_retired_iff : e ∈ t.retired.items ↔ t.spare? e.offset = some e := t.retired.mem_iff_get? e

/-! ## The order of the file -/

lemma perm_byOffset (es : List Entry) : (byOffset es).Perm es := List.mergeSort_perm _ _

lemma pairwise_byOffset (es : List Entry) :
    (byOffset es).Pairwise fun a b => a.offset ≤ b.offset := by
  refine (List.pairwise_mergeSort (fun a b c hab hbc => ?_) (fun a b => ?_) es).imp fun h =>
    of_decide_eq_true h
  · exact decide_eq_true (Nat.le_trans (of_decide_eq_true hab) (of_decide_eq_true hbc))
  · simp only [Bool.or_eq_true, decide_eq_true_eq]
    exact Nat.le_total _ _

/-- Entries of distinct offsets have one order. -/
lemma byOffset_perm {es es' : List Entry} (hp : es.Perm es')
    (hd : es.Pairwise fun a b => a.offset ≠ b.offset) : byOffset es = byOffset es' := by
  have hperm : (byOffset es).Perm (byOffset es') :=
    (perm_byOffset es).trans (hp.trans (perm_byOffset es').symm)
  refine hperm.eq_of_pairwise (fun a b ha hb hab hba => ?_) (pairwise_byOffset es)
    (pairwise_byOffset es')
  have hfind := Keyed.find?_of_mem hd ((perm_byOffset es).mem_iff.mp ha)
  have hfind' := Keyed.find?_of_mem hd (hp.mem_iff.mpr ((perm_byOffset es').mem_iff.mp hb))
  rw [Nat.le_antisymm hab hba] at hfind
  exact Option.some.inj (hfind.symm.trans hfind')

/-- Entries in the order of their offsets are those of any list of them. -/
lemma byOffset_eq {es es' : List Entry} (hp : es.Perm es')
    (hsorted : es.Pairwise fun a b => a.offset < b.offset) : byOffset es' = es := by
  rw [← byOffset_perm hp (hsorted.imp Nat.ne_of_lt)]
  exact List.mergeSort_of_pairwise (hsorted.imp fun h => decide_eq_true (Nat.le_of_lt h))

/-- The live entries of a table in which each slot was put behind those before it. -/
lemma activeEntries_eq_reverse
    (hsorted : (t.entries.items.filter fun e => !e.isFree && !e.key.isReserved).reverse.Pairwise
      fun a b => a.offset < b.offset) :
    t.activeEntries = (t.entries.items.filter fun e => !e.isFree && !e.key.isReserved).reverse :=
  byOffset_eq (List.reverse_perm _) hsorted

/-! ## Operations through the views -/

/-- **A slot that is retired** is free at its offset. -/
lemma spare?_retire (e : Entry) (t : Toc) (o : Nat) :
    (t.retire e).spare? o = if o = e.offset then some { e with isFree := true } else t.spare? o :=
  Keyed.get?_put t.retired { e with isFree := true } o

@[simp] lemma spare?_putEntry (e : Entry) (t : Toc) (o : Nat) :
    (t.putEntry e).spare? o = t.spare? o := rfl

@[simp] lemma spare?_remove (k : Key) (t : Toc) (o : Nat) : (t.remove k).spare? o = t.spare? o :=
  rfl

/-- A table without the retired slot at an offset. -/
def unretire (o : Nat) (t : Toc) : Toc := { t with retired := t.retired.erase o }

lemma spare?_unretire (o : Nat) (t : Toc) (o' : Nat) :
    (t.unretire o).spare? o' = if o' = o then none else t.spare? o' :=
  Keyed.get?_erase t.retired o o'

/-- Two tables with the same views. -/
structure Alike (t t' : Toc) : Prop where
  find? : ∀ k, t'.find? k = t.find? k
  spare? : ∀ o, t'.spare? o = t.spare? o

lemma Alike.refl (t : Toc) : Alike t t := ⟨fun _ => rfl, fun _ => rfl⟩

/-- Tables stay alike when one slot is retired in both. -/
lemma Alike.retire (h : Alike t t') (e : Entry) : Alike (t.retire e) (t'.retire e) :=
  ⟨h.find?, fun o => by rw [spare?_retire, spare?_retire, h.spare?]⟩

lemma Alike.putEntry_remove (t : Toc) (e : Entry) :
    Alike ((t.remove e.key).putEntry e) (t.putEntry e) := by
  refine ⟨fun k => ?_, fun _ => rfl⟩
  rw [find?_putEntry, find?_putEntry, find?_remove]
  by_cases hk : k = e.key
  · rw [if_pos hk, if_pos hk]
  · rw [if_neg hk, if_neg hk, if_neg hk]

/-! ## The slot that is given out -/

/-- **The slot that is given out** is large enough, and is a free or a retired one. -/
theorem mem_of_freeSlot? {size : Nat} (h : t.freeSlot? size = some e) :
    size ≤ e.size ∧
      ((t.find? e.key = some e ∧ e.isFree = true) ∨ t.spare? e.offset = some e) := by
  have hfree : Entry.best? (t.entries.items.filter fun e => e.isFree && size ≤ e.size) = some e →
      size ≤ e.size ∧ t.find? e.key = some e ∧ e.isFree = true := by
    intro he
    have hm := List.mem_filter.mp (Entry.mem_of_best? he)
    simp only [Bool.and_eq_true, decide_eq_true_eq] at hm
    exact ⟨hm.2.2, mem_entries_iff.mp hm.1, hm.2.1⟩
  have hspare : Entry.best? (t.retired.items.filter fun e => size ≤ e.size) = some e →
      size ≤ e.size ∧ t.spare? e.offset = some e := by
    intro he
    have hm := List.mem_filter.mp (Entry.mem_of_best? he)
    exact ⟨of_decide_eq_true hm.2, mem_retired_iff.mp hm.1⟩
  unfold freeSlot? at h
  split at h
  · dsimp only at h
    split at h
    · rename_i a b ha hb
      split at h <;> cases h
      · exact ⟨(hspare hb).1, Or.inr (hspare hb).2⟩
      · exact ⟨(hfree ha).1, Or.inl (hfree ha).2⟩
    · rename_i a ha hb
      cases h
      exact ⟨(hfree ha).1, Or.inl (hfree ha).2⟩
    · exact ⟨(hspare h).1, Or.inr (hspare h).2⟩
  · cases h

lemma release_fields (e : Entry) (t : Toc) : (t.release e).nextVersion = t.nextVersion ∧
    (t.release e).ready = t.ready ∧ (t.release e).signal = t.signal := by
  unfold release
  split
  · split <;> exact ⟨rfl, rfl, rfl⟩
  · exact ⟨rfl, rfl, rfl⟩

end Toc

end SlotStore
