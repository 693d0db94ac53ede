import Mathlib.Data.List.Nodup
import Mathlib.Tactic.Common
import SlotStore.Proofs.Toc.Regions

/-!
# Giving slots out

A table gives out the smallest of its reusable slots that is large enough.  The slot leaves the
table with it, so that nobody is given it again before somebody has given it back; provided that
only slots are retired which no key points to any more.

* `Toc.pool`, `Toc.Spread` : the reusable slots, and tables with one slot to an offset;
* `Toc.Served` : what somebody who takes a slot is given, and the table then;
* `Toc.Dealing`, `Toc.tally` : takes, retirements and deletions, and how often a slot takes part;
* `Toc.pooled_after` : no slot is given out more often than it was there and given back;
* `Toc.Orderly`, `Toc.Spread.after` : dealings that leave one slot to an offset;
* `Toc.takeFreeSlot_best_fit` : all of it together;
* `Toc.takeFreeSlot_twice` : a slot that an entry has when it is retired is given out twice.
-/

namespace SlotStore

/-! ## The preferred slot of several -/

namespace Entry

variable {e a : Entry} {es : List Entry}

/-- Some slot is preferred, unless there is none. -/
lemma best?_eq_none : best? es = none ↔ es = [] := by
  cases es with
  | nil => exact iff_of_true rfl rfl
  | cons x xs =>
    refine iff_of_false ?_ (List.cons_ne_nil x xs)
    rw [best?]
    split
    · exact Option.some_ne_none _
    · split <;> exact Option.some_ne_none _

lemma size_le_of_preferred (h : preferred a e = true) : a.size ≤ e.size := by
  simp only [preferred, Bool.or_eq_true, Bool.and_eq_true, decide_eq_true_eq, beq_iff_eq] at h
  omega

lemma size_le_of_not_preferred (h : ¬ preferred a e = true) : e.size ≤ a.size := by
  simp only [preferred, Bool.or_eq_true, Bool.and_eq_true, decide_eq_true_eq, beq_iff_eq] at h
  omega

/-- The preferred slot of several is the smallest. -/
lemma size_le_of_best? (h : best? es = some e) : ∀ a ∈ es, e.size ≤ a.size := by
  induction es generalizing e with
  | nil => cases h
  | cons x xs ih =>
    rw [best?] at h
    split at h
    · rename_i hnone
      cases h
      rw [best?_eq_none.mp hnone]
      simp
    · rename_i b hb
      have hrest := ih hb
      rw [List.forall_mem_cons]
      split at h <;> rename_i hpreferred <;> cases h
      · exact ⟨size_le_of_preferred hpreferred, hrest⟩
      · have hle := size_le_of_not_preferred hpreferred
        exact ⟨Nat.le_refl _, fun a ha => Nat.le_trans hle (hrest a ha)⟩

end Entry

/-- An item of a list and the others. -/
lemma perm_cons_filter {α : Type} [DecidableEq α] {xs : List α} (hnodup : xs.Nodup) {x : α}
    (hx : x ∈ xs) : xs.Perm (x :: xs.filter fun a => a ≠ x) := by
  have herase := List.perm_cons_erase hx
  rw [hnodup.erase_eq_filter] at herase
  refine herase.trans (List.Perm.of_eq (congrArg _ (List.filter_congr fun a _ => ?_)))
  rw [bne, beq_eq_decide, decide_not]

namespace Keyed

variable {κ α : Type} [DecidableEq κ] {key : α → κ} {c : Keyed key} {x : α}

/-- Taking the item of a key away takes that item away and no other. -/
lemma mem_erase_iff (hx : x ∈ c.items) {a : α} (ha : a ∈ c.items) : key a ≠ key x ↔ a ≠ x := by
  refine not_congr ⟨fun hkey => ?_, congrArg key⟩
  have hfind := (c.mem_iff_get? a).mp ha
  rw [hkey, (c.mem_iff_get? x).mp hx] at hfind
  exact (Option.some.inj hfind).symm

lemma items_erase [DecidableEq α] (hx : x ∈ c.items) :
    (c.erase (key x)).items = c.items.filter fun a => a ≠ x :=
  List.filter_congr fun _ ha => decide_eq_decide.mpr (mem_erase_iff hx ha)

omit [DecidableEq κ] in
lemma nodup (c : Keyed key) : c.items.Nodup :=
  c.distinct.imp fun hab heq => hab (congrArg key heq)

lemma countP_erase [DecidableEq α] (p : α → Bool) (hx : x ∈ c.items) :
    (c.erase (key x)).items.countP p + (if p x then 1 else 0) = c.items.countP p := by
  rw [items_erase hx, (perm_cons_filter c.nodup hx).countP_eq p, List.countP_cons]

lemma countP_put_le (p : α → Bool) (c : Keyed key) (x : α) :
    (c.put x).items.countP p ≤ c.items.countP p + (if p x then 1 else 0) := by
  rw [put, List.countP_cons]
  exact Nat.add_le_add_right (List.filter_sublist.countP_le) _

end Keyed

namespace Toc

variable {t : Toc} {e : Entry} {size o : Nat}

/-- The slots that can be given out: those of free entries, and the retired ones. -/
def pool (t : Toc) : List Entry := t.entries.items.filter (·.isFree) ++ t.retired.items

/-- **No two slots of a table begin at one offset.** -/
def Spread (t : Toc) : Prop := t.regions.Pairwise fun a b => a.offset ≠ b.offset

/-- The pool has the free entries and the retired slots. -/
lemma mem_pool : e ∈ t.pool ↔
    t.find? e.key = some e ∧ e.isFree = true ∨ t.spare? e.offset = some e := by
  rw [pool, List.mem_append, List.mem_filter, mem_entries_iff, mem_retired_iff]

lemma pool_sublist (t : Toc) : t.pool.Sublist t.regions :=
  List.filter_sublist.append (List.Sublist.refl _)

/-! ## The slot that is given out -/

/-- **No slot is offered** exactly if none is large enough. -/
lemma freeSlot?_eq_none (hready : t.ready = true) :
    t.freeSlot? size = none ↔ ∀ a ∈ t.pool, a.size < size := by
  have hpool : (∀ a ∈ t.pool, a.size < size) ↔
      (t.entries.items.filter fun e => e.isFree && size ≤ e.size) = [] ∧
        (t.retired.items.filter fun e => size ≤ e.size) = [] := by
    simp only [pool, List.forall_mem_append, List.mem_filter, List.filter_eq_nil_iff,
      Bool.and_eq_true, decide_eq_true_eq, not_and, Nat.not_le, and_imp]
  rw [hpool, ← Entry.best?_eq_none, ← Entry.best?_eq_none, freeSlot?, if_pos hready]
  dsimp only
  split
  · rename_i a b ha hb
    rw [ha]
    refine iff_of_false ?_ fun h => Option.some_ne_none a h.1
    split <;> exact Option.some_ne_none _
  · rename_i a ha hb
    rw [ha]
    exact iff_of_false (Option.some_ne_none a) fun h => Option.some_ne_none a h.1
  · rename_i hnone
    rw [hnone]
    exact (and_iff_right rfl).symm

/-- No reusable slot that is large enough is smaller than the one that is given out. -/
lemma size_le_of_freeSlot? (h : t.freeSlot? size = some e) :
    ∀ a ∈ t.pool, size ≤ a.size → e.size ≤ a.size := by
  intro x hx hlarge
  have hfits : (x ∈ t.entries.items.filter fun e => e.isFree && size ≤ e.size) ∨
      x ∈ t.retired.items.filter fun e => size ≤ e.size := by
    rcases List.mem_append.mp hx with hx | hx
    · obtain ⟨hx, hfree⟩ := List.mem_filter.mp hx
      exact Or.inl (List.mem_filter.mpr ⟨hx, by simp [hfree, hlarge]⟩)
    · exact Or.inr (List.mem_filter.mpr ⟨hx, decide_eq_true hlarge⟩)
  unfold freeSlot? at h
  split at h
  · dsimp only at h
    split at h
    · rename_i a b ha hb
      split at h <;> rename_i hsmaller <;> cases h <;> rcases hfits with hx | hx
      · exact Nat.le_trans (Nat.le_of_lt hsmaller) (Entry.size_le_of_best? ha x hx)
      · exact Entry.size_le_of_best? hb x hx
      · exact Entry.size_le_of_best? ha x hx
      · exact Nat.le_trans (Nat.not_lt.mp hsmaller) (Entry.size_le_of_best? hb x hx)
    · rename_i a ha hnone
      cases h
      rw [Entry.best?_eq_none.mp hnone] at hfits
      exact Entry.size_le_of_best? ha x (hfits.resolve_right List.not_mem_nil)
    · rename_i hnone
      rw [Entry.best?_eq_none.mp hnone] at hfits
      exact Entry.size_le_of_best? h x (hfits.resolve_left List.not_mem_nil)
  · cases h

/-- **Forgetting a slot that was given out** takes that slot out of its collection, and nothing out
of the other one. -/
theorem release_items (hs : t.Spread) (h : t.freeSlot? size = some e) :
    (t.release e).entries.items = t.entries.items.filter (fun a => a ≠ e) ∧
      (t.release e).retired.items = t.retired.items.filter fun a => a ≠ e := by
  have hapart : ∀ a ∈ t.entries.items, ∀ b ∈ t.retired.items, a.offset ≠ b.offset :=
    (List.pairwise_append.mp hs).2.2
  obtain ⟨_, ⟨hk, hfree⟩ | ho⟩ := mem_of_freeSlot? h
  · have he := mem_entries_iff.mpr hk
    have hrel : t.release e = t.remove e.key := by
      rw [Toc.release, hk]
      exact if_pos ⟨rfl, hfree⟩
    rw [hrel]
    refine ⟨Keyed.items_erase he, (List.filter_eq_self.mpr fun b hb => decide_eq_true ?_).symm⟩
    rintro rfl
    exact hapart b he b hb rfl
  · have he := mem_retired_iff.mpr ho
    have hrel : t.release e = t.unretire e.offset := by
      rw [Toc.release]
      split
      · rename_i own hown
        have hown := mem_entries_iff.mpr (key_of_find? hown ▸ hown)
        exact if_neg fun hsame => hapart own hown e he hsame.1
      · rfl
    rw [hrel]
    refine ⟨(List.filter_eq_self.mpr fun a ha => decide_eq_true ?_).symm, Keyed.items_erase he⟩
    rintro rfl
    exact hapart a ha a he rfl

/-- **What somebody is given who takes a slot**, and the table then. -/
structure Served (t : Toc) (size : Nat) (e : Entry) (t' : Toc) : Prop where
  mem : e ∈ t.pool
  large : size ≤ e.size
  smallest : ∀ a ∈ t.pool, size ≤ a.size → e.size ≤ a.size
  /-- The slot leaves the table, and nothing else does. -/
  regions : t.regions.Perm (e :: t'.regions)
  entries : t'.entries.items = t.entries.items.filter fun a => a ≠ e
  retired : t'.retired.items = t.retired.items.filter fun a => a ≠ e
  nextVersion : t'.nextVersion = t.nextVersion
  ready : t'.ready = t.ready

/-- **A slot is taken.** -/
theorem served (hs : t.Spread) (h : t.freeSlot? size = some e) : t.Served size e (t.release e) := by
  obtain ⟨hlarge, hmem⟩ := mem_of_freeSlot? h
  have hpool : e ∈ t.pool := mem_pool.mpr hmem
  obtain ⟨hentries, hretired⟩ := release_items hs h
  obtain ⟨hversion, hready, _⟩ := release_fields e t
  have hnodup : t.regions.Nodup := hs.imp fun hab heq => hab (congrArg Entry.offset heq)
  have hregions : (t.release e).regions = t.regions.filter fun a => a ≠ e := by
    rw [regions, hentries, hretired, regions, List.filter_append]
  refine ⟨hpool, hlarge, size_le_of_freeSlot? h, ?_, hentries, hretired, hversion, hready⟩
  rw [hregions]
  exact perm_cons_filter hnodup ((pool_sublist t).subset hpool)

/-! ## Slots that come and go -/

/-- What is done with the reusable slots of a table. -/
inductive Dealing
  | take (size : Nat)
  | retire (e : Entry)
  | markFree (k : Key)

namespace Dealing

/-- The table afterwards. -/
def perform : Dealing → Toc → Toc
  | take size, t => (t.takeFreeSlot? size).2
  | retire e, t => t.retire e
  | markFree k, t => t.markFree k

/-- Where the slot begins that is given out. -/
def given? : Dealing → Toc → Option Nat
  | take size, t => (t.takeFreeSlot? size).1.map (·.offset)
  | _, _ => none

/-- Where the slot begins that is given back. -/
def back? : Dealing → Toc → Option Nat
  | take _, _ => none
  | retire e, _ => some e.offset
  | markFree k, t => (t.find? k).map (·.offset)

end Dealing

/-- The table after some dealings. -/
def after (t : Toc) (ds : List Dealing) : Toc := ds.foldl (fun t d => d.perform t) t

/-- How many of some dealings are about the slot at an offset. -/
def tally (slot? : Dealing → Toc → Option Nat) (o : Nat) : Toc → List Dealing → Nat
  | _, [] => 0
  | t, d :: ds => (if slot? d t = some o then 1 else 0) + tally slot? o (d.perform t) ds

/-- How often the slot at an offset can be given out. -/
def pooled (o : Nat) (t : Toc) : Nat := t.pool.countP (·.offset = o)

lemma pooled_eq (o : Nat) (t : Toc) : t.pooled o =
    t.entries.items.countP (fun a => a.offset = o && a.isFree) +
      t.retired.items.countP (·.offset = o) := by
  rw [pooled, pool, List.countP_append, List.countP_filter]

/-- No two reusable slots begin at one position. -/
lemma pooled_le_one (hs : t.Spread) (o : Nat) : t.pooled o ≤ 1 := by
  have hnodup : (t.pool.map (·.offset)).Nodup := List.pairwise_map.mpr (hs.sublist t.pool_sublist)
  have hcount := List.nodup_iff_count_le_one.mp hnodup o
  rw [List.count, List.countP_map] at hcount
  exact hcount

/-- A slot that is given out is there once less. -/
lemma pooled_release (h : t.freeSlot? size = some e) (o : Nat) :
    (t.release e).pooled o + (if e.offset = o then 1 else 0) = t.pooled o := by
  have hcases : (∃ own, t.find? e.key = some own ∧ (own.offset = e.offset ∧ own.isFree = true) ∧
      t.release e = t.remove e.key) ∨
        (t.spare? e.offset = some e ∧ t.release e = t.unretire e.offset) := by
    have hmem := (mem_of_freeSlot? h).2
    rw [release]
    cases hk : t.find? e.key with
    | none =>
      refine Or.inr ⟨hmem.resolve_left fun hfree => ?_, rfl⟩
      cases hk.symm.trans hfree.1
    | some own =>
      by_cases hown : own.offset = e.offset ∧ own.isFree = true
      · exact Or.inl ⟨own, rfl, hown, if_pos hown⟩
      · refine Or.inr ⟨hmem.resolve_left fun hfree => hown ?_, if_neg hown⟩
        cases hk.symm.trans hfree.1
        exact ⟨rfl, hfree.2⟩
  rcases hcases with ⟨own, hk, ⟨hoffset, hfree⟩, hrel⟩ | ⟨ho, hrel⟩
  · have hown := mem_entries_iff.mpr (key_of_find? hk ▸ hk)
    have herase := Keyed.countP_erase (fun a => a.offset = o && a.isFree) hown
    simp only [hfree, hoffset, Bool.and_true, decide_eq_true_eq, key_of_find? hk] at herase
    rw [hrel, pooled_eq, pooled_eq, Nat.add_right_comm]
    exact congrArg (· + _) herase
  · have herase := Keyed.countP_erase (fun a => a.offset = o) (mem_retired_iff.mpr ho)
    simp only [decide_eq_true_eq] at herase
    rw [hrel, pooled_eq, pooled_eq, Nat.add_assoc]
    exact congrArg (_ + ·) herase

lemma pooled_retire (e : Entry) (t : Toc) (o : Nat) :
    (t.retire e).pooled o ≤ t.pooled o + if e.offset = o then 1 else 0 := by
  have hput := Keyed.countP_put_le (·.offset = o) t.retired { e with isFree := true }
  simp only [decide_eq_true_eq] at hput
  rw [pooled_eq, pooled_eq, Nat.add_assoc]
  exact Nat.add_le_add_left hput _

lemma pooled_markFree {k : Key} (hk : t.find? k = some e) (o : Nat) :
    (t.markFree k).pooled o ≤ t.pooled o + if e.offset = o then 1 else 0 := by
  have hput := Keyed.countP_put_le (fun a => a.offset = o && a.isFree) t.entries
    { e with isFree := true }
  simp only [Bool.and_true, decide_eq_true_eq] at hput
  rw [markFree, hk, pooled_eq, pooled_eq, Nat.add_right_comm]
  exact Nat.add_le_add_right hput _

/-- **One dealing**: a slot that is given out was there, and one that is there afterwards was there
before or is given back. -/
theorem pooled_perform (d : Dealing) (t : Toc) (o : Nat) :
    (d.perform t).pooled o + (if d.given? t = some o then 1 else 0) ≤
      t.pooled o + if d.back? t = some o then 1 else 0 := by
  cases d with
  | take size =>
    rw [Dealing.perform, Dealing.given?, Dealing.back?, takeFreeSlot?]
    cases h : t.freeSlot? size with
    | none => simp
    | some e =>
      simp only [Option.map_some, Option.some.injEq, reduceCtorEq, if_false, Nat.add_zero]
      exact Nat.le_of_eq (pooled_release h o)
  | retire e =>
    simp only [Dealing.perform, Dealing.given?, Dealing.back?, Option.some.injEq, reduceCtorEq,
      if_false, Nat.add_zero]
    exact pooled_retire e t o
  | markFree k =>
    rcases Option.eq_none_or_eq_some (t.find? k) with hk | ⟨e, hk⟩
    · simp [Dealing.perform, Dealing.given?, Dealing.back?, markFree, hk]
    · have hmark := pooled_markFree hk o
      simpa only [Dealing.perform, Dealing.given?, Dealing.back?, hk, Option.map_some,
        Option.some.injEq, reduceCtorEq, if_false, Nat.add_zero] using hmark

/-- **No slot is given out more often** than it was there and given back. -/
theorem pooled_after (t : Toc) (ds : List Dealing) (o : Nat) :
    (t.after ds).pooled o + tally Dealing.given? o t ds ≤
      t.pooled o + tally Dealing.back? o t ds := by
  induction ds generalizing t with
  | nil => exact Nat.le_refl _
  | cons d ds ih =>
    have hstep := pooled_perform d t o
    have hrest := ih (d.perform t)
    rw [tally, tally, show t.after (d :: ds) = (d.perform t).after ds from rfl]
    omega

/-! ### One slot to an offset -/

namespace Spread

lemma release (hs : t.Spread) (h : t.freeSlot? size = some e) : (t.release e).Spread := by
  have hperm := (served hs h).regions
  exact ((hperm.pairwise_iff fun hab => Ne.symm hab).mp hs).of_cons

lemma retire (hs : t.Spread) (he : ∀ a ∈ t.entries.items, a.offset ≠ e.offset) :
    (t.retire e).Spread := by
  obtain ⟨hentries, _, hapart⟩ := List.pairwise_append.mp hs
  refine List.pairwise_append.mpr ⟨hentries, (t.retire e).retired.distinct, fun a ha b hb => ?_⟩
  rcases List.mem_cons.mp hb with rfl | hb
  · exact he a ha
  · exact hapart a ha b (List.mem_filter.mp hb).1

lemma markFree (hs : t.Spread) (k : Key) : (t.markFree k).Spread := by
  rw [Toc.markFree]
  cases hk : t.find? k with
  | none => exact hs
  | some e =>
    cases key_of_find? hk
    -- the slot stays where it is, so its new entry is as far from the others as the old one
    have hitems := perm_cons_filter t.entries.nodup (mem_entries_iff.mpr hk)
    rw [← Keyed.items_erase (mem_entries_iff.mpr hk)] at hitems
    have hold := ((hitems.append_right t.retired.items).pairwise_iff fun hab => Ne.symm hab).mp hs
    obtain ⟨he, hrest⟩ := List.pairwise_cons.mp hold
    exact List.pairwise_cons.mpr ⟨he, hrest⟩

end Spread

/-- A slot is retired only where no entry has it. -/
def Dealing.Orderly : Dealing → Toc → Prop
  | retire e, t => ∀ a ∈ t.entries.items, a.offset ≠ e.offset
  | _, _ => True

/-- Dealings one after another, each of them orderly. -/
def Orderly : Toc → List Dealing → Prop
  | _, [] => True
  | t, d :: ds => d.Orderly t ∧ Orderly (d.perform t) ds

/-- **An orderly dealing** leaves one slot to an offset. -/
lemma Spread.perform (hs : t.Spread) {d : Dealing} (hd : d.Orderly t) : (d.perform t).Spread := by
  cases d with
  | take size =>
    rw [Dealing.perform, takeFreeSlot?]
    cases h : t.freeSlot? size with
    | none => exact hs
    | some e => exact hs.release h
  | retire e => exact hs.retire hd
  | markFree k => exact hs.markFree k

/-- **Orderly dealings leave one slot to an offset.** -/
theorem Spread.after {ds : List Dealing} (hs : t.Spread) (hds : t.Orderly ds) :
    (t.after ds).Spread := by
  induction ds generalizing t with
  | nil => exact hs
  | cons d ds ih => exact ih (hs.perform hds.1) hds.2

/-- A slot is given out at most once more than it is given back. -/
lemma Spread.tally_given_le (hs : t.Spread) (ds : List Dealing) (o : Nat) :
    tally Dealing.given? o t ds ≤ tally Dealing.back? o t ds + 1 := by
  have hrun := pooled_after t ds o
  have hone := pooled_le_one hs o
  omega

/-! ## Taking the best fit -/

/-- **Taking a slot of a ready table** in which no two slots begin at one offset.  Nothing is given
out exactly if no reusable slot is large enough, and then nothing changes.  Otherwise the smallest
one that is large enough is given out, and only that slot leaves the table.  Whatever is taken,
retired and deleted, a slot is given out at most once more than it is given back.  As long as no
slot is retired that an entry has, no two slots ever begin at one offset, and a slot is given out at
most once while nobody gives it back. -/
theorem takeFreeSlot_best_fit (hready : t.ready = true) (hs : t.Spread) :
    (∀ size,
      ((t.takeFreeSlot? size).1 = none ↔ ∀ a ∈ t.pool, a.size < size) ∧
        ((t.takeFreeSlot? size).1 = none → (t.takeFreeSlot? size).2 = t) ∧
        ∀ e, (t.takeFreeSlot? size).1 = some e → t.Served size e (t.takeFreeSlot? size).2) ∧
      (∀ ds o, tally Dealing.given? o t ds ≤ tally Dealing.back? o t ds + 1) ∧
      ∀ before, t.Orderly before → (t.after before).Spread ∧
        ∀ window o, tally Dealing.back? o (t.after before) window = 0 →
          tally Dealing.given? o (t.after before) window ≤ 1 := by
  refine ⟨fun size => ?_, hs.tally_given_le, fun before horderly => ?_⟩
  · have hnone : t.freeSlot? size = none ↔ ∀ a ∈ t.pool, a.size < size :=
      freeSlot?_eq_none hready
    rw [takeFreeSlot?]
    cases h : t.freeSlot? size with
    | none => exact ⟨iff_of_true rfl (hnone.mp h), fun _ => rfl, fun e he => nomatch he⟩
    | some e =>
      have hsome : t.freeSlot? size ≠ none := h ▸ Option.some_ne_none e
      refine ⟨iff_of_false (Option.some_ne_none e) (mt hnone.mpr hsome), ?_, ?_⟩
      · exact fun he => nomatch he
      · rintro _ ⟨⟩
        exact served hs h
  · have hspread := hs.after horderly
    refine ⟨hspread, fun window o hback => ?_⟩
    have hgiven := hspread.tally_given_le window o
    rwa [hback] at hgiven

namespace Mixed

/-- An entity in its slot. -/
def live : Entry := ⟨.filled 1, 0, 60, false, 3⟩

/-- The slot of a deleted entity. -/
def free : Entry := ⟨.filled 2, 60, 80, true, 2⟩

/-- The slot in which the entity that is live was before. -/
def stale : Entry := { live with offset := 140, size := 50, isFree := true, version := 1 }

/-- A table with a live, a free and a retired slot. -/
def table : Toc := ofEntries [live, free] [stale]

/-- The table after the slot of the live entity was retired and the entity was deleted. -/
def doubled : Toc := table.after [.retire live, .markFree live.key]

end Mixed

open Mixed

/-- The retired slot, of the key of a live entity, is taken before the larger free one; nothing is
large enough for ninety bytes; and the free slot is given out once until it is given back. -/
theorem takeFreeSlot_best_fit_mixed :
    (table.takeFreeSlot? 45).1 = some stale ∧
      table.Served 45 stale (table.takeFreeSlot? 45).2 ∧
      (table.takeFreeSlot? 90).1 = none ∧
      tally Dealing.given? 60 (table.after [.take 45]) [.take 70, .take 70] ≤ 1 := by
  have hspread : table.Spread := by unfold Spread; decide
  have htaken : (table.takeFreeSlot? 45).1 = some stale := by decide
  obtain ⟨hserved, _, horderly⟩ := takeFreeSlot_best_fit (t := table) (by decide) hspread
  refine ⟨htaken, (hserved 45).2.2 stale htaken, (hserved 90).1.mpr (by decide), ?_⟩
  exact (horderly [.take 45] ⟨trivial, trivial⟩).2 _ 60 (by decide)

/-- **A slot that is retired while its entity is live** is reusable twice once the entity is
deleted. It is then given out twice, although nobody gives it back in between. -/
theorem takeFreeSlot_twice :
    table.ready = true ∧ table.Spread ∧
      (doubled.takeFreeSlot? 60).1.map (·.offset) = some live.offset ∧
      ((doubled.after [.take 60]).takeFreeSlot? 60).1.map (·.offset) = some live.offset ∧
      tally Dealing.back? live.offset doubled [.take 60, .take 60] = 0 ∧
      tally Dealing.given? live.offset doubled [.take 60, .take 60] = 2 := by
  refine ⟨by decide, ?_, by decide⟩
  unfold Spread
  decide

end Toc

end SlotStore
