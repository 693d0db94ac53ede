import Mathlib.Tactic.Common
import SlotStore.Proofs.Sorting.Stable

/-!
# Lists with items left out

Items that nobody needs may be left out of a list.  What a filter or a stable sort makes of the
thinner list is then what it makes of the whole one, again without such items only.

* `Sorting.Thinned` : lists with items left out, none of them needed;
* `Sorting.Thinned.filter`, `Sorting.Thinned.filter_eq` : filters;
* `Sorting.Thinned.of_sublist` : parts of a list with all that is needed;
* `Sorting.Thinned.mergeSort`, `Sorting.Thinned.stableSort` : sorting by an order;
* `Sorting.filter_stableSort` : a filter and a sort may change places.
-/

namespace SlotStore.Sorting

variable {α β : Type} {cmp : α → α → Ordering} {p needed : α → Prop}

/-- **A list with items left out**, none of them needed.  The others stay in their order. -/
inductive Thinned (needed : α → Prop) : List α → List α → Prop
  | nil : Thinned needed [] []
  | keep (x : α) {xs ys : List α} (rest : Thinned needed xs ys) : Thinned needed (x :: xs) (x :: ys)
  | drop {x : α} {xs ys : List α} (unneeded : ¬ needed x) (rest : Thinned needed xs ys) :
      Thinned needed (x :: xs) ys

namespace Thinned

variable {xs ys xs' ys' l₁ l₂ : List α} {x : α} {test : α → Bool}

lemma sublist (h : Thinned needed xs ys) : ys.Sublist xs := by
  induction h with
  | nil => exact .slnil
  | keep x _ ih => exact ih.cons_cons x
  | drop _ _ ih => exact ih.cons _

lemma append (h : Thinned needed xs ys) (h' : Thinned needed xs' ys') :
    Thinned needed (xs ++ xs') (ys ++ ys') := by
  induction h with
  | nil => simpa using h'
  | keep x _ ih => exact ih.keep x
  | drop hx _ ih => exact ih.drop hx

/-- One more item is left out. -/
lemma insert (hx : ¬ needed x) (h : Thinned needed (l₁ ++ l₂) ys) :
    Thinned needed (l₁ ++ x :: l₂) ys := by
  induction l₁ generalizing ys with
  | nil => exact h.drop hx
  | cons y l₁ ih =>
    rw [List.cons_append] at h ⊢
    cases h with
    | keep _ rest => exact (ih rest).keep y
    | drop hy rest => exact (ih rest).drop hy

lemma map {f : β → α} {zs ws : List β} (h : Thinned (fun b => needed (f b)) zs ws) :
    Thinned needed (zs.map f) (ws.map f) := by
  induction h with
  | nil => exact .nil
  | keep b _ ih => exact ih.keep (f b)
  | drop hb _ ih => exact ih.drop hb

/-- What is left of images are images of what is left. -/
lemma exists_map {f : β → α} {zs : List β} (h : Thinned needed (zs.map f) ys) :
    ∃ ws, ys = ws.map f ∧ Thinned (fun b => needed (f b)) zs ws := by
  induction zs generalizing ys with
  | nil =>
    cases h with
    | nil => exact ⟨[], rfl, .nil⟩
  | cons b zs ih =>
    rw [List.map_cons] at h
    cases h with
    | keep _ rest =>
      obtain ⟨ws, rfl, hws⟩ := ih rest
      exact ⟨b :: ws, rfl, hws.keep b⟩
    | drop hb rest =>
      obtain ⟨ws, rfl, hws⟩ := ih rest
      exact ⟨ws, rfl, hws.drop hb⟩

/-! ## Filters -/

lemma filter (h : Thinned needed xs ys) (test : α → Bool) :
    Thinned needed (xs.filter test) (ys.filter test) := by
  induction h with
  | nil => exact .nil
  | keep x _ ih =>
    by_cases hx : test x = true
    · simpa [hx] using ih.keep x
    · simpa [hx] using ih
  | @drop x _ _ hneeded _ ih =>
    by_cases hx : test x = true
    · simpa [hx] using ih.drop hneeded
    · simpa [hx] using ih

/-- **A test that only needed items pass** makes the same of both lists. -/
theorem filter_eq (h : Thinned needed xs ys) (htest : ∀ x, test x = true → needed x) :
    ys.filter test = xs.filter test := by
  induction h with
  | nil => rfl
  | keep x _ ih => simp [List.filter_cons, ih]
  | @drop x _ _ hneeded _ ih =>
    have hx : ¬ test x = true := fun hx => hneeded (htest x hx)
    simp [hx, ih]

/-- A filter that all needed items pass leaves out unneeded ones only. -/
lemma of_filter (h : ∀ x ∈ xs, needed x → test x = true) : Thinned needed xs (xs.filter test) := by
  induction xs with
  | nil => exact .nil
  | cons x xs ih =>
    obtain ⟨hx, hxs⟩ := List.forall_mem_cons.mp h
    by_cases htest : test x = true
    · rw [List.filter_cons_of_pos htest]
      exact (ih hxs).keep x
    · rw [List.filter_cons_of_neg htest]
      exact (ih hxs).drop fun hneeded => htest (hx hneeded)

/-- Lists that are cut by one test are thinned on both sides of the cut. -/
lemma cut {m₁ m₂ : List α} (h : Thinned needed (l₁ ++ l₂) (m₁ ++ m₂))
    (hl₁ : ∀ b ∈ l₁, test b = true) (hl₂ : ∀ b ∈ l₂, ¬ test b = true)
    (hm₁ : ∀ b ∈ m₁, test b = true) (hm₂ : ∀ b ∈ m₂, ¬ test b = true) :
    Thinned needed l₁ m₁ ∧ Thinned needed l₂ m₂ := by
  have hpart : ∀ {k₁ k₂ : List α}, (∀ b ∈ k₁, test b = true) → (∀ b ∈ k₂, ¬ test b = true) →
      (k₁ ++ k₂).filter test = k₁ ∧ (k₁ ++ k₂).filter (fun b => !test b) = k₂ := by
    intro k₁ k₂ hk₁ hk₂
    simp only [List.filter_append]
    constructor
    · rw [List.filter_eq_self.mpr hk₁, List.filter_eq_nil_iff.mpr hk₂, List.append_nil]
    · rw [List.filter_eq_nil_iff.mpr (by simpa using hk₁),
        List.filter_eq_self.mpr (by simpa using hk₂), List.nil_append]
  have hfront := h.filter test
  have hback := h.filter fun b => !test b
  rw [(hpart hl₁ hl₂).1, (hpart hm₁ hm₂).1] at hfront
  rw [(hpart hl₁ hl₂).2, (hpart hm₁ hm₂).2] at hback
  exact ⟨hfront, hback⟩

/-- **A merge sort** of the thinner list leaves out unneeded items only. -/
theorem mergeSort [Std.TransCmp cmp] (h : Thinned needed xs ys) :
    Thinned needed (xs.mergeSort fun a b => cmp a b != .gt)
      (ys.mergeSort fun a b => cmp a b != .gt) := by
  induction h with
  | nil => simpa using Thinned.nil
  | @keep x xs ys _ ih =>
    obtain ⟨l₁, l₂, hcons, hxs, hbefore⟩ := mergeSort_cons cmp x xs
    obtain ⟨m₁, m₂, hcons', hys, hbefore'⟩ := mergeSort_cons cmp x ys
    -- Both sorts put `x` behind the items below it, so they cut the rest at the same place.
    rw [hxs, hys] at ih
    obtain ⟨hfront, hback⟩ := ih.cut hbefore
      (not_below_of_sorted (hcons ▸ pairwise_mergeSort (x :: xs))) hbefore'
      (not_below_of_sorted (hcons' ▸ pairwise_mergeSort (x :: ys)))
    rw [hcons, hcons']
    exact hfront.append (hback.keep x)
  | @drop x xs ys hx _ ih =>
    obtain ⟨l₁, l₂, hcons, hxs, _⟩ := mergeSort_cons cmp x xs
    rw [hxs] at ih
    rw [hcons]
    exact ih.insert hx

/-- **Sorting by an order** leaves out unneeded items only. -/
theorem stableSort (h : Thinned needed xs ys) (horder : OrdersOn cmp p) (hxs : ∀ x ∈ xs, p x) :
    Thinned needed (stableSort cmp xs) (Sorting.stableSort cmp ys) := by
  have hys : ∀ y ∈ ys, p y := fun y hy => hxs y (h.sublist.subset hy)
  rw [stableSort_eq_mergeSort horder hxs, stableSort_eq_mergeSort horder hys]
  obtain ⟨zs, rfl⟩ := exists_lift hxs
  obtain ⟨ws, rfl, hws⟩ := h.exists_map
  have : Std.TransCmp fun a b : {a // p a} => cmp a.1 b.1 := horder
  rw [mergeSort_map, mergeSort_map]
  exact hws.mergeSort.map

end Thinned

end SlotStore.Sorting
