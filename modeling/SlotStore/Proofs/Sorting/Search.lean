import Mathlib.Tactic.Common
import SlotStore.Proofs.Sorting.Stable

/-!
# Searching a sorted list

In a list that a target cuts into items below it, equal to it and above it, the halving search finds
an equal item, or the gap where one belongs.

* `Sorting.Cut` : lists that a target cuts so;
* `Sorting.Found`, `Sorting.found_search` : what the search comes to;
* `Sorting.partitionPoint_append` : the number of items in front that pass a test.
-/

namespace SlotStore.Sorting

variable {α : Type} {cmp : α → Ordering} {xs l m r : List α}

/-- **A list that a target cuts**: items below the target stand first, and items above it last.  The
comparison tells how an item compares with the target. -/
def Cut (cmp : α → Ordering) (xs : List α) : Prop :=
  xs.Pairwise fun a b => (cmp a = .gt → cmp b = .gt) ∧ (cmp b = .lt → cmp a = .lt)

/-! ## Narrowing -/

section Narrow

variable {at? : Nat → Ordering} {n : Nat}

/-- **The search narrows the window** down to the last position that is not above the target, if any
is not. -/
lemma narrow_spec (hmono : ∀ i j, i ≤ j → j < n → at? i = .gt → at? j = .gt) :
    ∀ fuel size base, size ≤ fuel → 0 < size → base + size ≤ n →
      (∀ i, base + size ≤ i → i < n → at? i = .gt) → (base = 0 ∨ at? base ≠ .gt) →
      ∀ last, narrow at? fuel size base = last →
        last < n ∧ (∀ i, last < i → i < n → at? i = .gt) ∧ (last = 0 ∨ at? last ≠ .gt) := by
  -- The fuel is never used up: half of a window of two or more items is less than the window.
  intro fuel
  induction fuel with
  | zero => intro size base hfuel hpos; omega
  | succ fuel ih =>
    intro size base hfuel hpos hn habove hbase last hlast
    rw [narrow] at hlast
    split at hlast
    · subst hlast
      exact ⟨by omega, fun i hi => habove i (by omega), hbase⟩
    · dsimp only at hlast
      split at hlast
      · rename_i hmiddle
        refine ih _ _ (by omega) (by omega) (by omega) (fun i hi hin => ?_) hbase last hlast
        exact hmono (base + size / 2) i (by omega) hin (beq_iff_eq.mp hmiddle)
      · rename_i hmiddle
        refine ih _ _ (by omega) (by omega) (by omega) (fun i hi => habove i (by omega)) ?_ last
          hlast
        exact Or.inr fun h => hmiddle (beq_iff_eq.mpr h)

/-- The search stays within its window, whatever the comparison. -/
lemma narrow_lt {fuel size base : Nat} (hpos : 0 < size) (hn : base + size ≤ n) :
    narrow at? fuel size base < n := by
  induction fuel generalizing size base with
  | zero => rw [narrow]; omega
  | succ fuel ih =>
    rw [narrow]
    split
    · omega
    · dsimp only
      split <;> exact ih (by omega) (by omega)

end Narrow

/-- **A search ends inside the list or at its end**, whatever the comparison. -/
theorem search_le (cmp : α → Ordering) (xs : List α) : (search cmp xs).2 ≤ xs.length := by
  rw [search]
  dsimp only
  by_cases hempty : xs.toArray.size = 0
  · rw [if_pos hempty]
    exact Nat.zero_le _
  · rw [if_neg hempty]
    have hlast : narrow (fun i => ((xs.toArray[i]?).map cmp).getD .eq) xs.toArray.size
        xs.toArray.size 0 < xs.toArray.size :=
      narrow_lt (Nat.pos_of_ne_zero hempty) (Nat.le_of_eq (Nat.zero_add _))
    rw [List.size_toArray] at hlast
    split
    · exact Nat.le_of_lt hlast
    · exact hlast
    · exact Nat.le_of_lt hlast

/-! ## What a search finds -/

/-- **What a search finds** in a list: an equal item and its position, or the gap between the items
below the target and those above. -/
inductive Found (cmp : α → Ordering) (xs : List α) : Bool × Nat → Prop
  | item {l r : List α} {x : α} (hxs : xs = l ++ x :: r) (hx : cmp x = .eq) :
    Found cmp xs (true, l.length)
  | gap {l r : List α} (hxs : xs = l ++ r) (hl : ∀ x ∈ l, cmp x = .lt)
    (hr : ∀ x ∈ r, cmp x = .gt) : Found cmp xs (false, l.length)

/-- The last position that is not above the target tells where the target belongs. -/
lemma found_of_last (h : Cut cmp xs) {last : Nat} (hlast : last < xs.length)
    (habove : ∀ i (hi : i < xs.length), last < i → cmp xs[i] = .gt)
    (hbelow : last = 0 ∨ cmp xs[last] ≠ .gt) :
    Found cmp xs (match cmp xs[last] with
      | .eq => (true, last)
      | .lt => (false, last + 1)
      | .gt => (false, last)) := by
  have hsplit : xs = xs.take last ++ xs[last] :: xs.drop (last + 1) := by
    rw [List.getElem_cons_drop, List.take_append_drop]
  have hlength : (xs.take last).length = last := List.length_take_of_le (Nat.le_of_lt hlast)
  have hafter : ∀ x ∈ xs.drop (last + 1), cmp x = .gt := by
    intro x hx
    obtain ⟨i, hi, rfl⟩ := List.getElem_of_mem hx
    rw [List.getElem_drop]
    exact habove _ _ (by omega)
  obtain ⟨-, hpairs, hbefore⟩ := List.pairwise_append.mp (hsplit ▸ h)
  generalize hx : xs[last] = x at *
  cases hcmp : cmp x with
  | eq =>
    have hfound : Found cmp xs _ := .item hsplit hcmp
    rwa [hlength] at hfound
  | lt =>
    have hsplit' : xs = (xs.take last ++ [x]) ++ xs.drop (last + 1) := by
      rwa [List.append_assoc, List.singleton_append]
    have hfront : ∀ y ∈ xs.take last ++ [x], cmp y = .lt := by
      intro y hy
      rcases List.mem_append.mp hy with hy | hy
      · exact (hbefore y hy x List.mem_cons_self).2 hcmp
      · rw [List.mem_singleton.mp hy, hcmp]
    have hfound := Found.gap hsplit' hfront hafter
    rwa [List.length_append, hlength] at hfound
  | gt =>
    -- Only the first item may be above the target, and then all are.
    obtain rfl : last = 0 := hbelow.resolve_right fun hne => hne hcmp
    refine .gap (l := []) (r := xs) rfl (fun y hy => by cases hy) fun y hy => ?_
    rw [hsplit, List.take_zero, List.nil_append] at hy
    rcases List.mem_cons.mp hy with rfl | hy
    · exact hcmp
    · exact hafter y hy

/-- **The search finds** an equal item, or the gap for one. -/
theorem found_search (h : Cut cmp xs) : Found cmp xs (search cmp xs) := by
  rw [search]
  dsimp only
  by_cases hempty : xs.toArray.size = 0
  · obtain rfl : xs = [] := List.eq_nil_of_length_eq_zero hempty
    exact .gap (l := []) (r := []) rfl (fun x hx => by cases hx) fun x hx => by cases hx
  rw [if_neg hempty]
  generalize hat : (fun i : Nat => ((xs.toArray[i]?).map cmp).getD .eq) = at?
  have hget : ∀ i (hi : i < xs.length), at? i = cmp xs[i] := by
    intro i hi
    subst hat
    simp [hi]
  have hmono : ∀ i j, i ≤ j → j < xs.length → at? i = .gt → at? j = .gt := by
    intro i j hij hj hi
    rcases Nat.lt_or_eq_of_le hij with hlt | rfl
    · rw [hget j hj]
      rw [hget i (by omega)] at hi
      exact (List.pairwise_iff_getElem.mp h i j (by omega) hj hlt).1 hi
    · exact hi
  have hpos : 0 < xs.length := Nat.pos_of_ne_zero hempty
  obtain ⟨hlast, habove, hbelow⟩ := narrow_spec hmono xs.length xs.length 0 (Nat.le_refl _) hpos
    (by omega) (fun i hi hin => by omega) (Or.inl rfl) _ rfl
  have hfound := found_of_last h hlast (fun i hi hlt => (hget i hi).symm.trans (habove i hlt hi))
    (hbelow.imp_right fun hne => by rwa [hget _ hlast] at hne)
  rw [← hget _ hlast] at hfound
  subst hat
  exact hfound

/-! ## Parts of a list -/

section Order

variable {β : Type} {order : β → β → Ordering} {p : β → Prop} {a b t : β}

lemma sides_of_isLE (order : β → β → Ordering) [Std.TransCmp order]
    (hab : (order a b).isLE = true) :
    (order a t = .gt → order b t = .gt) ∧ (order b t = .lt → order a t = .lt) := by
  refine ⟨fun hgt => ?_, fun hlt => Std.TransCmp.lt_of_isLE_of_lt hab hlt⟩
  exact Std.OrientedCmp.gt_of_lt
    (Std.TransCmp.lt_of_lt_of_isLE (Std.OrientedCmp.lt_of_gt hgt) hab)

/-- **A target cuts a list in order.** -/
lemma cut_of_pairwise (h : OrdersOn order p) {f : α → β} (hxs : ∀ x ∈ xs, p (f x)) (ht : p t)
    (hs : xs.Pairwise fun a b => (order (f a) (f b)).isLE = true) :
    Cut (fun x => order (f x) t) xs := by
  have : Std.TransCmp fun a b : {b // p b} => order a.1 b.1 := h
  refine hs.imp_of_mem fun {a b} ha hb hab => ?_
  exact sides_of_isLE (fun a b : {b // p b} => order a.1 b.1) (a := ⟨f a, hxs a ha⟩)
    (b := ⟨f b, hxs b hb⟩) (t := ⟨t, ht⟩) hab

end Order

/-- A list of two parts is cut where they meet. -/
lemma cut_of_parts (hl : ∀ x ∈ l, cmp x = .lt) (hr : ∀ x ∈ r, cmp x = .gt) : Cut cmp (l ++ r) := by
  refine List.pairwise_append.mpr ⟨?_, ?_, fun a ha b hb => ?_⟩
  · refine List.pairwise_iff_forall_sublist.mpr fun {a b} hab => ?_
    rw [hl a (hab.subset List.mem_cons_self)]
    exact ⟨fun h => (by cases h), fun _ => rfl⟩
  · refine List.pairwise_iff_forall_sublist.mpr fun {a b} hab => ?_
    rw [hr b (hab.subset (List.mem_cons_of_mem _ List.mem_cons_self))]
    exact ⟨fun _ => rfl, fun h => (by cases h)⟩
  · rw [hl a ha, hr b hb]
    exact ⟨fun h => (by cases h), fun h => (by cases h)⟩

/-- **The number of items in front that pass a test**, if those that do not stand behind them. -/
theorem partitionPoint_append {test : α → Bool} (hl : ∀ x ∈ l, test x = true)
    (hr : ∀ x ∈ r, ¬ test x = true) : partitionPoint test (l ++ r) = l.length := by
  have hcut : Cut (fun x => if test x then .lt else .gt) (l ++ r) :=
    cut_of_parts (fun x hx => if_pos (hl x hx)) fun x hx => if_neg (hr x hx)
  have hfound := found_search hcut
  rw [partitionPoint]
  generalize search (fun x => if test x then .lt else .gt) (l ++ r) = result at hfound ⊢
  cases hfound with
  | item hxs hx => split at hx <;> cases hx
  | gap hxs hl' hr' =>
    have hlt : ∀ x, (if test x then Ordering.lt else .gt) = .lt → test x = true := by
      intro x hx
      split at hx
      · assumption
      · cases hx
    have hgt : ∀ x, (if test x then Ordering.lt else .gt) = .gt → ¬ test x = true := by
      intro x hx
      split at hx
      · cases hx
      · assumption
    rw [(cut_unique hxs hl hr (fun x hx => hlt x (hl' x hx)) fun x hx => hgt x (hr' x hx)).1]

/-- The three parts of a list that a target cuts. -/
lemma Cut.parts (h : Cut cmp xs) : ∃ l m r, xs = l ++ (m ++ r) ∧ (∀ x ∈ l, cmp x = .lt) ∧
    (∀ x ∈ m, cmp x = .eq) ∧ ∀ x ∈ r, cmp x = .gt := by
  induction xs with
  | nil => exact ⟨[], [], [], rfl, nofun, nofun, nofun⟩
  | cons a xs ih =>
    obtain ⟨ha, hxs⟩ := List.pairwise_cons.mp h
    obtain ⟨l, m, r, rfl, hl, hm, hr⟩ := ih hxs
    cases hcmp : cmp a with
    | lt => exact ⟨a :: l, m, r, rfl, List.forall_mem_cons.mpr ⟨hcmp, hl⟩, hm, hr⟩
    | eq =>
      have hnil : l = [] := List.eq_nil_iff_forall_not_mem.mpr fun b hb => by
        have hlt := (ha b (List.mem_append_left _ hb)).2 (hl b hb)
        rw [hcmp] at hlt
        cases hlt
      subst hnil
      exact ⟨[], a :: m, r, rfl, nofun, List.forall_mem_cons.mpr ⟨hcmp, hm⟩, hr⟩
    | gt =>
      exact ⟨[], [], a :: (l ++ (m ++ r)), rfl, nofun, nofun,
        List.forall_mem_cons.mpr ⟨hcmp, fun b hb => (ha b hb).1 hcmp⟩⟩

end SlotStore.Sorting
