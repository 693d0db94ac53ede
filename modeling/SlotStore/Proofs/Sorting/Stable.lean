import Mathlib.Data.List.SplitBy
import Mathlib.Data.Set.List
import Mathlib.Tactic.Common
import SlotStore.Sorting

/-!
# Stable sorting by an order

A comparison may order some items only.  Sorting such items is a stable merge sort.

* `Sorting.OrdersOn` : a comparison that is a total preorder on some items;
* `Sorting.mergeSort_cons` : where a merge sort puts one more item;
* `Sorting.stableSort_eq_mergeSort` : the method for comparisons that are no order is not used.
-/

namespace SlotStore.Sorting

variable {α β : Type} {cmp : α → α → Ordering} {p q : α → Prop} {xs : List α}

/-- **A comparison is an order on the items with a property**: reflexive, total and transitive. -/
def OrdersOn (cmp : α → α → Ordering) (p : α → Prop) : Prop :=
  Std.TransCmp fun a b : {a // p a} => cmp a.1 b.1

namespace OrdersOn

lemma mono (h : OrdersOn cmp p) (hq : ∀ a, q a → p a) : OrdersOn cmp q where
  eq_swap {a b} := h.eq_swap (a := ⟨a, hq a a.2⟩) (b := ⟨b, hq b b.2⟩)
  isLE_trans {a b c} :=
    h.isLE_trans (a := ⟨a, hq a a.2⟩) (b := ⟨b, hq b b.2⟩) (c := ⟨c, hq c c.2⟩)

/-- Items in the order of something they have. -/
lemma comap (h : OrdersOn cmp p) (f : β → α) :
    OrdersOn (fun a b => cmp (f a) (f b)) fun b => p (f b) where
  eq_swap {a b} := h.eq_swap (a := ⟨f a, a.2⟩) (b := ⟨f b, b.2⟩)
  isLE_trans {a b c} := h.isLE_trans (a := ⟨f a, a.2⟩) (b := ⟨f b, b.2⟩) (c := ⟨f c, c.2⟩)

/-- What items in order have is in order. -/
lemma image {f : β → α} {q : β → Prop} (h : OrdersOn (fun a b => cmp (f a) (f b)) q) :
    OrdersOn cmp fun a => ∃ b, q b ∧ f b = a where
  eq_swap {a b} := by
    obtain ⟨_, x, hx, rfl⟩ := a
    obtain ⟨_, y, hy, rfl⟩ := b
    exact h.eq_swap (a := ⟨x, hx⟩) (b := ⟨y, hy⟩)
  isLE_trans {a b c} hab hbc := by
    obtain ⟨_, x, hx, rfl⟩ := a
    obtain ⟨_, y, hy, rfl⟩ := b
    obtain ⟨_, z, hz, rfl⟩ := c
    exact h.isLE_trans (a := ⟨x, hx⟩) (b := ⟨y, hy⟩) (c := ⟨z, hz⟩) hab hbc

/-- The reverse of an order. -/
lemma reverse (h : OrdersOn cmp p) : OrdersOn (fun a b => (cmp a b).swap) p where
  eq_swap {a b} := congrArg Ordering.swap h.eq_swap
  isLE_trans {a b c} hab hbc := by
    have hswap : ∀ a b : {a // p a}, (cmp a b).swap = cmp b a := fun a b => h.eq_swap.symm
    simp only [hswap] at hab hbc ⊢
    exact h.isLE_trans hbc hab

end OrdersOn

/-! ## Cuts of a list -/

/-- Where a list is cut between items that pass a test and items that do not, is determined. -/
lemma cut_unique {test : α → Bool} {l₁ l₂ m₁ m₂ : List α} (h : l₁ ++ l₂ = m₁ ++ m₂)
    (hl₁ : ∀ b ∈ l₁, test b = true) (hl₂ : ∀ b ∈ l₂, ¬ test b = true)
    (hm₁ : ∀ b ∈ m₁, test b = true) (hm₂ : ∀ b ∈ m₂, ¬ test b = true) : l₁ = m₁ ∧ l₂ = m₂ := by
  have hfilter := congrArg (List.filter test) h
  rw [List.filter_append, List.filter_append, List.filter_eq_self.mpr hl₁,
    List.filter_eq_nil_iff.mpr hl₂, List.filter_eq_self.mpr hm₁, List.filter_eq_nil_iff.mpr hm₂,
    List.append_nil, List.append_nil] at hfilter
  subst hfilter
  exact ⟨rfl, List.append_cancel_left h⟩

/-- An item stands before the items of a sorted list that are not below it. -/
lemma not_below_of_sorted {a : α} {l₁ l₂ : List α}
    (h : (l₁ ++ a :: l₂).Pairwise fun x y => (cmp x y != .gt) = true) :
    ∀ b ∈ l₂, ¬ (!(cmp a b != .gt)) = true := by
  intro b hb
  have hle := (List.pairwise_cons.mp (List.pairwise_append.mp h).2.1).1 b hb
  rw [hle]
  exact Bool.false_ne_true

section Order

variable [Std.TransCmp cmp]

/-! ## Classes of equal items -/

instance transEq : Trans (fun x y => (cmp x y == .eq) = true) (fun x y => (cmp x y == .eq) = true)
    fun x y => (cmp x y == .eq) = true :=
  ⟨fun hxy hyz => beq_iff_eq.mpr
    (Std.TransCmp.eq_trans (beq_iff_eq.mp hxy) (beq_iff_eq.mp hyz))⟩

/-- Items that are linked by equality are equal. -/
lemma eq_of_chain {c : List α} (hc : c.IsChain fun x y => (cmp x y == .eq) = true) {x y : α}
    (hx : x ∈ c) (hy : y ∈ c) : cmp x y = .eq := by
  cases c with
  | nil => cases hx
  | cons a c =>
    have hfirst : ∀ z ∈ a :: c, cmp a z = .eq := by
      intro z hz
      rcases List.mem_cons.mp hz with rfl | hz
      · exact Std.ReflCmp.compare_self
      · exact beq_iff_eq.mp (hc.rel_cons hz)
    exact Std.TransCmp.eq_trans (Std.OrientedCmp.eq_symm (hfirst x hx)) (hfirst y hy)

/-- The first item of sorted groups is not above any other. -/
lemma head_isLE {c : List α} {cs : List (List α)} (hc : c ≠ [])
    (hsorted : (c :: cs).flatten.Pairwise fun x y => (cmp x y).isLE = true) {y : α}
    (hy : y ∈ (c :: cs).flatten) : (cmp (c.head hc) y).isLE = true := by
  obtain ⟨z, c, rfl⟩ := List.exists_cons_of_ne_nil hc
  rw [List.flatten_cons, List.cons_append] at hsorted hy
  rcases List.mem_cons.mp hy with rfl | hy
  · exact Std.ReflCmp.isLE_rfl
  · exact (List.pairwise_cons.mp hsorted).1 y hy

/-- **Items in order stand in classes**, each of equal items and before all later ones. -/
lemma isOrderOn_of_chain {cs : List (List α)}
    (hequal : ∀ c ∈ cs, ∀ x ∈ c, ∀ y ∈ c, cmp x y = .eq)
    (hsorted : cs.flatten.Pairwise fun x y => (cmp x y).isLE = true)
    (hapart : cs.IsChain fun a b => ∃ ha hb, (cmp (a.getLast ha) (b.head hb) == .eq) = false) :
    isOrderOn cmp cs = true := by
  induction cs with
  | nil => rfl
  | cons c cs ih =>
    rw [List.flatten_cons, List.pairwise_append] at hsorted
    obtain ⟨-, hrest, hacross⟩ := hsorted
    have hlt : ∀ d ∈ cs, ∀ x ∈ c, ∀ y ∈ d, cmp x y = .lt := by
      intro d hd x hx y hy
      cases cs with
      | nil => cases hd
      | cons e cs =>
        -- The last item of `c` is equal to `x`, and the first one after `c` stands before `y`.
        obtain ⟨⟨hc, he, hne⟩, -⟩ := List.isChain_cons_cons.mp hapart
        have hlast : cmp x (c.getLast hc) = .eq :=
          hequal c List.mem_cons_self x hx _ (List.getLast_mem hc)
        have hstep : (cmp (c.getLast hc) (e.head he)).isLE = true :=
          hacross _ (List.getLast_mem hc) _
            (List.mem_flatten_of_mem List.mem_cons_self (List.head_mem he))
        have hstrict : cmp (c.getLast hc) (e.head he) = .lt := by
          revert hstep hne
          cases cmp (c.getLast hc) (e.head he) <;> decide
        have hhead := head_isLE he hrest (List.mem_flatten_of_mem hd hy)
        exact Std.TransCmp.lt_of_eq_of_lt hlast (Std.TransCmp.lt_of_lt_of_isLE hstrict hhead)
    have hrest := ih (fun d hd => hequal d (List.mem_cons_of_mem _ hd)) hrest hapart.tail
    simp only [isOrderOn, Bool.and_eq_true, List.all_eq_true, beq_iff_eq]
    refine ⟨⟨hequal c List.mem_cons_self, fun d hd x hx y hy => ⟨hlt d hd x hx y hy, ?_⟩⟩, hrest⟩
    exact Std.OrientedCmp.gt_of_lt (hlt d hd x hx y hy)

/-! ## Sorting by an order -/

lemma notAbove_trans (a b c : α) (hab : (cmp a b != .gt) = true) (hbc : (cmp b c != .gt) = true) :
    (cmp a c != .gt) = true := by
  rw [bne_iff_ne, ne_eq, ← Ordering.isLE_iff_ne_gt] at *
  exact Std.TransCmp.isLE_trans hab hbc

lemma notAbove_total (a b : α) : ((cmp a b != .gt) || (cmp b a != .gt)) = true := by
  have hswap : cmp b a = (cmp a b).swap := Std.OrientedCmp.eq_swap
  rw [hswap]
  cases cmp a b <;> rfl

/-- **A merge sort sorts.** -/
lemma pairwise_mergeSort (xs : List α) :
    (xs.mergeSort fun x y => cmp x y != .gt).Pairwise fun x y => (cmp x y != .gt) = true :=
  List.pairwise_mergeSort notAbove_trans notAbove_total xs

/-- Where a merge sort puts one more item: behind those that are below it. -/
lemma mergeSort_cons (cmp : α → α → Ordering) [Std.TransCmp cmp] (a : α) (xs : List α) :
    ∃ l₁ l₂, ((a :: xs).mergeSort fun x y => cmp x y != .gt) = l₁ ++ a :: l₂ ∧
      (xs.mergeSort fun x y => cmp x y != .gt) = l₁ ++ l₂ ∧
      ∀ b ∈ l₁, (!(cmp a b != .gt)) = true :=
  List.mergeSort_cons notAbove_trans notAbove_total a xs

/-- What a merge sort brings about stands in classes. -/
lemma isOrderOn_sorted (xs : List α) :
    isOrderOn cmp ((xs.mergeSort fun x y => cmp x y != .gt).splitBy fun x y => cmp x y == .eq) =
      true := by
  refine isOrderOn_of_chain (fun c hc x hx y hy => ?_) ?_ ?_
  · exact eq_of_chain (List.isChain_of_mem_splitBy hc) hx hy
  · rw [List.flatten_splitBy]
    refine (pairwise_mergeSort xs).imp fun hxy => ?_
    rw [bne_iff_ne, ne_eq, ← Ordering.isLE_iff_ne_gt] at hxy
    exact hxy
  · exact List.isChain_getLast_head_splitBy (fun x y => cmp x y == .eq) _

end Order

/-! ## Sorting items that an order is about -/

section OrdersOn

variable {f : β → α}

lemma splitBy_map (r : α → α → Bool) (f : β → α) (xs : List β) :
    (xs.map f).splitBy r = (xs.splitBy fun x y => r (f x) (f y)).map (List.map f) := by
  have hloop : ∀ (xs : List β) (last : β) (run : List β) (runs : List (List β)),
      List.splitBy.loop r (xs.map f) (f last) (run.map f) (runs.map (List.map f)) =
        (List.splitBy.loop (fun x y => r (f x) (f y)) xs last run runs).map (List.map f) := by
    intro xs
    induction xs with
    | nil => simp [List.splitBy.loop]
    | cons x xs ih =>
      intro last run runs
      simp only [List.map_cons, List.splitBy.loop]
      cases r (f last) (f x)
      · simpa using ih x [] ((last :: run).reverse :: runs)
      · exact ih x (last :: run) runs
  cases xs with
  | nil => rfl
  | cons x xs => exact hloop xs x [] []

lemma isOrderOn_map (cmp : α → α → Ordering) (f : β → α) (cs : List (List β)) :
    isOrderOn cmp (cs.map (List.map f)) = isOrderOn (fun x y => cmp (f x) (f y)) cs := by
  induction cs with
  | nil => rfl
  | cons c cs ih => simp only [isOrderOn, List.map_cons, List.all_map, Function.comp_def, ih]

/-- Items are sorted by what the comparison sees of them. -/
lemma mergeSort_map (cmp : α → α → Ordering) (f : β → α) (xs : List β) :
    (xs.map f).mergeSort (fun x y => cmp x y != .gt) =
      (xs.mergeSort fun x y => cmp (f x) (f y) != .gt).map f :=
  (List.map_mergeSort (f := f) (s := fun x y => cmp x y != .gt) fun _ _ _ _ => rfl).symm

lemma exists_lift (hxs : ∀ x ∈ xs, p x) : ∃ ys : List {a // p a}, xs = ys.map (·.1) := by
  lift xs to List {a // p a} using hxs
  exact ⟨xs, rfl⟩

/-- **Sorting by an order is a stable merge sort.** -/
theorem stableSort_eq_mergeSort (h : OrdersOn cmp p) (hxs : ∀ x ∈ xs, p x) :
    stableSort cmp xs = xs.mergeSort fun x y => cmp x y != .gt := by
  obtain ⟨ys, rfl⟩ := exists_lift hxs
  have : Std.TransCmp fun a b : {a // p a} => cmp a.1 b.1 := h
  rw [stableSort, if_pos]
  rw [mergeSort_map, splitBy_map, isOrderOn_map]
  exact isOrderOn_sorted ys

/-- A sort keeps the items. -/
lemma mem_stableSort (h : OrdersOn cmp p) (hxs : ∀ x ∈ xs, p x) {x : α} :
    x ∈ stableSort cmp xs ↔ x ∈ xs := by
  rw [stableSort_eq_mergeSort h hxs, List.mem_mergeSort]

/-- Items are sorted by an order of what the comparison sees of them. -/
theorem stableSort_map {q : β → Prop} {zs : List β}
    (h : OrdersOn (fun x y => cmp (f x) (f y)) q) (hzs : ∀ z ∈ zs, q z) :
    stableSort cmp (zs.map f) = (stableSort (fun x y => cmp (f x) (f y)) zs).map f := by
  have himages : ∀ x ∈ zs.map f, ∃ z, q z ∧ f z = x := by
    intro x hx
    obtain ⟨z, hz, rfl⟩ := List.mem_map.mp hx
    exact ⟨z, hzs z hz, rfl⟩
  rw [stableSort_eq_mergeSort h.image himages, stableSort_eq_mergeSort h hzs, mergeSort_map]

end OrdersOn

end SlotStore.Sorting
