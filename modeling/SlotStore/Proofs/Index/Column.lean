import Mathlib.Tactic.Common
import SlotStore.FieldIndex
import SlotStore.Proofs.Sorting.Search
import SlotStore.Proofs.Value.Rank

/-!
# Columns of an index

A column of coherent values stays in order: it has one cell for each entity that was put in, and a
lookup finds the cells whose value ranks equal to the given one.

* `FieldIndex.Column.Lists` : a column that lists some documents;
* `FieldIndex.Column.Lists.insert`, `FieldIndex.Column.Lists.remove` : one document more or less;
* `FieldIndex.Column.Lists.mem_keysOf`, `FieldIndex.Column.Lists.keysOf_sorted` : what a lookup
  finds, and in which order.
-/

namespace SlotStore

namespace Key

lemma number_inj {a b : Key} (h : a.number = b.number) : a = b := by
  have hread : ∀ k : Key, (Bytes.littleEndian 16 k.number).reverse = k.bytes := by
    intro k
    have hwrite := Bytes.littleEndian_ofLittleEndian k.bytes.reverse
    rw [List.length_reverse, k.length_bytes] at hwrite
    rw [number, Bytes.ofBigEndian, hwrite, List.reverse_reverse]
  have hbytes : a.bytes = b.bytes := by rw [← hread a, h, hread b]
  cases a
  cases b
  cases hbytes
  rfl

lemma compare_eq_eq {a b : Key} : a.compare b = .eq ↔ a = b := by
  rw [compare, Nat.compare_eq_eq]
  exact ⟨number_inj, congrArg number⟩

end Key

namespace FieldIndex

variable {p : Value → Prop}

/-- Cells of coherent values are in order. -/
lemma Cell.compare_ordersOn (h : Value.Coherent p) :
    Sorting.OrdersOn Cell.compare fun cell => p cell.value := by
  have hvalue : Std.TransCmp fun a b : {cell : Cell // p cell.value} =>
      a.1.value.rankCompare b.1.value := (Value.rankCompare_ordersOn h).comap Cell.value
  have hkey : Std.TransCmp fun a b : {cell : Cell // p cell.value} => a.1.key.compare b.1.key :=
    { eq_swap := Std.OrientedOrd.eq_swap, isLE_trans := Std.TransOrd.isLE_trans }
  exact inferInstanceAs (Std.TransCmp (compareLex _ _))

lemma Cell.compare_swap (a b : Cell) : a.compare b = (b.compare a).swap := by
  rw [compare, compare, Ordering.swap_then, ← Value.rankCompare_swap]
  exact congrArg _ Std.OrientedOrd.eq_swap

lemma Cell.compare_self (a : Cell) : a.compare a = .eq := by
  have hswap := Cell.compare_swap a a
  revert hswap
  cases a.compare a <;> decide

/-- Cells that rank equal belong to one key. -/
lemma Cell.key_of_compare {a b : Cell} (h : a.compare b = .eq) : a.key = b.key := by
  rw [compare, Ordering.then_eq_eq] at h
  exact Key.compare_eq_eq.mp h.2

/-! ## Columns that list documents -/

/-- The cell of a document. -/
def cellOf (path : FieldPath) (k : Key) (d : Document) : Cell := ⟨path.valueOrNull d, k⟩

namespace Column

variable {c : Column} {docs : Key → Option Document} {k : Key} {d : Document} {v : Value}
  {cell : Cell}

/-- **A column lists documents**: it has their cells, in order. -/
structure Lists (c : Column) (docs : Key → Option Document) : Prop where
  sorted : c.cells.Pairwise fun a b => a.compare b = .lt
  mem : ∀ cell, cell ∈ c.cells ↔ ∃ d, docs cell.key = some d ∧ cell = cellOf c.path cell.key d

lemma lists_empty (path : FieldPath) : Lists ⟨path, []⟩ fun _ => none :=
  ⟨.nil, fun cell => iff_of_false (by simp) (by simp)⟩

/-- A coherent column is cut in two by any coherent cell. -/
lemma Lists.cut (hl : c.Lists docs) (hp : Value.Coherent p) (hc : ∀ x ∈ c.cells, p x.value)
    (cell : Cell) (hcell : p cell.value) : Sorting.Cut (fun x => x.compare cell) c.cells :=
  Sorting.cut_of_pairwise (f := id) (Cell.compare_ordersOn hp) hc hcell
    (hl.sorted.imp fun h => by rw [id, id, h]; rfl)

/-- A column has one cell for a key, which holds the value of its document. -/
lemma Lists.cell_of_key (hl : c.Lists docs) (hcell : cell ∈ c.cells)
    (hk : docs cell.key = some d) : cell = cellOf c.path cell.key d := by
  obtain ⟨e, he, hcell⟩ := (hl.mem cell).mp hcell
  cases hk.symm.trans he
  exact hcell

lemma insertIdx_length {β : Type} (l r : List β) (x : β) :
    (l ++ r).insertIdx l.length x = l ++ x :: r := by
  induction l with
  | nil => rfl
  | cons y l ih => exact congrArg (y :: ·) ih

lemma eraseIdx_length {β : Type} (l r : List β) (x : β) :
    (l ++ x :: r).eraseIdx l.length = l ++ r := by
  induction l with
  | nil => rfl
  | cons y l ih => exact congrArg (y :: ·) ih

/-- **One document more.** -/
theorem Lists.insert (hl : c.Lists docs) (hp : Value.Coherent p) (hc : ∀ x ∈ c.cells, p x.value)
    (hd : p (c.path.valueOrNull d)) (hk : docs k = none) :
    (c.insert (cellOf c.path k d)).Lists fun j => if j = k then some d else docs j := by
  have hfound := Sorting.found_search (hl.cut hp hc (cellOf c.path k d) hd)
  have hnew : ∀ x ∈ c.cells, x.key ≠ k := by
    rintro x hx rfl
    obtain ⟨e, he, -⟩ := (hl.mem x).mp hx
    cases hk.symm.trans he
  rw [Column.insert, position]
  generalize Sorting.search _ _ = result at hfound ⊢
  obtain ⟨path, cells⟩ := c
  cases hfound with
  | @item l r x hxs hx =>
    -- An equal cell would have the key, which no cell has yet.
    exact absurd (Cell.key_of_compare hx)
      (hnew x (hxs ▸ List.mem_append_right _ List.mem_cons_self))
  | @gap l r hxs hlt hgt =>
    obtain rfl : cells = l ++ r := hxs
    obtain ⟨hleft, hright, hacross⟩ := List.pairwise_append.mp hl.sorted
    have hgt' : ∀ x ∈ r, (cellOf path k d).compare x = .lt := fun x hx => by
      rw [Cell.compare_swap, hgt x hx]
      rfl
    simp only [insertIdx_length]
    refine ⟨List.pairwise_append.mpr ⟨hleft, List.pairwise_cons.mpr ⟨hgt', hright⟩, ?_⟩, ?_⟩
    · intro x hx y hy
      rcases List.mem_cons.mp hy with rfl | hy
      · exact hlt x hx
      · exact hacross x hx y hy
    · intro x
      have hmem : x ∈ l ++ cellOf path k d :: r ↔ x = cellOf path k d ∨ x ∈ l ++ r := by
        simp only [List.mem_append, List.mem_cons]
        tauto
      dsimp only
      rw [hmem]
      by_cases hx : x.key = k
      · rw [if_pos hx]
        constructor
        · rintro (rfl | hmem)
          · exact ⟨d, rfl, rfl⟩
          · exact absurd hx (hnew x hmem)
        · rintro ⟨e, he, hxe⟩
          cases he
          exact Or.inl (hx ▸ hxe)
      · rw [if_neg hx]
        refine (or_iff_right ?_).trans (hl.mem x)
        rintro rfl
        exact hx rfl

/-- **One document less.** -/
theorem Lists.remove (hl : c.Lists docs) (hp : Value.Coherent p) (hc : ∀ x ∈ c.cells, p x.value)
    (hk : docs k = some d) :
    (c.remove (cellOf c.path k d)).Lists fun j => if j = k then none else docs j := by
  have hcell : cellOf c.path k d ∈ c.cells := (hl.mem _).mpr ⟨d, hk, rfl⟩
  have hfound := Sorting.found_search (hl.cut hp hc (cellOf c.path k d) (hc _ hcell))
  rw [Column.remove, position]
  generalize Sorting.search _ _ = result at hfound ⊢
  obtain ⟨path, cells⟩ := c
  cases hfound with
  | @item l r x hxs hx =>
    obtain rfl : cells = l ++ x :: r := hxs
    have hxk : x.key = k := Cell.key_of_compare hx
    obtain ⟨hleft, hright, hacross⟩ := List.pairwise_append.mp hl.sorted
    obtain ⟨hgt, hright⟩ := List.pairwise_cons.mp hright
    -- Another cell of the key would be the same cell, but the column is strictly in order.
    have hother : ∀ y ∈ l ++ r, y.key ≠ k := by
      intro y hy hyk
      have hmem : y ∈ l ++ x :: r :=
        (List.Sublist.append_left (List.sublist_cons_self x r) l).subset hy
      have hmem' : x ∈ l ++ x :: r := List.mem_append_right _ List.mem_cons_self
      have hsame : y = x := by
        rw [hl.cell_of_key hmem (hyk ▸ hk), hl.cell_of_key hmem' (hxk ▸ hk), hyk, hxk]
      subst hsame
      have hself := Cell.compare_self y
      rcases List.mem_append.mp hy with hy | hy
      · rw [hacross y hy y List.mem_cons_self] at hself
        cases hself
      · rw [hgt y hy] at hself
        cases hself
    simp only [eraseIdx_length]
    refine ⟨List.pairwise_append.mpr ⟨hleft, hright, fun y hy z hz =>
      hacross y hy z (List.mem_cons_of_mem _ hz)⟩, fun y => ?_⟩
    dsimp only
    by_cases hy : y.key = k
    · rw [if_pos hy]
      exact iff_of_false (fun h => hother y h hy) fun ⟨e, he, _⟩ => by cases he
    · rw [if_neg hy, ← hl.mem y]
      have hne : y ≠ x := fun h => hy (h ▸ hxk)
      simp only [List.mem_append, List.mem_cons, hne, false_or]
  | @gap l r hxs hlt hgt =>
    -- The cell is there, so it would be below itself or above.
    have hself := Cell.compare_self (cellOf path k d)
    obtain rfl : cells = l ++ r := hxs
    rcases List.mem_append.mp hcell with h | h
    · rw [hlt _ h] at hself
      cases hself
    · rw [hgt _ h] at hself
      cases hself

/-! ## Lookups -/

/-- The keys of a value are those of the cells between the ones below it and the ones above. -/
lemma keysOf_eq {l m r : List Cell} (hcells : c.cells = l ++ (m ++ r))
    (hlt : ∀ x ∈ l, x.value.rankCompare v = .lt) (heq : ∀ x ∈ m, x.value.rankCompare v = .eq)
    (hgt : ∀ x ∈ r, x.value.rankCompare v = .gt) : c.keysOf v = m.map (·.key) := by
  have hstart : Sorting.partitionPoint (fun x => x.value.rankCompare v == .lt) c.cells =
      l.length := by
    rw [hcells]
    refine Sorting.partitionPoint_append (fun x hx => beq_iff_eq.mpr (hlt x hx)) fun x hx => ?_
    rw [beq_iff_eq]
    rcases List.mem_append.mp hx with hx | hx
    · rw [heq x hx]
      exact nofun
    · rw [hgt x hx]
      exact nofun
  have hstop : Sorting.partitionPoint (fun x => x.value.rankCompare v != .gt) c.cells =
      (l ++ m).length := by
    rw [hcells, ← List.append_assoc]
    refine Sorting.partitionPoint_append (fun x hx => ?_) fun x hx => ?_
    · rw [bne_iff_ne]
      rcases List.mem_append.mp hx with hx | hx
      · rw [hlt x hx]
        exact nofun
      · rw [heq x hx]
        exact nofun
    · rw [hgt x hx]
      exact nofun
  rw [keysOf, hstart, hstop, hcells, ← List.append_assoc, List.take_left, List.drop_left]

/-- The cells that a value cuts a column into: those below it, those that rank equal, and those
above. -/
lemma Lists.parts (hl : c.Lists docs) (hp : Value.Coherent p) (hc : ∀ x ∈ c.cells, p x.value)
    (hv : p v) : ∃ l m r, c.cells = l ++ (m ++ r) ∧ (∀ x ∈ l, x.value.rankCompare v = .lt) ∧
      (∀ x ∈ m, x.value.rankCompare v = .eq) ∧ ∀ x ∈ r, x.value.rankCompare v = .gt := by
  -- Cells are in order by value and key, so in order by value as well.
  have hranks : c.cells.Pairwise fun a b => (a.value.rankCompare b.value).isLE = true := by
    refine hl.sorted.imp fun {a b} hab => ?_
    rw [Cell.compare] at hab
    revert hab
    cases a.value.rankCompare b.value <;> simp
  exact Sorting.Cut.parts
    (Sorting.cut_of_pairwise (f := Cell.value) (Value.rankCompare_ordersOn hp) hc hv hranks)

/-- **A lookup finds the cells whose value ranks equal** to the given one. -/
theorem Lists.mem_keysOf (hl : c.Lists docs) (hp : Value.Coherent p)
    (hc : ∀ x ∈ c.cells, p x.value) (hv : p v) :
    k ∈ c.keysOf v ↔ ∃ d, docs k = some d ∧ (c.path.valueOrNull d).rankCompare v = .eq := by
  obtain ⟨l, m, r, hcells, hlt, heq, hgt⟩ := hl.parts hp hc hv
  rw [keysOf_eq hcells hlt heq hgt, List.mem_map]
  constructor
  · rintro ⟨x, hx, rfl⟩
    have hmem : x ∈ c.cells := hcells ▸ List.mem_append_right _ (List.mem_append_left _ hx)
    obtain ⟨d, hd, hcell⟩ := (hl.mem x).mp hmem
    refine ⟨d, hd, ?_⟩
    have hrank := heq x hx
    rwa [hcell] at hrank
  · rintro ⟨d, hd, hrank⟩
    have hmem : cellOf c.path k d ∈ l ++ (m ++ r) := hcells ▸ (hl.mem _).mpr ⟨d, hd, rfl⟩
    refine ⟨cellOf c.path k d, ?_, rfl⟩
    rcases List.mem_append.mp hmem with h | h
    · cases hrank.symm.trans (hlt _ h)
    · refine (List.mem_append.mp h).resolve_right fun h => ?_
      cases hrank.symm.trans (hgt _ h)

/-- **A lookup gives keys in ascending order**, each of them once. -/
theorem Lists.keysOf_sorted (hl : c.Lists docs) (hp : Value.Coherent p)
    (hc : ∀ x ∈ c.cells, p x.value) (hv : p v) :
    (c.keysOf v).Pairwise fun a b => a.compare b = .lt := by
  obtain ⟨l, m, r, hcells, hlt, heq, hgt⟩ := hl.parts hp hc hv
  have hm : m.Sublist c.cells :=
    hcells ▸ (List.sublist_append_left m r).trans (List.sublist_append_right l _)
  rw [keysOf_eq hcells hlt heq hgt, List.pairwise_map]
  refine (hl.sorted.sublist hm).imp_of_mem fun {a b} ha hb hab => ?_
  -- Both values rank equal to `v`, so they rank equal, and the keys decide.
  have hvalues : Std.TransCmp fun a b : {w // p w} => a.1.rankCompare b.1 :=
    Value.rankCompare_ordersOn hp
  have hsame : a.value.rankCompare b.value = .eq :=
    hvalues.eq_trans (a := ⟨a.value, hc a (hm.subset ha)⟩) (b := ⟨v, hv⟩)
      (c := ⟨b.value, hc b (hm.subset hb)⟩) (heq a ha)
      (by rw [Value.rankCompare_swap, heq b hb]; rfl)
  rw [Cell.compare, hsame] at hab
  exact hab

end Column

end FieldIndex

end SlotStore
