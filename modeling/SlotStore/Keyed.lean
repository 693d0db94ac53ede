/-!
# Collections of keyed items

Items that carry a key each, at most one item to a key.

* `Keyed.get?` : the item of a key;
* `Keyed.put`, `Keyed.erase`, `Keyed.ofList` : changes, and the laws that give `get?` after them.
-/

namespace SlotStore

/-- Items with distinct keys, in no particular order. -/
structure Keyed {κ α : Type} (key : α → κ) where
  items : List α
  distinct : items.Pairwise fun a b => key a ≠ key b

namespace Keyed

variable {κ α : Type} [DecidableEq κ] {key : α → κ}

/-- The collection without items. -/
def empty : Keyed key := ⟨[], .nil⟩

instance : Inhabited (Keyed key) := ⟨empty⟩

/-- The item of a key. -/
def get? (c : Keyed key) (k : κ) : Option α := c.items.find? fun a => key a = k

/-- Takes the item of a key away. -/
def erase (c : Keyed key) (k : κ) : Keyed key :=
  ⟨c.items.filter fun a => key a ≠ k, c.distinct.filter _⟩

/-- Puts an item in, in place of the one with its key. -/
def put (c : Keyed key) (x : α) : Keyed key where
  items := x :: (c.erase (key x)).items
  distinct := by
    refine List.pairwise_cons.2 ⟨fun a ha => ?_, (c.erase (key x)).distinct⟩
    have h := (List.mem_filter.1 ha).2
    simp only [ne_eq, decide_not, Bool.not_eq_eq_eq_not, Bool.not_true,
      decide_eq_false_iff_not] at h
    exact fun e => h e.symm

/-- Items put in one after another. -/
def ofList (xs : List α) : Keyed key := xs.foldl put empty

/-- The number of items. -/
def size (c : Keyed key) : Nat := c.items.length

/-! ## Laws -/

@[simp] theorem get?_empty (k : κ) : (empty : Keyed key).get? k = none := rfl

theorem get?_erase (c : Keyed key) (k j : κ) :
    (c.erase k).get? j = if j = k then none else c.get? j := by
  simp only [get?, erase]
  induction c.items with
  | nil => simp
  | cons a as ih =>
    by_cases ha : key a = k
    · by_cases hj : j = k
      · simp_all
      · have : key a ≠ j := fun e => hj (by rw [← e, ha])
        simp_all
    · by_cases hj : key a = j
      · simp_all
      · simp_all

theorem get?_put (c : Keyed key) (x : α) (j : κ) :
    (c.put x).get? j = if j = key x then some x else c.get? j := by
  by_cases hj : j = key x
  · simp [get?, put, hj]
  · have hx : key x ≠ j := fun e => hj e.symm
    have := get?_erase c (key x) j
    simp only [get?, hj, if_false] at this ⊢
    simp [put, hx, this]

theorem key_of_get? {c : Keyed key} {k : κ} {x : α} (h : c.get? k = some x) : key x = k := by
  simpa using List.find?_some h

theorem find?_of_mem {xs : List α} (hd : xs.Pairwise fun a b => key a ≠ key b) {x : α}
    (h : x ∈ xs) : (xs.find? fun a => key a = key x) = some x := by
  induction xs with
  | nil => cases h
  | cons a as ih =>
    obtain ⟨ha, has⟩ := List.pairwise_cons.1 hd
    rcases List.mem_cons.1 h with rfl | hx
    · simp
    · simp [ha x hx, ih has hx]

theorem mem_iff_get? (c : Keyed key) (x : α) : x ∈ c.items ↔ c.get? (key x) = some x :=
  ⟨find?_of_mem c.distinct, List.mem_of_find?_eq_some⟩

end Keyed

end SlotStore
