import Mathlib.Tactic.Common
import SlotStore.Proofs.Sorting.Stable
import SlotStore.Proofs.Value.Rounding
import SlotStore.Value

/-!
# The order of values

Sorting and indexes rank any two values.  An integer ranks beside a float as the double nearest to
it, but beside another integer by itself, so a float may rank equal to two integers that differ.
Among values without such a float the ranking is an order.  The comparison of filters is partial; it
agrees with the ranking wherever it is defined.

* `Value.Coherent`, `Value.coherent_of_le` : no float is equal to two integers;
* `Value.Blurs`, `Value.rankCompare_trans` : where the ranking is transitive;
* `Value.rankCompare_ordersOn` : the ranking orders coherent values;
* `Value.compare?_of_kin`, `Value.compare?_agrees` : what filters compare ranks alike;
* `Value.rankCompare_preorder` : the ranking is a total preorder exactly where no float blurs two
  integers.
-/

namespace SlotStore

namespace Binary64

variable {x y : Binary64}

/-- The place in the total order grows with the number. -/
lemma rankKey_eq (x : Binary64) :
    x.rankKey = if x.numericKey < 0 then x.numericKey - 1 else x.numericKey := by
  rw [rankKey, positiveZero]
  by_cases hzero : x.isZero = true
  · have hmagnitude : x.magnitude = 0 := of_decide_eq_true hzero
    rw [if_pos hzero, numericKey, hmagnitude]
    cases x.negative <;> decide
  · have hmagnitude : x.magnitude ≠ 0 := fun h => hzero (decide_eq_true h)
    rw [if_neg hzero, totalKey, numericKey]
    split <;> split <;> omega

/-- Floats of one rank are one number. -/
lemma rankKey_inj : x.rankKey = y.rankKey ↔ x.numericKey = y.numericKey := by
  rw [rankKey_eq, rankKey_eq]
  split <;> split <;> omega

lemma rankKey_lt : x.rankKey < y.rankKey ↔ x.numericKey < y.numericKey := by
  rw [rankKey_eq, rankKey_eq]
  split <;> split <;> omega

/-- Numbers rank as they compare. -/
lemma compare?_eq (x y : Binary64) :
    x.compare? y =
      if x.isNaN || y.isNaN then none else some (compare x.rankKey y.rankKey) := by
  have hkeys : compare x.numericKey y.numericKey = compare x.rankKey y.rankKey := by
    rcases Int.lt_trichotomy x.numericKey y.numericKey with h | h | h
    · rw [Int.compare_eq_lt.mpr h, Int.compare_eq_lt.mpr (rankKey_lt.mpr h)]
    · rw [Int.compare_eq_eq.mpr h, Int.compare_eq_eq.mpr (rankKey_inj.mpr h)]
    · rw [Int.compare_eq_gt.mpr h, Int.compare_eq_gt.mpr (rankKey_lt.mpr h)]
  rw [compare?, hkeys]

/-- Floats are equal exactly if they have one rank and neither is no number. -/
lemma compare?_eq_some_eq :
    x.compare? y = some .eq ↔ (x.isNaN = false ∧ y.isNaN = false) ∧ x.rankKey = y.rankKey := by
  rw [compare?_eq]
  cases x.isNaN <;> cases y.isNaN <;> simp

/-- A number that ranks as a double does is no NaN. -/
lemma isNaN_of_rankKey (h : x.rankKey = y.rankKey) : x.isNaN = y.isNaN := by
  have hkey : ∀ z : Binary64, z.numericKey.natAbs = z.magnitude := by
    intro z
    rw [numericKey]
    split <;> omega
  rw [isNaN, isNaN, ← hkey x, ← hkey y, rankKey_inj.mp h]

lemma isNaN_ofInt (n : Int) : (ofInt n).isNaN = false := by
  rw [isNaN, ofInt, ofRatio, magnitude_ofMagnitude (magnitudeOfRatio_lt _ _)]
  exact decide_eq_false (Nat.not_lt.mpr (Nat.min_le_right _ _))

end Binary64

namespace Value

variable {a b c : Value} {m n : Int} {x y : Binary64} {p q : Value → Prop}

/-! ## Kinds -/

lemma rankCompare_of_lt (h : a.kindRank < b.kindRank) : a.rankCompare b = .lt := by
  unfold rankCompare
  rw [Nat.compare_eq_lt.mpr h]

lemma rankCompare_of_gt (h : b.kindRank < a.kindRank) : a.rankCompare b = .gt := by
  unfold rankCompare
  rw [Nat.compare_eq_gt.mpr h]

lemma kindRank_le (h : (a.rankCompare b).isLE = true) : a.kindRank ≤ b.kindRank := by
  by_contra hlt
  rw [rankCompare_of_gt (Nat.not_le.mp hlt)] at h
  cases h

/-- Two values of one kind. -/
inductive Kin : Value → Value → Prop
  | null : Kin null null
  | bool (a b : Bool) : Kin (bool a) (bool b)
  | int (m n : Int) : Kin (int m) (int n)
  | mixed (m : Int) (x : Binary64) : Kin (int m) (float x)
  | mixed' (x : Binary64) (m : Int) : Kin (float x) (int m)
  | float (x y : Binary64) : Kin (float x) (float y)
  | text (s t : String) : Kin (text s) (text t)

lemma kin_of_kindRank (h : a.kindRank = b.kindRank) : Kin a b := by
  cases a <;> cases b <;> first | constructor | cases h

/-! ## Ranks -/

lemma rank_bool (a b : Bool) : (bool a).rankCompare (bool b) = compare a b := rfl

lemma rank_int (m n : Int) : (int m).rankCompare (int n) = compare m n := rfl

lemma rank_int_float (m : Int) (x : Binary64) :
    (int m).rankCompare (float x) = compare (Binary64.ofInt m).rankKey x.rankKey := rfl

lemma rank_float_int (x : Binary64) (m : Int) :
    (float x).rankCompare (int m) = compare x.rankKey (Binary64.ofInt m).rankKey := rfl

lemma rank_float (x y : Binary64) :
    (float x).rankCompare (float y) = compare x.rankKey y.rankKey := rfl

lemma rank_text (s t : String) : (text s).rankCompare (text t) = compare s t := rfl

/-- **The ranking can be turned around.** -/
lemma rankCompare_swap (a b : Value) : a.rankCompare b = (b.rankCompare a).swap := by
  rcases Nat.lt_trichotomy a.kindRank b.kindRank with h | h | h
  · rw [rankCompare_of_lt h, rankCompare_of_gt h]
    rfl
  · cases kin_of_kindRank h with
    | null => rfl
    | bool a b => exact Std.OrientedOrd.eq_swap
    | int m n => exact Std.OrientedOrd.eq_swap
    | mixed m x => exact Std.OrientedOrd.eq_swap
    | mixed' x m => exact Std.OrientedOrd.eq_swap
    | float x y => exact Std.OrientedOrd.eq_swap
    | text s t => exact Std.OrientedOrd.eq_swap
  · rw [rankCompare_of_lt h, rankCompare_of_gt h]
    rfl

/-! ## Coherent values -/

/-- **No float is equal to two integers.**  A property of values that only one of several integers
has, if they round to a double that has it too. -/
def Coherent (p : Value → Prop) : Prop :=
  ∀ m n x, p (int m) → p (int n) → p (float x) →
    (int m).equals (float x) = true → (int n).equals (float x) = true → m = n

lemma Coherent.mono (h : Coherent p) (hq : ∀ v, q v → p v) : Coherent q :=
  fun m n x hm hn hx => h m n x (hq _ hm) (hq _ hn) (hq _ hx)

lemma equals_int_float :
    (int m).equals (float x) = true ↔ (Binary64.ofInt m).rankKey = x.rankKey := by
  show (Binary64.compare? (Binary64.ofInt m) x == some .eq) = true ↔ _
  rw [beq_iff_eq, Binary64.compare?_eq_some_eq]
  refine ⟨And.right, fun h => ⟨⟨Binary64.isNaN_ofInt m, ?_⟩, h⟩⟩
  rw [← Binary64.isNaN_of_rankKey h, Binary64.isNaN_ofInt]

/-- **Integers up to `2 ^ 53` are coherent**, whatever the floats among them. -/
theorem coherent_of_le (h : ∀ n, p (int n) → n.natAbs ≤ 2 ^ 53) : Coherent p := by
  intro m n x hm hn _ hmx hnx
  have hsame := (equals_int_float.mp hmx).trans (equals_int_float.mp hnx).symm
  rcases Int.lt_trichotomy m n with hlt | heq | hlt
  · have hapart := Binary64.ofInt_strictMono hlt (h m hm) (h n hn)
    omega
  · exact heq
  · have hapart := Binary64.ofInt_strictMono hlt (h n hn) (h m hm)
    omega

/-! ## Transitivity -/

/-- **A float blurs two integers**: it is equal to both, the greater one first. -/
inductive Blurs : Value → Value → Value → Prop
  | between {m n : Int} {x : Binary64} (hlt : n < m) (hm : (int m).equals (float x) = true)
      (hn : (int n).equals (float x) = true) : Blurs (int m) (float x) (int n)

/-- Nothing is blurred among coherent values. -/
lemma Coherent.not_blurs (h : Coherent p) (ha : p a) (hb : p b) (hc : p c) : ¬ Blurs a b c := by
  rintro ⟨hlt, hm, hn⟩
  exact Int.ne_of_gt hlt (h _ _ _ ha hc hb hm hn)

/-- Integers that round to doubles on the two sides of a float that does not blur them are in
order. -/
lemma le_of_not_blurs (h : ¬ Blurs (int m) (float x) (int n))
    (hmx : (Binary64.ofInt m).rankKey ≤ x.rankKey) (hxn : x.rankKey ≤ (Binary64.ofInt n).rankKey) :
    m ≤ n := by
  by_contra hlt
  have hround := Binary64.ofInt_mono (Int.le_of_lt (Int.not_le.mp hlt))
  refine h (.between (Int.not_le.mp hlt) (equals_int_float.mpr ?_) (equals_int_float.mpr ?_))
  · omega
  · omega

/-- **The ranking is transitive**, but across a float that blurs two integers. -/
theorem rankCompare_trans (hab : (a.rankCompare b).isLE = true)
    (hbc : (b.rankCompare c).isLE = true) (hblur : ¬ Blurs a b c) :
    (a.rankCompare c).isLE = true := by
  have hkab := kindRank_le hab
  have hkbc := kindRank_le hbc
  rcases Nat.lt_or_eq_of_le (Nat.le_trans hkab hkbc) with hlt | heq
  · rw [rankCompare_of_lt hlt]
    rfl
  · have hkind : Kin a b := kin_of_kindRank (by omega)
    have hkind' : Kin b c := kin_of_kindRank (by omega)
    cases hkind with
    | null => cases hkind'; rfl
    | bool a b =>
      cases hkind'
      rw [rank_bool] at *
      exact Std.TransOrd.isLE_trans hab hbc
    | text s t =>
      cases hkind'
      rw [rank_text] at *
      exact Std.TransOrd.isLE_trans hab hbc
    | int m n =>
      cases hkind' with
      | int _ k =>
        rw [rank_int, Int.isLE_compare] at *
        exact Int.le_trans hab hbc
      | mixed _ x =>
        rw [rank_int, Int.isLE_compare] at hab
        rw [rank_int_float, Int.isLE_compare] at *
        exact Int.le_trans (Binary64.ofInt_mono hab) hbc
    | mixed m x =>
      rw [rank_int_float, Int.isLE_compare] at hab
      cases hkind' with
      | mixed' _ n =>
        rw [rank_float_int, Int.isLE_compare] at hbc
        rw [rank_int, Int.isLE_compare]
        exact le_of_not_blurs hblur hab hbc
      | float _ y =>
        rw [rank_float, Int.isLE_compare] at hbc
        rw [rank_int_float, Int.isLE_compare]
        exact Int.le_trans hab hbc
    | mixed' x m =>
      rw [rank_float_int, Int.isLE_compare] at hab
      cases hkind' with
      | int _ n =>
        rw [rank_int, Int.isLE_compare] at hbc
        rw [rank_float_int, Int.isLE_compare]
        exact Int.le_trans hab (Binary64.ofInt_mono hbc)
      | mixed _ y =>
        rw [rank_int_float, Int.isLE_compare] at hbc
        rw [rank_float, Int.isLE_compare]
        exact Int.le_trans hab hbc
    | float x y =>
      rw [rank_float, Int.isLE_compare] at hab
      cases hkind' with
      | mixed' _ n =>
        rw [rank_float_int, Int.isLE_compare] at *
        exact Int.le_trans hab hbc
      | float _ z =>
        rw [rank_float, Int.isLE_compare] at *
        exact Int.le_trans hab hbc

/-- **The ranking orders coherent values.** -/
theorem rankCompare_ordersOn (h : Coherent p) : Sorting.OrdersOn rankCompare p where
  eq_swap {a b} := rankCompare_swap a.1 b.1
  isLE_trans {a b c} hab hbc := rankCompare_trans hab hbc (h.not_blurs a.2 b.2 c.2)

/-! ## What filters compare -/

/-- Whether a value is a NaN. -/
def isNaN : Value → Bool
  | float x => x.isNaN
  | _ => false

/-- **Values of one kind compare as they rank**, unless one of them is a NaN. -/
theorem compare?_of_kin (h : Kin a b) :
    a.compare? b = if a.isNaN || b.isNaN then none else some (a.rankCompare b) := by
  have hint := Binary64.isNaN_ofInt
  cases h with
  | null => rfl
  | bool a b => rfl
  | int m n => rfl
  | text s t => rfl
  | mixed m x =>
    show (Binary64.ofInt m).compare? x = _
    simp [Binary64.compare?_eq, hint, isNaN, rank_int_float]
  | mixed' x m =>
    show x.compare? (Binary64.ofInt m) = _
    simp [Binary64.compare?_eq, hint, isNaN, rank_float_int]
  | float x y => exact Binary64.compare?_eq x y

/-- Filters do not compare values of different kinds. -/
lemma compare?_of_not_kin (h : ¬ Kin a b) : a.compare? b = none := by
  cases a <;> cases b <;> first | rfl | exact absurd (by constructor) h

/-- **Values rank as they compare**, if they do. -/
theorem rankCompare_of_compare? {o : Ordering} (h : a.compare? b = some o) :
    a.rankCompare b = o := by
  by_cases hkin : Kin a b
  · rw [compare?_of_kin hkin] at h
    split at h
    · cases h
    · exact Option.some.inj h
  · rw [compare?_of_not_kin hkin] at h
    cases h

/-- **Values that a filter takes to be equal rank equal.** -/
theorem rankCompare_of_equals (h : a.equals b = true) : a.rankCompare b = .eq :=
  rankCompare_of_compare? (beq_iff_eq.mp h)

/-- **The two comparisons agree.**  That of filters is undefined exactly between values of different
kinds and on NaNs.  Where it is defined the ranking gives the same answer, so whatever a filter
takes to be equal to a literal ranks equal to it. -/
theorem compare?_agrees (a b : Value) :
    (a.compare? b = none ↔ ¬ Kin a b ∨ a.isNaN = true ∨ b.isNaN = true) ∧
      (∀ o, a.compare? b = some o → a.rankCompare b = o) ∧
      (a.equals b = true → a.rankCompare b = .eq) := by
  refine ⟨?_, fun o h => rankCompare_of_compare? h, rankCompare_of_equals⟩
  by_cases hkin : Kin a b
  · rw [compare?_of_kin hkin]
    cases a.isNaN <;> simp [hkin]
  · simp [compare?_of_not_kin hkin, hkin]

/-- Minus zero, the integer zero and a NaN: the first two compare and rank equal, the NaN compares
with neither and ranks above both. -/
theorem compare?_agrees_zeros :
    (float ⟨0x8000000000000000⟩).compare? (int 0) = some .eq ∧
      (float ⟨0x8000000000000000⟩).rankCompare (int 0) = .eq ∧
      (float .nan).compare? (int 0) = none ∧ (float .nan).rankCompare (int 0) = .gt := by
  have hzeros : (float ⟨0x8000000000000000⟩).compare? (int 0) = some .eq := by decide +kernel
  have hnan : (float .nan).isNaN = true := by decide
  exact ⟨hzeros, (compare?_agrees _ _).2.1 .eq hzeros,
    (compare?_agrees _ _).1.mpr (.inr (.inl hnan)), by decide +kernel⟩

/-- Values that a filter takes to be equal are equal either way round. -/
lemma equals_symm (h : a.equals b = true) : b.equals a = true := by
  rw [equals, beq_iff_eq] at h ⊢
  have hkind : a.kindRank = b.kindRank := by
    cases a <;> cases b <;> first | rfl | cases h
  have hnumbers : ∀ {x y : Binary64}, x.compare? y = some .eq → y.compare? x = some .eq := by
    intro x y hxy
    rw [Binary64.compare?_eq_some_eq] at hxy ⊢
    exact ⟨hxy.1.symm, hxy.2.symm⟩
  have hsame : ∀ {β : Type} [Ord β] [Std.OrientedOrd β] {x y : β},
      some (compare x y) = some .eq → some (compare y x) = some .eq :=
    fun hxy => congrArg some (Std.OrientedCmp.eq_symm (Option.some.inj hxy))
  cases kin_of_kindRank hkind with
  | null => rfl
  | bool a b => exact hsame h
  | int m n => exact hsame h
  | text s t => exact hsame h
  | mixed m x => exact hnumbers h
  | mixed' x m => exact hnumbers h
  | float x y => exact hnumbers h

/-! ## Where the ranking is a preorder -/

lemma Blurs.ranks (h : Blurs a b c) :
    a.rankCompare b = .eq ∧ b.rankCompare c = .eq ∧ a.rankCompare c = .gt := by
  rcases h with ⟨hlt, hm, hn⟩
  exact ⟨rankCompare_of_equals hm, rankCompare_of_equals (equals_symm hn),
    Int.compare_eq_gt.mpr hlt⟩

/-- Values that rank equal across no blur are equal in rank. -/
lemma rankCompare_eq_trans (hab : a.rankCompare b = .eq) (hbc : b.rankCompare c = .eq)
    (hforth : ¬ Blurs a b c) (hback : ¬ Blurs c b a) : a.rankCompare c = .eq := by
  have hba : b.rankCompare a = .eq := by rw [rankCompare_swap, hab]; rfl
  have hcb : c.rankCompare b = .eq := by rw [rankCompare_swap, hbc]; rfl
  have hac : (a.rankCompare c).isLE = true :=
    rankCompare_trans (by simp [hab]) (by simp [hbc]) hforth
  have hca : (c.rankCompare a).isLE = true :=
    rankCompare_trans (by simp [hcb]) (by simp [hba]) hback
  rw [rankCompare_swap] at hca
  revert hac hca
  cases a.rankCompare c <;> simp

/-- **The ranking is a total preorder but where a float blurs two integers.**  Ranking two values
the other way round reverses the answer.  Three values rank transitively exactly if the middle one
does not blur the outer two, and are equal transitively exactly if it blurs them neither way. -/
theorem rankCompare_preorder (a b c : Value) :
    a.rankCompare b = (b.rankCompare a).swap ∧
    (((a.rankCompare b).isLE = true → (b.rankCompare c).isLE = true →
      (a.rankCompare c).isLE = true) ↔ ¬ Blurs a b c) ∧
    ((a.rankCompare b = .eq → b.rankCompare c = .eq → a.rankCompare c = .eq) ↔
      ¬ Blurs a b c ∧ ¬ Blurs c b a) := by
  refine ⟨rankCompare_swap a b, ⟨?_, ?_⟩, ⟨?_, ?_⟩⟩
  · intro htrans hblur
    obtain ⟨hab, hbc, hac⟩ := hblur.ranks
    simp [hab, hbc, hac] at htrans
  · intro hblur hab hbc
    exact rankCompare_trans hab hbc hblur
  · intro htrans
    constructor
    · intro hblur
      obtain ⟨hab, hbc, hac⟩ := hblur.ranks
      simp [hab, hbc, hac] at htrans
    · intro hblur
      obtain ⟨hcb, hba, hca⟩ := hblur.ranks
      rw [rankCompare_swap, Ordering.swap_eq_eq] at hcb hba
      rw [rankCompare_swap, Ordering.swap_eq_gt] at hca
      simp [hba, hcb, hca] at htrans
  · rintro ⟨hforth, hback⟩ hab hbc
    exact rankCompare_eq_trans hab hbc hforth hback

/-- The float `2 ^ 53` ranks equal to the integers `2 ^ 53 + 1` and `2 ^ 53`, the first of which is
the greater. -/
theorem rankCompare_not_transitive :
    (int 9007199254740993).rankCompare (float ⟨0x4340000000000000⟩) = .eq ∧
    (float ⟨0x4340000000000000⟩).rankCompare (int 9007199254740992) = .eq ∧
    (int 9007199254740993).rankCompare (int 9007199254740992) = .gt := by
  decide +kernel

end Value

end SlotStore
