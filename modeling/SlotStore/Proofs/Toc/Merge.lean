import Mathlib.Tactic.Common
import SlotStore.Proofs.Toc.Describes

/-!
# Tables made by a scan

A scan merges the slots of a row into a table in the order of their offsets, which is not the order
of their age.  The table describes the row in the end if each slot in use is the newest of its key,
in whatever order older slots of the key come.

* `Row.Newest` : slots in use are the newest of their key;
* `Row.Aged` : slots are older than the next write;
* `Toc.Describes.merge` : one slot is merged;
* `Toc.Describes.mergeAll` : a whole row is merged.
-/

namespace SlotStore

/-- Versions are below this. -/
def versionLimit : Nat := 0x100000000

/-- Below the limit the counter goes up by one. -/
lemma Toc.toNat_bump {v : UInt32} (hv : v.toNat + 1 < versionLimit) :
    (Toc.bump v).toNat = v.toNat + 1 := by
  have hne : v ≠ 0xFFFFFFFF := by
    intro heq
    have htop : (0xFFFFFFFF : UInt32).toNat = versionLimit - 1 := rfl
    rw [heq] at hv
    omega
  rw [Toc.bump, if_neg hne, UInt32.toNat_add]
  exact Nat.mod_eq_of_lt hv

namespace Row

/-- A slot in use has a key, and is newer than every other slot of the key. -/
def Newest (row : Row) : Prop :=
  ∀ ⦃o h⦄, (o, h) ∈ row → h.inUse = true → h.key.isReserved = false ∧
    ∀ ⦃o' h'⦄, (o', h') ∈ row → h'.key = h.key → o' ≠ o → h'.version < h.version

variable {row row' : Row} {o : Nat} {h : Header}

lemma Newest.mono (hn : Newest row) (hsub : ∀ p ∈ row', p ∈ row) : Newest row' := by
  intro o h hm hu
  obtain ⟨hr, hnew⟩ := hn (hsub _ hm) hu
  exact ⟨hr, fun _ _ hm' => hnew (hsub _ hm')⟩

lemma mem_put_self (hs : Single row) (hm : (o, h) ∈ row) {p : Nat × Header} :
    p ∈ Row.put o h row ↔ p ∈ row := by
  rw [mem_put]
  constructor
  · rintro (rfl | ⟨hp, _⟩)
    · exact hm
    · exact hp
  · intro hp
    by_cases ho : p.1 = o
    · subst ho
      exact Or.inl (Prod.ext rfl (hs hp hm))
    · exact Or.inr ⟨hp, ho⟩

/-- A slot that is written with a version higher than all others is the newest of its key. -/
lemma Newest.put (hn : Newest row) (hr : h.key.isReserved = false)
    (hother : ∀ p ∈ row, p.2.inUse = true → p.2.key = h.key → p.1 = o)
    (hnew : ∀ p ∈ row, p.2.version < h.version) : Newest (put o h row) := by
  intro o₁ h₁ hm₁ hu
  rcases mem_put.mp hm₁ with heq | ⟨hm₁, hne₁⟩
  · cases heq
    refine ⟨hr, fun o₂ h₂ hm₂ _ hne₂ => ?_⟩
    rcases mem_put.mp hm₂ with heq | ⟨hm₂, _⟩
    · cases heq
      exact absurd rfl hne₂
    · exact hnew _ hm₂
  · obtain ⟨hr₁, hnew₁⟩ := hn hm₁ hu
    refine ⟨hr₁, fun o₂ h₂ hm₂ hkey hne₂ => ?_⟩
    rcases mem_put.mp hm₂ with heq | ⟨hm₂, _⟩
    · cases heq
      exact absurd (hother _ hm₁ hu hkey.symm) hne₁
    · exact hnew₁ hm₂ hkey hne₂

/-- Giving up a slot keeps the others the newest of their keys. -/
lemma Newest.putTombstone (hn : Newest row) (hm : (o, h) ∈ row) :
    Newest (Row.put o h.tombstone row) := by
  intro o₁ h₁ hm₁ hu
  rcases mem_put.mp hm₁ with heq | ⟨hm₁, hne₁⟩
  · cases heq
    cases hu
  · obtain ⟨hr₁, hnew₁⟩ := hn hm₁ hu
    refine ⟨hr₁, fun o₂ h₂ hm₂ hkey hne₂ => ?_⟩
    rcases mem_put.mp hm₂ with heq | ⟨hm₂, _⟩
    · cases heq
      have hlt : h.version < h₁.version := hnew₁ hm hkey hne₂
      exact hlt
    · exact hnew₁ hm₂ hkey hne₂

lemma toNat_max (a b : UInt32) : (max a b).toNat = max a.toNat b.toNat := by
  have hmax : max a b = if a ≤ b then b else a := rfl
  rw [hmax]
  split
  · rename_i hle
    exact (Nat.max_eq_right (UInt32.le_iff_toNat_le.mp hle)).symm
  · rename_i hle
    have hlt := UInt32.lt_iff_toNat_lt.mp (UInt32.not_le.mp hle)
    exact (Nat.max_eq_left (Nat.le_of_lt hlt)).symm

/-- **The age of a row**, as seen from a table that hands out `next` and has handed out at most
`drawn` versions: every slot is older than the next write. -/
structure Aged (row : Row) (next : UInt32) (drawn : Nat) : Prop where
  newest : Newest row
  below : ∀ p ∈ row, p.2.version < next
  few : next.toNat ≤ drawn + 1

namespace Aged

variable {next : UInt32} {drawn : Nat}

lemma congr (ha : Aged row next drawn) (hrow : ∀ p ∈ row', p ∈ row) : Aged row' next drawn :=
  ⟨ha.newest.mono hrow, fun p hp => ha.below p (hrow p hp), ha.few⟩

/-- The counter may be raised to a version that was drawn. -/
lemma raise (ha : Aged row next drawn) {v : UInt32} (hv : v.toNat ≤ drawn + 1) :
    Aged row (max v next) drawn where
  newest := ha.newest
  below p hp := by
    have hlt := UInt32.lt_iff_toNat_lt.mp (ha.below p hp)
    rw [UInt32.lt_iff_toNat_lt, toNat_max]
    omega
  few := by
    have hfew := ha.few
    rw [toNat_max]
    omega

lemma toNat_succ (ha : Aged row next drawn) (hn : drawn + 2 < versionLimit) :
    (next + 1).toNat = next.toNat + 1 := by
  have hfew := ha.few
  have hlt : next.toNat + 1 < versionLimit := by omega
  rw [UInt32.toNat_add]
  exact Nat.mod_eq_of_lt hlt

lemma below_succ (ha : Aged row next drawn) (hn : drawn + 2 < versionLimit) : next < next + 1 := by
  rw [UInt32.lt_iff_toNat_lt, ha.toNat_succ hn]
  exact Nat.lt_succ_self _

/-- **A version that is drawn** is above all others. -/
lemma draw (ha : Aged row next drawn) (hn : drawn + 2 < versionLimit) :
    Aged row (next + 1) (drawn + 1) where
  newest := ha.newest
  below p hp := UInt32.lt_trans (ha.below p hp) (ha.below_succ hn)
  few := by
    have hfew := ha.few
    rw [ha.toNat_succ hn]
    omega

/-- **A version is drawn for a slot** of a key that is in use nowhere else. -/
lemma write (ha : Aged row next drawn) (hn : drawn + 2 < versionLimit) (hv : h.version = next)
    (hr : h.key.isReserved = false)
    (hother : ∀ p ∈ row, p.2.inUse = true → p.2.key = h.key → p.1 = o) :
    Aged (Row.put o h row) (next + 1) (drawn + 1) where
  newest := ha.newest.put hr hother (hv ▸ ha.below)
  below := by
    intro p hp
    rcases mem_put.mp hp with rfl | ⟨hp, _⟩
    · rw [hv]
      exact ha.below_succ hn
    · exact (ha.draw hn).below p hp
  few := (ha.draw hn).few

/-- A tombstone is as old as its record. -/
lemma drop (ha : Aged row next drawn) (hm : (o, h) ∈ row) :
    Aged (Row.put o h.tombstone row) next drawn where
  newest := ha.newest.putTombstone hm
  below := by
    intro p hp
    rcases mem_put.mp hp with rfl | ⟨hp, _⟩
    · exact ha.below (o, h) hm
    · exact ha.below p hp
  few := ha.few

/-- **A version is drawn for a key that moves** from one slot to another. -/
lemma move (ha : Aged row next drawn) (hn : drawn + 2 < versionLimit) (hv : h.version = next)
    (hr : h.key.isReserved = false) {o' : Nat} {old : Header} (hm : (o', old) ∈ row) (hne : o' ≠ o)
    (hsole : ∀ p ∈ row, p.2.inUse = true → p.2.key = h.key → p.1 = o') :
    Aged (Row.put o' old.tombstone (Row.put o h row)) (next + 1) (drawn + 1) := by
  have hother : ∀ p ∈ Row.put o' old.tombstone row,
      p.2.inUse = true → p.2.key = h.key → p.1 = o := by
    intro p hp hpu hkey
    rcases mem_put.mp hp with rfl | ⟨hp, hpo⟩
    · cases hpu
    · exact absurd (hsole p hp hpu hkey) hpo
  -- the two slots are different ones, so the old one may as well be given up first
  exact ((ha.drop hm).write hn hv hr hother).congr fun p hp => mem_put_comm hne hp

end Aged

end Row

namespace Toc

variable {t : Toc} {row : Row} {o : Nat} {h : Header}

/-- **Merging a slot** that the table does not know keeps the description. -/
theorem Describes.merge (hd : t.Describes row) (hno : ∀ p ∈ row, p.1 ≠ o)
    (hn : Row.Newest (Row.put o h row)) :
    (t.merge (.ofHeader o h)).Describes (Row.put o h row) := by
  have hmem : (o, h) ∈ Row.put o h row := Row.mem_put.mpr (Or.inl rfl)
  have hretire : h.inUse = false → (t.retire (.ofHeader o h)).Describes (Row.put o h row) :=
    fun hu => hd.retire (e := .ofHeader o h) hno rfl hu
  unfold Toc.merge
  split
  · rename_i hr
    refine hretire (Bool.eq_false_iff.mpr fun hu => ?_)
    exact Bool.false_ne_true ((hn hmem hu).1.symm.trans hr)
  · rename_i hr
    have hr : h.key.isReserved = false := Bool.eq_false_iff.mpr hr
    split
    · rename_i hnone
      exact hd.putEntry hno hnone hr
    · rename_i old hold
      obtain ⟨_, h', hm', hofHeader⟩ := hd.entry hold
      have hkey : h'.key = h.key := (hd.find?_of_entry hold hm').2
      have hne : old.offset ≠ o := hno _ hm'
      have hmem' : (old.offset, h') ∈ Row.put o h row := Row.mem_put.mpr (Or.inr ⟨hm', hne⟩)
      have hversion : old.version = h'.version := by
        rw [hofHeader]
        rfl
      rw [if_neg (show ¬ old.offset = (Entry.ofHeader o h).offset from hne)]
      split
      · -- the slot in the table is older, so it is out of use and its own tombstone
        rename_i holder
        have holder : h'.version < h.version := hversion ▸ holder
        have hu' : h'.inUse = false := Bool.eq_false_iff.mpr fun hu' =>
          UInt32.lt_asymm holder ((hn hmem' hu').2 hmem hkey.symm (Ne.symm hne))
        have htomb : h'.tombstone = h' := by
          rw [Header.tombstone, ← hu']
        have hsingle := hd.single.put o h
        refine (hd.relocate hno hold hm').congr (.refl _) fun p => ?_
        rw [htomb, Row.mem_put_self hsingle hmem']
      · rename_i hnewer
        have hnewer : ¬ h'.version < h.version := hversion ▸ hnewer
        exact hretire (Bool.eq_false_iff.mpr fun hu => hnewer ((hn hmem hu).2 hmem' hkey hne))

/-- **Merging a whole row** gives a table that describes it. -/
theorem Describes.mergeAll {rest : Row} (hd : t.Describes row)
    (hdistinct : (row ++ rest).Pairwise fun p q => p.1 ≠ q.1) (hn : Row.Newest (row ++ rest)) :
    (rest.foldl (fun t p => t.merge (.ofHeader p.1 p.2)) t).Describes (row ++ rest) := by
  induction rest generalizing t row with
  | nil =>
    rw [List.append_nil]
    exact hd
  | cons p rest ih =>
    have hno : ∀ q ∈ row, q.1 ≠ p.1 := fun q hq =>
      (List.pairwise_append.mp hdistinct).2.2 q hq p List.mem_cons_self
    have hput : Row.put p.1 p.2 row = row ++ [p] := Row.put_eq_append hno
    have hsplit : row ++ p :: rest = Row.put p.1 p.2 row ++ rest := by
      rw [hput, List.append_assoc, List.singleton_append]
    rw [hsplit] at hdistinct hn ⊢
    exact ih (hd.merge hno (hn.mono fun q hq => List.mem_append_left _ hq)) hdistinct hn

/-- Merging changes nothing but the two collections. -/
lemma merge_fields (e : Entry) (t : Toc) : (t.merge e).nextVersion = t.nextVersion ∧
    (t.merge e).ready = t.ready ∧ (t.merge e).signal = t.signal := by
  unfold Toc.merge
  split_ifs
  · exact ⟨rfl, rfl, rfl⟩
  · split
    · exact ⟨rfl, rfl, rfl⟩
    · split_ifs <;> exact ⟨rfl, rfl, rfl⟩

end Toc

end SlotStore
