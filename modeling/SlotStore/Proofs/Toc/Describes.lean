import Mathlib.Tactic.Common
import SlotStore.Proofs.Record.Row
import SlotStore.Proofs.Toc.Views

/-!
# Tables that describe a row of slots

A table *describes* a row if every slot of the row belongs to exactly one of its two collections:
it is the slot of the entry of its key, or it is retired; and retired slots are out of use.  Hence a
slot that is in use is always the slot of the live entry of its key.

Four elementary changes take one slot into a collection or out of it, and every operation on a
table is a composition of them.

* `Toc.Describes` : the invariant of tables;
* `Toc.Describes.dropEntry`, `Toc.Describes.dropSpare` : a slot leaves the table;
* `Toc.Describes.putEntry`, `Toc.Describes.retire` : a slot that the table does not know enters it;
* `Toc.Describes.rewrite`, `Toc.Describes.relocate` : what a write does to the table;
* `Toc.Describes.live_iff`, `Toc.Describes.reusable_iff` : live and reusable slots are those in use
  and out of use.
-/

namespace SlotStore

namespace Row

/-- A row without the slot at an offset. -/
def without (o : Nat) (row : Row) : Row := row.filter fun p => p.1 ≠ o

lemma mem_without {o : Nat} {row : Row} {p : Nat × Header} :
    p ∈ without o row ↔ p ∈ row ∧ p.1 ≠ o := by
  simp [without]

/-- An offset has one header. -/
def Single (row : Row) : Prop := ∀ ⦃o h h'⦄, (o, h) ∈ row → (o, h') ∈ row → h = h'

lemma Single.without {row : Row} (hs : Single row) (o : Nat) : Single (row.without o) :=
  fun _ _ _ hm hm' => hs (mem_without.mp hm).1 (mem_without.mp hm').1

lemma Single.put {row : Row} (hs : Single row) (o : Nat) (h : Header) : Single (put o h row) := by
  intro o' h₁ h₂ hm₁ hm₂
  rcases mem_put.mp hm₁ with heq₁ | ⟨hm₁, hne₁⟩ <;> rcases mem_put.mp hm₂ with heq₂ | ⟨hm₂, hne₂⟩
  · exact (Prod.mk.inj (heq₁.trans heq₂.symm)).2
  · exact absurd (Prod.mk.inj heq₁).1 hne₂
  · exact absurd (Prod.mk.inj heq₂).1 hne₁
  · exact hs hm₁ hm₂

end Row

namespace Toc

/-- **A table describes a row of slots.** -/
structure Describes (t : Toc) (row : Row) : Prop where
  single : row.Single
  entry : ∀ {k e}, t.find? k = some e →
    k.isReserved = false ∧ ∃ h, (e.offset, h) ∈ row ∧ e = .ofHeader e.offset h
  spare : ∀ {o e}, t.spare? o = some e →
    ∃ h, (o, h) ∈ row ∧ e.size = h.slotSize ∧ h.inUse = false
  /-- A slot is retired unless it is the slot of its key. -/
  covered : ∀ {o h}, (o, h) ∈ row →
    (t.spare? o = none ↔ t.find? h.key = some (.ofHeader o h))

/-- A reusable slot of a size at an offset, free or retired. -/
def Reusable (t : Toc) (o size : Nat) : Prop :=
  (∃ k e, t.find? k = some e ∧ e.isFree = true ∧ e.offset = o ∧ e.size = size) ∨
    ∃ e, t.spare? o = some e ∧ e.size = size

namespace Describes

variable {t t' : Toc} {row row' : Row} {o : Nat} {h : Header} {k : Key} {e : Entry}

/-- Nothing but the views of the table and the slots of the row count. -/
lemma congr (hd : t.Describes row) (ha : Alike t t') (hrow : ∀ p, p ∈ row' ↔ p ∈ row) :
    t'.Describes row' where
  single := fun _ _ _ hm hm' => hd.single ((hrow _).mp hm) ((hrow _).mp hm')
  entry hk := by
    obtain ⟨hr, h, hm, he⟩ := hd.entry ((ha.find? _).symm.trans hk)
    exact ⟨hr, h, (hrow _).mpr hm, he⟩
  spare ho := by
    obtain ⟨h, hm, hs⟩ := hd.spare ((ha.spare? _).symm.trans ho)
    exact ⟨h, (hrow _).mpr hm, hs⟩
  covered hm := by
    rw [ha.spare?, ha.find?]
    exact hd.covered ((hrow _).mp hm)

lemma empty : unfinished.Describes [] where
  single := fun _ _ _ hm => by cases hm
  entry hk := by cases hk
  spare ho := by cases ho
  covered hm := by cases hm

/-- The entry of a slot that its key has. -/
lemma find?_of_entry (hd : t.Describes row) (hk : t.find? k = some e) (hm : (e.offset, h) ∈ row) :
    e = .ofHeader e.offset h ∧ h.key = k := by
  obtain ⟨_, h', hm', he⟩ := hd.entry hk
  cases hd.single hm hm'
  exact ⟨he, by rw [← key_of_find? hk, he]; rfl⟩

/-- **A slot in use is the slot of the entry of its key.** -/
lemma find?_of_inUse (hd : t.Describes row) (hm : (o, h) ∈ row) (hu : h.inUse = true) :
    t.find? h.key = some (.ofHeader o h) := by
  refine (hd.covered hm).mp ?_
  cases hs : t.spare? o with
  | none => rfl
  | some e =>
    obtain ⟨h', hm', _, hfree⟩ := hd.spare hs
    rw [hd.single hm hm', hfree] at hu
    cases hu

/-- A slot that a key has is not retired. -/
lemma spare?_of_entry (hd : t.Describes row) (hk : t.find? k = some e) :
    t.spare? e.offset = none := by
  obtain ⟨_, h, hm, he⟩ := hd.entry hk
  have hkey := (hd.find?_of_entry hk hm).2
  refine (hd.covered hm).mpr ?_
  rw [hkey, hk]
  exact congrArg some he

/-! ## A slot leaves the table -/

/-- An entry is taken out with its slot. -/
theorem dropEntry (hd : t.Describes row) (hk : t.find? k = some e) :
    (t.remove k).Describes (row.without e.offset) where
  single := hd.single.without _
  entry := by
    intro k' e' hk'
    rw [find?_remove] at hk'
    split at hk'
    · cases hk'
    · rename_i hne
      obtain ⟨hr, h', hm', he'⟩ := hd.entry hk'
      refine ⟨hr, h', Row.mem_without.mpr ⟨hm', fun ho => hne ?_⟩, he'⟩
      -- two keys whose entries share a slot are both the key of its header
      have ho : e'.offset = e.offset := ho
      rw [← (hd.find?_of_entry hk' hm').2, (hd.find?_of_entry hk (ho ▸ hm')).2]
  spare := by
    intro o e' ho
    obtain ⟨h', hm', hs⟩ := hd.spare ho
    refine ⟨h', Row.mem_without.mpr ⟨hm', fun hoe => ?_⟩, hs⟩
    have hoe : o = e.offset := hoe
    rw [hoe, spare?_remove, hd.spare?_of_entry hk] at ho
    cases ho
  covered := by
    intro o h hm
    obtain ⟨hm, hne⟩ := Row.mem_without.mp hm
    rw [spare?_remove, find?_remove, hd.covered hm]
    by_cases hkey : h.key = k
    · rw [if_pos hkey, hkey, hk]
      refine ⟨fun heq => absurd ?_ hne, fun heq => by cases heq⟩
      exact (congrArg Entry.offset (Option.some.inj heq)).symm
    · rw [if_neg hkey]

/-- A retired slot is taken out. -/
theorem dropSpare (hd : t.Describes row) (ho : t.spare? o = some e) :
    (t.unretire o).Describes (row.without o) where
  single := hd.single.without _
  entry := by
    intro k' e' hk'
    obtain ⟨hr, h', hm', he'⟩ := hd.entry hk'
    refine ⟨hr, h', Row.mem_without.mpr ⟨hm', fun hoe => ?_⟩, he'⟩
    have hoe : e'.offset = o := hoe
    have hnone := hd.spare?_of_entry hk'
    rw [hoe, ho] at hnone
    cases hnone
  spare := by
    intro o' e' ho'
    rw [spare?_unretire] at ho'
    split at ho'
    · cases ho'
    · rename_i hne
      obtain ⟨h', hm', hs⟩ := hd.spare ho'
      exact ⟨h', Row.mem_without.mpr ⟨hm', hne⟩, hs⟩
  covered := by
    intro o' h' hm'
    obtain ⟨hm', hne⟩ := Row.mem_without.mp hm'
    rw [spare?_unretire, if_neg hne]
    exact hd.covered hm'

/-! ## A slot enters the table -/

/-- An entry comes with a slot that the table does not know, for a key without an entry. -/
theorem putEntry (hd : t.Describes row) (hno : ∀ p ∈ row, p.1 ≠ o) (hnone : t.find? h.key = none)
    (hr : h.key.isReserved = false) :
    (t.putEntry (.ofHeader o h)).Describes (Row.put o h row) where
  single := hd.single.put _ _
  entry := by
    intro k' e' hk'
    rw [find?_putEntry] at hk'
    split at hk'
    · rename_i hkey
      cases hk'
      exact ⟨hkey ▸ hr, h, Row.mem_put.mpr (Or.inl rfl), rfl⟩
    · obtain ⟨hr', h', hm', he'⟩ := hd.entry hk'
      exact ⟨hr', h', Row.mem_put.mpr (Or.inr ⟨hm', hno _ hm'⟩), he'⟩
  spare := by
    intro o' e' ho'
    obtain ⟨h', hm', hs⟩ := hd.spare ho'
    exact ⟨h', Row.mem_put.mpr (Or.inr ⟨hm', hno _ hm'⟩), hs⟩
  covered := by
    intro o' h' hm'
    rw [spare?_putEntry, find?_putEntry]
    rcases Row.mem_put.mp hm' with heq | ⟨hm', hne⟩
    · cases heq
      refine ⟨fun _ => if_pos rfl, fun _ => Option.eq_none_iff_forall_ne_some.mpr fun e' he' => ?_⟩
      obtain ⟨h', hm', _⟩ := hd.spare he'
      exact hno _ hm' rfl
    · rw [hd.covered hm']
      split
      · rename_i hkey
        have hkey : h'.key = h.key := hkey
        rw [hkey, hnone]
        refine ⟨fun heq => (by cases heq), fun heq => absurd ?_ hne⟩
        exact (congrArg Entry.offset (Option.some.inj heq)).symm
      · exact Iff.rfl

/-- A slot out of use that the table does not know is retired. -/
theorem retire (hd : t.Describes row) (hno : ∀ p ∈ row, p.1 ≠ e.offset) (hs : e.size = h.slotSize)
    (hu : h.inUse = false) : (t.retire e).Describes (Row.put e.offset h row) where
  single := hd.single.put _ _
  entry := by
    intro k' e' hk'
    obtain ⟨hr', h', hm', he'⟩ := hd.entry hk'
    exact ⟨hr', h', Row.mem_put.mpr (Or.inr ⟨hm', hno _ hm'⟩), he'⟩
  spare := by
    intro o' e' ho'
    rw [spare?_retire] at ho'
    split at ho'
    · rename_i hoe
      cases ho'
      exact ⟨h, Row.mem_put.mpr (Or.inl (by rw [hoe])), hs, hu⟩
    · obtain ⟨h', hm', hs'⟩ := hd.spare ho'
      exact ⟨h', Row.mem_put.mpr (Or.inr ⟨hm', hno _ hm'⟩), hs'⟩
  covered := by
    intro o' h' hm'
    rw [spare?_retire, find?_retire]
    rcases Row.mem_put.mp hm' with heq | ⟨hm', hne⟩
    · cases heq
      rw [if_pos rfl]
      refine ⟨fun heq => (by cases heq), fun hk => ?_⟩
      obtain ⟨_, h'', hm'', _⟩ := hd.entry hk
      exact absurd rfl (hno _ hm'')
    · rw [if_neg hne]
      exact hd.covered hm'

/-- **A table of the slots of a row** describes it, if each slot has a key of its own. -/
theorem replaceAll (t : Toc) (hsingle : row.Single)
    (hkeys : row.Pairwise fun p q => p.2.key ≠ q.2.key)
    (hr : ∀ p ∈ row, p.2.key.isReserved = false) :
    (t.replaceAll (row.map fun p => .ofHeader p.1 p.2)).Describes row := by
  have hdistinct : (row.map fun p => Entry.ofHeader p.1 p.2).Pairwise fun a b => a.key ≠ b.key :=
    List.pairwise_map.mpr hkeys
  have hfind : ∀ k, (t.replaceAll (row.map fun p => .ofHeader p.1 p.2)).find? k =
      (row.map fun p => Entry.ofHeader p.1 p.2).find? fun e => e.key = k :=
    fun k => Keyed.get?_ofList hdistinct k
  exact {
    single := hsingle
    entry := fun {k e} hk => by
      have hkey := key_of_find? hk
      rw [hfind] at hk
      obtain ⟨p, hp, rfl⟩ := List.mem_map.mp (List.mem_of_find?_eq_some hk)
      exact ⟨hkey ▸ hr p hp, p.2, hp, rfl⟩
    spare := fun ho => by cases ho
    covered := fun {o h} hm => by
      rw [hfind]
      exact iff_of_true rfl (Keyed.find?_of_mem hdistinct (List.mem_map.mpr ⟨(o, h), hm, rfl⟩)) }

/-! ## What operations do -/

/-- **Rewriting the slot of a key** keeps the description. -/
theorem rewrite (hd : t.Describes row) (hk : t.find? h.key = some e) (ho : e.offset = o) :
    (t.putEntry (.ofHeader o h)).Describes (Row.put o h row) := by
  subst ho
  have hput := (hd.dropEntry hk).putEntry (h := h) (fun p hp => (Row.mem_without.mp hp).2)
    (by rw [find?_remove, if_pos rfl]) (hd.entry hk).1
  refine hput.congr (.putEntry_remove t _) fun p => ?_
  simp only [Row.mem_put, Row.mem_without]
  tauto

/-- **Moving a key to another slot** keeps the description if the slot it had is marked unused and
retired. -/
theorem relocate (hd : t.Describes row) (hno : ∀ p ∈ row, p.1 ≠ o) (hk : t.find? h.key = some e)
    {old : Header} (hm : (e.offset, old) ∈ row) :
    ((t.putEntry (.ofHeader o h)).retire e).Describes
      (Row.put e.offset old.tombstone (Row.put o h row)) := by
  have hsize : e.size = old.tombstone.slotSize := by
    rw [(hd.find?_of_entry hk hm).1]
    rfl
  have hput := (hd.dropEntry hk).putEntry (h := h) (fun p hp => hno p (Row.mem_without.mp hp).1)
    (by rw [find?_remove, if_pos rfl]) (hd.entry hk).1
  have hretire := hput.retire (e := e) (h := old.tombstone) (fun p hp => ?_) hsize rfl
  · refine hretire.congr ((Alike.putEntry_remove t _).retire e) fun p => ?_
    simp only [Row.mem_put, Row.mem_without]
    tauto
  · rcases Row.mem_put.mp hp with heq | ⟨hp, _⟩
    · rw [heq]
      exact Ne.symm (hno _ hm)
    · exact (Row.mem_without.mp hp).2

/-- **Marking the slot of a key free** keeps the description if the slot is marked unused. -/
theorem markFree (hd : t.Describes row) (hk : t.find? k = some e) {old : Header}
    (hm : (e.offset, old) ∈ row) :
    (t.markFree k).Describes (Row.put e.offset old.tombstone row) := by
  obtain ⟨he, hkey⟩ := hd.find?_of_entry hk hm
  have hfree : ({ e with isFree := true } : Entry) = .ofHeader e.offset old.tombstone := by
    rw [he]
    rfl
  rw [Toc.markFree, hk]
  dsimp only
  rw [hfree]
  exact hd.rewrite (h := old.tombstone) (hkey.symm ▸ hk) rfl

/-- **A slot that is given out** is a slot out of use of the row, and leaves the table; no other
entry changes. -/
theorem release (hd : t.Describes row) {size : Nat} (hs : t.freeSlot? size = some e) :
    (t.release e).Describes (row.without e.offset) ∧
      (∃ h, (e.offset, h) ∈ row ∧ e.size = h.slotSize ∧ h.inUse = false) ∧
      ∀ k, (t.release e).find? k = t.find? k ∨ t.find? k = some e ∧ e.isFree = true := by
  obtain ⟨_, ⟨hk, hfree⟩ | ho⟩ := mem_of_freeSlot? hs
  · have hrel : t.release e = t.remove e.key := by
      rw [Toc.release, hk]
      exact if_pos ⟨rfl, hfree⟩
    obtain ⟨_, h, hm, he⟩ := hd.entry hk
    rw [hrel]
    refine ⟨hd.dropEntry hk, ⟨h, hm, by rw [he]; rfl, ?_⟩, fun k' => ?_⟩
    · rw [he] at hfree
      simpa [Entry.ofHeader] using hfree
    · rw [find?_remove]
      by_cases hkey : k' = e.key
      · rw [hkey]
        exact Or.inr ⟨hk, hfree⟩
      · rw [if_neg hkey]
        exact Or.inl rfl
  · have hrel : t.release e = t.unretire e.offset := by
      rw [Toc.release]
      split
      · rename_i own hown
        refine if_neg fun hsame => ?_
        have hnone := hd.spare?_of_entry hown
        rw [hsame.1, ho] at hnone
        cases hnone
      · rfl
    rw [hrel]
    exact ⟨hd.dropSpare ho, hd.spare ho, fun _ => Or.inl rfl⟩

/-! ## Live and reusable slots -/

/-- **The live entries are the slots in use.** -/
theorem live_iff (hd : t.Describes row) :
    t.find? k = some e ∧ e.isFree = false ↔
      ∃ h, (e.offset, h) ∈ row ∧ h.inUse = true ∧ h.key = k ∧ e = .ofHeader e.offset h := by
  constructor
  · rintro ⟨hk, hlive⟩
    obtain ⟨_, h, hm, he⟩ := hd.entry hk
    refine ⟨h, hm, ?_, (hd.find?_of_entry hk hm).2, he⟩
    rw [he] at hlive
    simpa [Entry.ofHeader] using hlive
  · rintro ⟨h, hm, hu, rfl, he⟩
    refine ⟨he ▸ hd.find?_of_inUse hm hu, ?_⟩
    rw [he]
    simp [Entry.ofHeader, hu]

/-- **The reusable slots are the slots out of use.** -/
theorem reusable_iff (hd : t.Describes row) {size : Nat} :
    t.Reusable o size ↔ ∃ h, (o, h) ∈ row ∧ h.inUse = false ∧ h.slotSize = size := by
  constructor
  · rintro (⟨k, e, hk, hfree, rfl, rfl⟩ | ⟨e, ho, rfl⟩)
    · obtain ⟨_, h, hm, he⟩ := hd.entry hk
      refine ⟨h, hm, ?_, by rw [he]; rfl⟩
      rw [he] at hfree
      simpa [Entry.ofHeader] using hfree
    · obtain ⟨h, hm, hs, hu⟩ := hd.spare ho
      exact ⟨h, hm, hu, hs.symm⟩
  · rintro ⟨h, hm, hu, rfl⟩
    cases ho : t.spare? o with
    | none =>
      refine Or.inl ⟨h.key, _, (hd.covered hm).mp ho, ?_, rfl, rfl⟩
      simp [Entry.ofHeader, hu]
    | some e =>
      obtain ⟨h', hm', hs, _⟩ := hd.spare ho
      exact Or.inr ⟨e, ho, by rw [hs, hd.single hm hm']⟩

end Describes

end Toc

end SlotStore
