import Mathlib.Tactic.Common
import SlotStore.Proofs.Toc.Describes

/-!
# The regions of a table

The regions that a table lists, live, free and retired, are the slots of the row that it describes,
each once.  If the row fills a range of a file, the regions are disjoint and cover that range.

* `Toc.regions` : live and free entries and retired slots;
* `Toc.forall_regions_merge` : what merging a slot does to the regions;
* `Toc.Describes.regions_perm` : the regions are the slots of the row;
* `Toc.Describes.regions_disjoint`, `Toc.Describes.regions_cover`, `Toc.Describes.stats_sum` : what
  follows if the row fills a range.
-/

namespace SlotStore

namespace Row

variable {c : Content} {start stop : Nat} {row : Row}

/-- Slots that fill a range begin at different positions. -/
lemma Fills.distinct (hf : Fills c start row stop) : row.Pairwise fun p q => p.1 ≠ q.1 := by
  refine hf.pairwise.imp fun {p q} hpq => ?_
  have := p.2.slotSize_pos
  omega

lemma Fills.single (hf : Fills c start row stop) : row.Single :=
  fun _ _ _ hm hm' => hf.header_unique hm hm'

end Row

namespace Toc

variable {t : Toc} {row : Row} {c : Content} {start stop : Nat}

/-- The live and free entries and the retired slots. -/
def regions (t : Toc) : List Entry := t.entries.items ++ t.retired.items

/-- The offset and size of each region. -/
def extents (t : Toc) : List (Nat × Nat) := t.regions.map fun e => (e.offset, e.size)

/-- The regions are those of entries and of retired slots. -/
lemma mem_regions {e : Entry} :
    e ∈ t.regions ↔ t.find? e.key = some e ∨ t.spare? e.offset = some e := by
  rw [regions, List.mem_append, mem_entries_iff, mem_retired_iff]

section Merge

variable {P : Entry → Prop} {e : Entry}

lemma forall_regions_retire (hfree : ∀ e, P e → P { e with isFree := true })
    (ht : ∀ e ∈ t.regions, P e) (he : P e) : ∀ e' ∈ (t.retire e).regions, P e' := by
  intro e' hm
  rw [mem_regions, find?_retire, spare?_retire] at hm
  rcases hm with hk | ho
  · exact ht e' (mem_regions.mpr (Or.inl hk))
  · split at ho
    · cases ho
      exact hfree e he
    · exact ht e' (mem_regions.mpr (Or.inr ho))

lemma forall_regions_putEntry (ht : ∀ e ∈ t.regions, P e) (he : P e) :
    ∀ e' ∈ (t.putEntry e).regions, P e' := by
  intro e' hm
  rw [mem_regions, find?_putEntry, spare?_putEntry] at hm
  rcases hm with hk | ho
  · split at hk
    · cases hk
      exact he
    · exact ht e' (mem_regions.mpr (Or.inl hk))
  · exact ht e' (mem_regions.mpr (Or.inr ho))

/-- **Merging a slot adds no region but its own**: what holds of every region, and of each that is
freed, is kept. -/
theorem forall_regions_merge (hfree : ∀ e, P e → P { e with isFree := true })
    (ht : ∀ e ∈ t.regions, P e) (he : P e) : ∀ e' ∈ (t.merge e).regions, P e' := by
  unfold merge
  split
  · exact forall_regions_retire hfree ht he
  · split
    · exact forall_regions_putEntry ht he
    · rename_i old hk
      have hold : P old := ht old (mem_regions.mpr (Or.inl (key_of_find? hk ▸ hk)))
      split
      · exact ht
      · split
        · exact forall_regions_retire hfree (forall_regions_putEntry ht he) hold
        · exact forall_regions_retire hfree ht he

end Merge

lemma totalSize_eq (es : List Entry) :
    totalSize es = Row.bytes (es.map fun e => (e.offset, e.size)) := by
  induction es with
  | nil => rfl
  | cons e es ih => rw [totalSize, List.map_cons, Row.bytes, ih]

lemma totalSize_append (es es' : List Entry) :
    totalSize (es ++ es') = totalSize es + totalSize es' := by
  rw [totalSize_eq, totalSize_eq, totalSize_eq, List.map_append, Row.bytes_append]

lemma totalSize_perm {es es' : List Entry} (h : es.Perm es') : totalSize es = totalSize es' := by
  rw [totalSize_eq, totalSize_eq, Row.bytes_perm (h.map _)]

lemma totalSize_partition (p : Entry → Bool) (es : List Entry) :
    totalSize (es.filter p) + totalSize (es.filter fun e => !p e) = totalSize es := by
  induction es with
  | nil => rfl
  | cons e es ih =>
    rw [totalSize, ← ih]
    cases hp : p e <;> simp only [List.filter_cons, hp, totalSize, Bool.not_true, Bool.not_false,
      if_true, if_false, Bool.false_eq_true] <;> omega

/-- **The statistics** count entries and sum their sizes. -/
lemma stats_eq (t : Toc) : t.stats.live = (t.entries.items.filter fun e => !e.isFree).length ∧
    t.stats.liveBytes = totalSize (t.entries.items.filter fun e => !e.isFree) ∧
    t.stats.reclaimableBytes =
      totalSize (t.entries.items.filter (·.isFree)) + totalSize t.retired.items := by
  have hpart : t.entries.items.partition (·.isFree) =
      (t.entries.items.filter (·.isFree), t.entries.items.filter fun e => !e.isFree) :=
    List.partition_eq_filter_filter
  rw [stats, hpart]
  exact ⟨rfl, rfl, rfl⟩

/-- Live and reclaimable bytes are those of all regions. -/
lemma stats_bytes (t : Toc) :
    t.stats.liveBytes + t.stats.reclaimableBytes = Row.bytes t.extents := by
  have hpart := totalSize_partition (·.isFree) t.entries.items
  obtain ⟨_, hlive, hreclaimable⟩ := t.stats_eq
  rw [extents, ← totalSize_eq, regions, totalSize_append, hlive, hreclaimable]
  omega

/-- **Each live entity has one live entry.** -/
lemma activeEntries_distinct (t : Toc) : t.activeEntries.Pairwise fun a b => a.key ≠ b.key :=
  ((perm_byOffset _).pairwise_iff fun h => Ne.symm h).mpr (t.entries.distinct.filter _)

namespace Describes

/-- No two regions begin at one position. -/
lemma regions_distinct (hd : t.Describes row) :
    t.regions.Pairwise fun a b => a.offset ≠ b.offset := by
  refine List.pairwise_append.mpr ⟨?_, t.retired.distinct, fun a ha b hb hab => ?_⟩
  · refine t.entries.distinct.imp_of_mem fun {a b} ha hb hkey hab => hkey ?_
    -- entries at one offset are both of the key of the slot there
    have ha := mem_entries_iff.mp ha
    have hb := mem_entries_iff.mp hb
    obtain ⟨_, h, hm, _⟩ := hd.entry ha
    rw [← (hd.find?_of_entry ha hm).2, (hd.find?_of_entry hb (hab ▸ hm)).2]
  · have hnone := hd.spare?_of_entry (mem_entries_iff.mp ha)
    rw [hab, mem_retired_iff.mp hb] at hnone
    cases hnone

/-- **The regions of a table are the slots of its row.** -/
lemma mem_extents (hd : t.Describes row) (x : Nat × Nat) :
    x ∈ t.extents ↔ x ∈ row.extents := by
  simp only [extents, Row.extents, List.mem_map, mem_regions]
  constructor
  · rintro ⟨e, hk | ho, rfl⟩
    · obtain ⟨_, h, hm, he⟩ := hd.entry hk
      refine ⟨_, hm, ?_⟩
      rw [he]
      rfl
    · obtain ⟨h, hm, hs, _⟩ := hd.spare ho
      exact ⟨_, hm, by rw [hs]⟩
  · rintro ⟨⟨o, h⟩, hm, rfl⟩
    cases ho : t.spare? o with
    | none => exact ⟨.ofHeader o h, Or.inl ((hd.covered hm).mp ho), rfl⟩
    | some e =>
      obtain ⟨h', hm', hs, _⟩ := hd.spare ho
      have hoff := offset_of_spare? ho
      refine ⟨e, Or.inr (hoff ▸ ho), ?_⟩
      rw [hoff, hs, hd.single hm hm']

/-- **The regions of the table are the slots of the row**, each once. -/
theorem regions_perm (hd : t.Describes row) (hrow : row.Pairwise fun p q => p.1 ≠ q.1) :
    t.extents.Perm row.extents := by
  have hleft : t.extents.Nodup :=
    List.pairwise_map.mpr (hd.regions_distinct.imp fun hab heq => hab (Prod.mk.inj heq).1)
  have hright : row.extents.Nodup :=
    List.pairwise_map.mpr (hrow.imp fun hab heq => hab (Prod.mk.inj heq).1)
  exact (List.perm_ext_iff_of_nodup hleft hright).mpr hd.mem_extents

/-- **No two regions share a byte.** -/
theorem regions_disjoint (hd : t.Describes row) (hf : Row.Fills c start row stop) :
    t.regions.Pairwise fun a b => a.stop ≤ b.offset ∨ b.stop ≤ a.offset := by
  have hrow : row.extents.Pairwise fun x y => x.1 + x.2 ≤ y.1 ∨ y.1 + y.2 ≤ x.1 :=
    List.pairwise_map.mpr (hf.pairwise.imp Or.inl)
  have hperm := ((hd.regions_perm hf.distinct).pairwise_iff fun h => Or.symm h).mpr hrow
  exact List.pairwise_map.mp hperm

/-- **Every byte of the range is in a region**, and no other byte is. -/
theorem regions_cover (hd : t.Describes row) (hf : Row.Fills c start row stop) (i : Nat) :
    (start ≤ i ∧ i < stop) ↔ ∃ e ∈ t.regions, e.offset ≤ i ∧ i < e.stop := by
  constructor
  · rintro ⟨hl, hr⟩
    obtain ⟨p, hp, hpi⟩ := hf.exists_mem_of_lt hl hr
    have hx : (p.1, p.2.slotSize) ∈ t.extents :=
      (hd.mem_extents _).mpr (List.mem_map.mpr ⟨p, hp, rfl⟩)
    obtain ⟨e, he, heq⟩ := List.mem_map.mp hx
    obtain ⟨ho, hs⟩ := Prod.mk.inj heq
    refine ⟨e, he, ?_⟩
    rw [Entry.stop, ho, hs]
    exact hpi
  · rintro ⟨e, he, hl, hr⟩
    have hx : (e.offset, e.size) ∈ row.extents :=
      (hd.mem_extents _).mp (List.mem_map.mpr ⟨e, he, rfl⟩)
    obtain ⟨⟨o, h⟩, hp, heq⟩ := List.mem_map.mp hx
    obtain ⟨ho, hs⟩ := Prod.mk.inj heq
    have hb := hf.bounds hp
    have hs : h.slotSize = e.size := hs
    have ho : o = e.offset := ho
    rw [Entry.stop] at hr
    omega

/-- Live and reclaimable bytes are the bytes of the slots. -/
lemma stats_bytes_row (hd : t.Describes row) (hrow : row.Pairwise fun p q => p.1 ≠ q.1) :
    t.stats.liveBytes + t.stats.reclaimableBytes = Row.bytes row.extents := by
  rw [stats_bytes, Row.bytes_perm (hd.regions_perm hrow)]

/-- **Live and reclaimable bytes add up to the range.** -/
theorem stats_sum (hd : t.Describes row) (hf : Row.Fills c start row stop) :
    start + (t.stats.liveBytes + t.stats.reclaimableBytes) = stop := by
  rw [hd.stats_bytes_row hf.distinct]
  exact hf.bytes_extents

/-! ## Live entries -/

/-- No entry has the reserved key, so nothing but free entries is left out. -/
lemma filter_live (hd : t.Describes row) :
    (t.entries.items.filter fun e => !e.isFree && !e.key.isReserved) =
      t.entries.items.filter fun e => !e.isFree := by
  refine List.filter_congr fun e he => ?_
  rw [(hd.entry (mem_entries_iff.mp he)).1, Bool.not_false, Bool.and_true]

/-- The entries that are shown are those that are not free. -/
lemma mem_activeEntries (hd : t.Describes row) {e : Entry} :
    e ∈ t.activeEntries ↔ t.find? e.key = some e ∧ e.isFree = false := by
  rw [activeEntries, (perm_byOffset _).mem_iff, hd.filter_live, List.mem_filter, mem_entries_iff]
  simp

lemma stats_live (hd : t.Describes row) : t.stats.live = t.activeEntries.length := by
  rw [activeEntries, (perm_byOffset _).length_eq, hd.filter_live, t.stats_eq.1]

/-- The live entries take no more than the range. -/
lemma totalSize_activeEntries (hd : t.Describes row) (hf : Row.Fills c start row stop) :
    totalSize t.activeEntries ≤ stop := by
  have hsum := hd.stats_sum hf
  have hlive : totalSize t.activeEntries = t.stats.liveBytes := by
    rw [activeEntries, totalSize_perm (perm_byOffset _), hd.filter_live, t.stats_eq.2.1]
  omega

end Describes

end Toc

end SlotStore
