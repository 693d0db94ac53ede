import Mathlib.Data.Finset.Max
import SlotStore.Proofs.Toc.Merge

/-!
# What a table gathers from scanned slots

Slots are merged one by one into a table, and the newest slot of a key takes the place of older
ones.  Which slots end up as entries and which are retired depends on the set of slots alone, not on
the order in which they come, nor on how often one comes.

* `Toc.Leads`, `Toc.Idle` : slots that become entries, and slots that are retired;
* `Toc.Apart` : slots of which no two are of one place, or of one key and version;
* `Toc.Gathers.merge`, `Toc.Gathers.mergeAll` : what a table gathers;
* `Toc.merge_any_order` : the order does not matter.
-/

namespace SlotStore.Toc

variable {t t' : Toc} {es es' : List Entry} {e a b old : Entry} {k : Key} {o : Nat}

/-- **A slot leads** among some: it has a key, and none of the key has a higher version. -/
structure Leads (es : List Entry) (e : Entry) : Prop where
  mem : e ∈ es
  named : e.key.isReserved = false
  newest : ∀ a ∈ es, a.key = e.key → a.version ≤ e.version

/-- A slot that does not lead: one of the reserved key, or an older one than another of its key. -/
def Idle (es : List Entry) (e : Entry) : Prop := e ∈ es ∧ ¬ Leads es e

/-- **Slots apart**: no two of them begin at one offset, and no two of a key have one version. -/
structure Apart (es : List Entry) : Prop where
  offset : ∀ a ∈ es, ∀ b ∈ es, a.offset = b.offset → a = b
  version : ∀ a ∈ es, ∀ b ∈ es, a.key = b.key → a.key.isReserved = false →
    a.version = b.version → a = b

/-- **A table gathers slots**: its entries are those that lead, and the others are retired. -/
structure Gathers (t : Toc) (es : List Entry) : Prop where
  entry : ∀ k e, t.find? k = some e ↔ e.key = k ∧ Leads es e
  spare : ∀ o r, t.spare? o = some r ↔ ∃ e, Idle es e ∧ e.offset = o ∧ r = { e with isFree := true }

/-! ## Slots that lead -/

lemma Apart.mono (h : Apart es) (hsub : ∀ e ∈ es', e ∈ es) : Apart es' where
  offset a ha b hb := h.offset a (hsub a ha) b (hsub b hb)
  version a ha b hb := h.version a (hsub a ha) b (hsub b hb)

lemma leads_congr (h : ∀ e, e ∈ es ↔ e ∈ es') : Leads es e ↔ Leads es' e := by
  constructor
  · rintro ⟨hmem, hnamed, hnewest⟩
    exact ⟨(h e).mp hmem, hnamed, fun a ha => hnewest a ((h a).mpr ha)⟩
  · rintro ⟨hmem, hnamed, hnewest⟩
    exact ⟨(h e).mpr hmem, hnamed, fun a ha => hnewest a ((h a).mp ha)⟩

lemma Gathers.congr (hg : Gathers t es) (h : ∀ e, e ∈ es ↔ e ∈ es') : Gathers t es' := by
  have hleads : ∀ e, Leads es e ↔ Leads es' e := fun e => leads_congr h
  have hidle : ∀ e, Idle es e ↔ Idle es' e := fun e => and_congr (h e) (not_congr (hleads e))
  constructor
  · simpa only [hleads] using hg.entry
  · simpa only [hidle] using hg.spare

/-- Two slots that lead are of two keys. -/
lemma Leads.eq (ha : Leads es a) (hb : Leads es b) (hapart : Apart es) (hkey : a.key = b.key) :
    a = b := by
  have hab := hb.newest a ha.mem hkey
  have hba := ha.newest b hb.mem hkey.symm
  exact hapart.version a ha.mem b hb.mem hkey ha.named (UInt32.le_antisymm hab hba)

/-- Among the slots of a key one leads. -/
lemma exists_leads (ha : a ∈ es) (hnamed : a.key.isReserved = false) :
    ∃ e, Leads es e ∧ e.key = a.key := by
  have hfilter : ∀ b, b ∈ (es.filter fun b => b.key = a.key).toFinset ↔ b ∈ es ∧ b.key = a.key := by
    simp
  obtain ⟨e, he, hmax⟩ := Finset.exists_max_image _ (fun b => b.version.toNat)
    ⟨a, (hfilter a).mpr ⟨ha, rfl⟩⟩
  obtain ⟨hmem, hkey⟩ := (hfilter e).mp he
  refine ⟨e, ⟨hmem, by rwa [hkey], fun b hb hb' => ?_⟩, hkey⟩
  exact hmax b ((hfilter b).mpr ⟨hb, hb'.trans hkey⟩)

/-- **The entry that leads** is the newer one. -/
lemma leads_cons : Leads (e :: es) a ↔
    a = e ∧ e.key.isReserved = false ∧ (∀ b ∈ es, b.key = e.key → b.version ≤ e.version) ∨
      Leads es a ∧ (e.key = a.key → e.version ≤ a.version) := by
  constructor
  · rintro ⟨hmem, hnamed, hnewest⟩
    rw [List.forall_mem_cons] at hnewest
    rcases List.mem_cons.mp hmem with rfl | hmem
    · exact Or.inl ⟨rfl, hnamed, hnewest.2⟩
    · exact Or.inr ⟨⟨hmem, hnamed, hnewest.2⟩, hnewest.1⟩
  · rintro (⟨rfl, hnamed, hnewest⟩ | ⟨⟨hmem, hnamed, hnewest⟩, hfirst⟩)
    · exact ⟨List.mem_cons_self, hnamed,
        List.forall_mem_cons.mpr ⟨fun _ => UInt32.le_refl _, hnewest⟩⟩
    · exact ⟨List.mem_cons_of_mem _ hmem, hnamed, List.forall_mem_cons.mpr ⟨hfirst, hnewest⟩⟩

/-- One more slot that does not lead. -/
lemma leads_cons_of_not (he : ¬ Leads (e :: es) e)
    (hbelow : ∀ a, Leads es a → e.key = a.key → e.version ≤ a.version) :
    Leads (e :: es) a ↔ Leads es a := by
  rw [leads_cons]
  constructor
  · rintro (⟨rfl, hnamed, hnewest⟩ | ⟨ha, -⟩)
    · exact absurd (leads_cons.mpr (.inl ⟨rfl, hnamed, hnewest⟩)) he
    · exact ha
  · exact fun ha => Or.inr ⟨ha, hbelow a ha⟩

/-- One more slot that leads, above those of its key. -/
lemma leads_cons_of_above (hnamed : e.key.isReserved = false)
    (habove : ∀ b ∈ es, b.key = e.key → b.version < e.version) :
    Leads (e :: es) a ↔ a = e ∨ a.key ≠ e.key ∧ Leads es a := by
  have hle : ∀ b ∈ es, b.key = e.key → b.version ≤ e.version :=
    fun b hb hkey => UInt32.le_of_lt (habove b hb hkey)
  rw [leads_cons]
  constructor
  · rintro (⟨rfl, -⟩ | ⟨ha, hfirst⟩)
    · exact Or.inl rfl
    · refine Or.inr ⟨fun hkey => ?_, ha⟩
      exact UInt32.not_lt.mpr (hfirst hkey.symm) (habove a ha.mem hkey)
  · rintro (rfl | ⟨hkey, ha⟩)
    · exact Or.inl ⟨rfl, hnamed, hle⟩
    · exact Or.inr ⟨ha, fun h => absurd h.symm hkey⟩

lemma idle_cons_of_above (hnamed : e.key.isReserved = false)
    (habove : ∀ b ∈ es, b.key = e.key → b.version < e.version) :
    Idle (e :: es) a ↔ a ∈ es ∧ (a.key = e.key ∨ ¬ Leads es a) := by
  rw [Idle, leads_cons_of_above hnamed habove, List.mem_cons]
  constructor
  · rintro ⟨rfl | hmem, hidle⟩
    · exact absurd (.inl rfl) hidle
    · refine ⟨hmem, or_iff_not_imp_left.mpr fun hkey ha => hidle (.inr ⟨hkey, ha⟩)⟩
  · rintro ⟨hmem, hidle⟩
    refine ⟨.inr hmem, ?_⟩
    rintro (rfl | ⟨hkey, ha⟩)
    · exact UInt32.lt_irrefl _ (habove a hmem rfl)
    · exact hidle.elim hkey fun h => h ha

/-! ## One slot is merged -/

/-- A slot is retired. -/
lemma spare_retire (hspare : ∀ o r, t.spare? o = some r ↔
      ∃ b, Idle es b ∧ b.offset = o ∧ r = { b with isFree := true }) (hapart : Apart es')
    (ha : a ∈ es') (hidle : ∀ b, Idle es' b ↔ b = a ∨ Idle es b) (o : Nat) (r : Entry) :
    (t.retire a).spare? o = some r ↔
      ∃ b, Idle es' b ∧ b.offset = o ∧ r = { b with isFree := true } := by
  rw [spare?_retire]
  by_cases ho : o = a.offset
  · rw [if_pos ho, Option.some.injEq, eq_comm]
    constructor
    · exact fun hr => ⟨a, (hidle a).mpr (.inl rfl), ho.symm, hr⟩
    · rintro ⟨b, hb, hbo, hr⟩
      rwa [← hapart.offset b hb.1 a ha (hbo.trans ho)]
  · rw [if_neg ho, hspare]
    simp only [hidle]
    constructor
    · rintro ⟨b, hb, hrest⟩
      exact ⟨b, .inr hb, hrest⟩
    · rintro ⟨b, rfl | hb, hbo, hr⟩
      · exact absurd hbo.symm ho
      · exact ⟨b, hb, hbo, hr⟩

namespace Gathers

/-- A slot becomes the entry of its key. -/
lemma entry_putEntry (hg : Gathers t es)
    (hleads : ∀ a, Leads es' a ↔ a = e ∨ a.key ≠ e.key ∧ Leads es a) (k : Key) (a : Entry) :
    (t.putEntry e).find? k = some a ↔ a.key = k ∧ Leads es' a := by
  rw [find?_putEntry, hleads]
  by_cases hk : k = e.key
  · rw [if_pos hk, Option.some.injEq, eq_comm]
    constructor
    · rintro rfl
      exact ⟨hk.symm, .inl rfl⟩
    · rintro ⟨hkey, heq | ⟨hne, -⟩⟩
      · exact heq
      · exact absurd (hkey.trans hk) hne
  · rw [if_neg hk, hg.entry]
    constructor
    · rintro ⟨rfl, ha⟩
      exact ⟨rfl, .inr ⟨hk, ha⟩⟩
    · rintro ⟨rfl, rfl | ⟨-, ha⟩⟩
      · exact absurd rfl hk
      · exact ⟨rfl, ha⟩

/-- A slot that does not lead is retired. -/
lemma retire (hg : Gathers t es) (hapart : Apart (e :: es)) (he : ¬ Leads (e :: es) e)
    (hbelow : ∀ a, Leads es a → e.key = a.key → e.version ≤ a.version) :
    Gathers (t.retire e) (e :: es) := by
  have hleads : ∀ a, Leads (e :: es) a ↔ Leads es a := fun a => leads_cons_of_not he hbelow
  constructor
  · simpa only [hleads, find?_retire] using hg.entry
  · refine spare_retire hg.spare hapart List.mem_cons_self fun b => ?_
    rw [Idle, Idle, hleads, List.mem_cons, or_and_right]
    refine or_congr_left ⟨And.left, ?_⟩
    rintro rfl
    exact ⟨rfl, (hleads b).not.mp he⟩

/-- A slot of a new key becomes its entry. -/
lemma putEntry (hg : Gathers t es) (hnamed : e.key.isReserved = false)
    (hnew : ∀ b ∈ es, b.key ≠ e.key) : Gathers (t.putEntry e) (e :: es) := by
  have habove : ∀ b ∈ es, b.key = e.key → b.version < e.version :=
    fun b hb hkey => absurd hkey (hnew b hb)
  have hidle : ∀ b, Idle (e :: es) b ↔ Idle es b := by
    intro b
    rw [idle_cons_of_above hnamed habove, Idle]
    exact and_congr_right fun hb => or_iff_right (hnew b hb)
  constructor
  · exact hg.entry_putEntry fun a => leads_cons_of_above hnamed habove
  · simpa only [hidle, spare?_putEntry] using hg.spare

/-- A slot takes the place of the entry of its key, which is older. -/
lemma replace (hg : Gathers t es) (hapart : Apart (e :: es)) (hold : Leads es old)
    (hkey : old.key = e.key) (holder : old.version < e.version) :
    Gathers ((t.putEntry e).retire old) (e :: es) := by
  have habove : ∀ b ∈ es, b.key = e.key → b.version < e.version := fun b hb hb' =>
    UInt32.lt_of_le_of_lt (hold.newest b hb (hb'.trans hkey.symm)) holder
  have hnamed : e.key.isReserved = false := hkey ▸ hold.named
  constructor
  · simpa only [find?_retire] using
      hg.entry_putEntry fun a => leads_cons_of_above hnamed habove
  · refine spare_retire (t := t.putEntry e) hg.spare hapart (List.mem_cons_of_mem _ hold.mem)
      fun b => ?_
    rw [idle_cons_of_above hnamed habove]
    constructor
    · rintro ⟨hmem, hb⟩
      by_cases hlead : Leads es b
      · have hsame := hb.resolve_right fun h => h hlead
        exact .inl (hlead.eq hold (hapart.mono fun _ => List.mem_cons_of_mem _)
          (hsame.trans hkey.symm))
      · exact .inr ⟨hmem, hlead⟩
    · rintro (rfl | ⟨hmem, hlead⟩)
      · exact ⟨hold.mem, .inl hkey⟩
      · exact ⟨hmem, .inr hlead⟩

/-- **One slot is merged**, whether it is a new one or came before. -/
theorem merge (hg : Gathers t es) (hapart : Apart (e :: es)) : Gathers (t.merge e) (e :: es) := by
  unfold Toc.merge
  split
  · rename_i hreserved
    refine hg.retire hapart (fun he => ?_) fun a ha hkey => ?_
    · simp [he.named] at hreserved
    · simp [hkey, ha.named] at hreserved
  · rename_i hnamed
    rw [Bool.not_eq_true] at hnamed
    split
    · rename_i hnone
      refine hg.putEntry hnamed fun b hb hkey => ?_
      obtain ⟨a, ha, hka⟩ := exists_leads hb (hkey ▸ hnamed)
      have hfind := (hg.entry e.key a).mpr ⟨hka.trans hkey, ha⟩
      simp [hfind] at hnone
    · rename_i old hfind
      obtain ⟨hkey, hold⟩ := (hg.entry _ _).mp hfind
      have hmem : old ∈ e :: es := List.mem_cons_of_mem _ hold.mem
      split_ifs with hplace holder
      · obtain rfl := hapart.offset old hmem e List.mem_cons_self hplace
        refine hg.congr fun a => ?_
        simp only [List.mem_cons, iff_or_self]
        rintro rfl
        exact hold.mem
      · exact hg.replace hapart hold hkey holder
      · have hle := UInt32.not_lt.mp holder
        refine hg.retire hapart (fun he => hplace ?_) fun a ha hka => ?_
        · have hge := he.newest old hmem hkey
          rw [hapart.version old hmem e List.mem_cons_self hkey hold.named
            (UInt32.le_antisymm hge hle)]
        · exact UInt32.le_trans hle (ha.newest old hold.mem (hkey.trans hka))

/-- **Slots are merged** one after another. -/
theorem mergeAll (hg : Gathers t es) (hapart : Apart (es ++ es')) :
    Gathers (es'.foldl (fun t e => t.merge e) t) (es ++ es') := by
  induction es' generalizing t es with
  | nil => simpa using hg
  | cons e es' ih =>
    have hmove : ∀ a, a ∈ (e :: es) ++ es' ↔ a ∈ es ++ e :: es' := by
      intro a
      simp only [List.cons_append, List.mem_cons, List.mem_append]
      tauto
    have hmoved := hapart.mono fun a => (hmove a).mp
    have hstep := hg.merge (hmoved.mono fun a => List.mem_append_left es')
    exact (ih hstep hmoved).congr hmove

/-- **A slot that came before** changes nothing. -/
theorem again (hg : Gathers t es) (hapart : Apart es) (he : e ∈ es) : Gathers (t.merge e) es := by
  have hmem : ∀ a, a ∈ e :: es ↔ a ∈ es := by
    intro a
    simp only [List.mem_cons, or_iff_right_iff_imp]
    rintro rfl
    exact he
  exact (hg.merge (hapart.mono fun a => (hmem a).mp)).congr hmem

/-- A table without slots. -/
lemma nil (hentries : ∀ k, t.find? k = none) (hretired : ∀ o, t.spare? o = none) :
    Gathers t [] := by
  constructor
  · intro k e
    simp only [hentries, reduceCtorEq, false_iff]
    rintro ⟨-, hlead⟩
    cases hlead.mem
  · intro o r
    simp only [hretired, reduceCtorEq, false_iff]
    rintro ⟨e, hidle, -⟩
    cases hidle.1

/-- Tables that gather the same slots are alike. -/
lemma alike (hg : Gathers t es) (hg' : Gathers t' es) : Alike t t' where
  find? k := Option.ext fun e => by rw [hg'.entry, hg.entry]
  spare? o := Option.ext fun r => by rw [hg'.spare, hg.spare]

end Gathers

/-! ## Any order -/

/-- **The same table**, up to the order in which the collections are kept. -/
structure Same (t t' : Toc) : Prop extends Alike t t' where
  nextVersion : t'.nextVersion = t.nextVersion
  ready : t'.ready = t.ready
  signal : t'.signal = t.signal

/-- Merging leaves version counter and signal alone. -/
lemma foldl_merge_fields (es : List Entry) (t : Toc) :
    (es.foldl (fun t e => t.merge e) t).nextVersion = t.nextVersion ∧
      (es.foldl (fun t e => t.merge e) t).ready = t.ready ∧
      (es.foldl (fun t e => t.merge e) t).signal = t.signal := by
  induction es generalizing t with
  | nil => exact ⟨rfl, rfl, rfl⟩
  | cons e es ih =>
    obtain ⟨hversion, hready, hsignal⟩ := merge_fields e t
    rw [← hversion, ← hready, ← hsignal]
    exact ih (t.merge e)

/-- **The order in which slots are merged does not matter**, nor how often each comes.  The entries
are the newest slots of their keys as they are, and all other slots are retired. -/
theorem merge_any_order (hentries : ∀ k, t.find? k = none) (hretired : ∀ o, t.spare? o = none)
    (hapart : Apart es) (hsame : ∀ e, e ∈ es' ↔ e ∈ es) :
    Gathers (es'.foldl (fun t e => t.merge e) t) es ∧
      Same (es.foldl (fun t e => t.merge e) t) (es'.foldl (fun t e => t.merge e) t) ∧
      ∀ e ∈ es, Same (es'.foldl (fun t e => t.merge e) t)
        ((es'.foldl (fun t e => t.merge e) t).merge e) := by
  have hnil : Gathers t [] := .nil hentries hretired
  have hall : Gathers (es.foldl (fun t e => t.merge e) t) es := hnil.mergeAll hapart
  have hall' : Gathers (es'.foldl (fun t e => t.merge e) t) es :=
    (hnil.mergeAll (hapart.mono fun e => (hsame e).mp)).congr hsame
  obtain ⟨hversion, hready, hsignal⟩ := foldl_merge_fields es t
  obtain ⟨hversion', hready', hsignal'⟩ := foldl_merge_fields es' t
  refine ⟨hall', ⟨hall.alike hall', ?_, ?_, ?_⟩, fun e he => ?_⟩
  · rw [hversion', hversion]
  · rw [hready', hready]
  · rw [hsignal', hsignal]
  · obtain ⟨hversion'', hready'', hsignal''⟩ :=
      merge_fields e (es'.foldl (fun t e => t.merge e) t)
    exact ⟨hall'.alike (hall'.again hapart he), hversion'', hready'', hsignal''⟩

namespace Copies

def key (b : UInt8) : Key := (Key.ofBytes? (List.replicate 16 b)).getD .reserved

/-- Three copies of one entity of which the newest is free, another entity, and a slot of the
reserved key. -/
def slots : List Entry :=
  [⟨key 1, 0, 40, false, 2⟩, ⟨key 1, 40, 60, true, 7⟩, ⟨key 2, 100, 40, false, 1⟩,
    ⟨key 1, 140, 40, false, 5⟩, ⟨Key.reserved, 180, 40, false, 1⟩]

lemma apart : Apart slots := by
  constructor <;> decide +kernel

end Copies

open Copies

/-- Merged from the last to the first, and the first two once more. -/
theorem merge_any_order_copies :
    Gathers ((slots.take 2 ++ slots.reverse).foldl (fun t e => t.merge e) unfinished) slots ∧
      Same (slots.foldl (fun t e => t.merge e) unfinished)
        ((slots.take 2 ++ slots.reverse).foldl (fun t e => t.merge e) unfinished) ∧
      ∀ e ∈ slots, Same ((slots.take 2 ++ slots.reverse).foldl (fun t e => t.merge e) unfinished)
        (((slots.take 2 ++ slots.reverse).foldl (fun t e => t.merge e) unfinished).merge e) := by
  refine merge_any_order (fun _ => rfl) (fun _ => rfl) apart fun e => ?_
  simp only [List.mem_append, List.mem_reverse, or_iff_right_iff_imp]
  exact List.mem_of_mem_take

end SlotStore.Toc
