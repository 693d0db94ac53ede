import Mathlib.Tactic.Common
import SlotStore.Proofs.Volume.Persist

/-!
# Versions grow

The next version of a table is one more than the highest that was handed out or observed, through
rebuilds and reloads, until the highest version there is was handed out or observed.  No later
version exceeds that one.

* `Toc.latest` : the highest of several versions;
* `Toc.Call`, `Toc.Run` : what is done to a table, and the versions met on the way;
* `Toc.Ahead` : the next version is one more than the highest that was met;
* `Toc.Run.increases` : versions increase exactly as long as the last version was not met;
* `Toc.Run.restarts` : the last version is handed out.
-/

namespace SlotStore

namespace Toc

open Steps

variable {t : Toc} {seen vs : List UInt32} {v : UInt32}

/-! ## The highest of several versions -/

/-- The highest version there is. -/
def lastVersion : UInt32 := 0xFFFFFFFF

/-- The highest of several versions, or zero. -/
def latest (seen : List UInt32) : UInt32 := seen.foldr max 0

lemma toNat_latest_cons (v : UInt32) (seen : List UInt32) :
    (latest (v :: seen)).toNat = max v.toNat (latest seen).toNat := Row.toNat_max v (latest seen)

lemma toNat_latest_append (vs seen : List UInt32) :
    (latest (vs ++ seen)).toNat = max (latest vs).toNat (latest seen).toNat := by
  induction vs with
  | nil => exact (Nat.zero_max _).symm
  | cons v vs ih => rw [List.cons_append, toNat_latest_cons, ih, toNat_latest_cons, Nat.max_assoc]

/-- The latest version is not below any other. -/
lemma le_latest (hv : v ∈ seen) : v ≤ latest seen := by
  rw [UInt32.le_iff_toNat_le]
  induction seen with
  | nil => cases hv
  | cons w seen ih =>
    rw [toNat_latest_cons]
    rcases List.mem_cons.mp hv with rfl | hv
    · exact Nat.le_max_left _ _
    · exact Nat.le_trans (ih hv) (Nat.le_max_right _ _)

/-- The latest version is one of those that were seen. -/
lemma latest_mem (hne : seen ≠ []) : latest seen ∈ seen := by
  induction seen with
  | nil => exact absurd rfl hne
  | cons v seen ih =>
    have hmax : latest (v :: seen) = if v ≤ latest seen then latest seen else v := rfl
    rw [hmax]
    split
    · rename_i hle
      by_cases hnil : seen = []
      · subst hnil
        have hzero : v = 0 := UInt32.toNat_inj.mp (Nat.le_zero.mp (UInt32.le_iff_toNat_le.mp hle))
        exact hzero ▸ List.mem_cons_self
      · exact List.mem_cons_of_mem v (ih hnil)
    · exact List.mem_cons_self

/-- Versions other than the last are below it. -/
lemma latest_lt (hlast : lastVersion ∉ seen) : (latest seen).toNat + 1 < versionLimit := by
  have hlt := (latest seen).toNat_lt
  have hne : (latest seen).toNat ≠ lastVersion.toNat := by
    intro heq
    have heq : latest seen = lastVersion := UInt32.toNat_inj.mp heq
    by_cases hnil : seen = []
    · subst hnil
      cases heq
    · exact hlast (heq ▸ latest_mem hnil)
  have htop : lastVersion.toNat + 1 = versionLimit := rfl
  rw [versionLimit] at *
  omega

lemma toNat_highest (row : Row) (start : UInt32) : (Volume.highest row start).toNat =
    max start.toNat (latest (row.map fun p => p.2.version)).toNat := by
  induction row generalizing start with
  | nil => exact (Nat.max_zero _).symm
  | cons p rest ih =>
    rw [Volume.toNat_highest_cons, ih, Row.toNat_max, List.map_cons, toNat_latest_cons,
      Nat.max_assoc]

/-! ## Calls -/

/-- What is done to a table. -/
inductive Call
  | allocate
  | observe (v : UInt32)
  | upsertEntry (e : Entry)
  | upsertIfNewer (e : Entry)
  | rebuild (f : RecordFile) (limit : Nat)
  /-- The table is sealed into a file and loaded from there. -/
  | reload (f : RecordFile)

namespace Call

/-- The table afterwards. -/
def perform : Call → Toc → Toc
  | allocate, t => t.allocateVersion.2
  | observe v, t => t.observeVersion v
  | upsertEntry e, t => t.upsertEntry e
  | upsertIfNewer e, t => t.upsertIfNewer e
  | rebuild f limit, t => (final (Volume.rebuild limit ⟨f, t⟩)).toc
  | reload f, t =>
    match Volume.persist ⟨f, t⟩ with
    | .ok _ v => (Volume.mount (.ofContent v.file.content)).1.toc
    | .error _ v => v.toc

/-- The versions that are handed out or observed. -/
def versions : Call → Toc → List UInt32
  | allocate, t => [t.allocateVersion.1]
  | observe v, _ => [v]
  | upsertEntry e, _ => if e.key.isReserved then [] else [e.version]
  | upsertIfNewer e, _ => [e.version]
  -- a scan that fails observes none of the versions that it has come across
  | rebuild f limit, _ =>
    match (f.slots 0 limit).1 with
    | .ok _ => (f.slots 0 limit).2.map fun p => p.2.version
    | .error _ => []
  | reload _, _ => []

/-- Numbers fit words of eight bytes. -/
def Fits : Call → Prop
  | upsertEntry e => e.Fits
  | upsertIfNewer e => e.Fits
  | rebuild _ limit => limit < Bytes.span 8
  | _ => True

end Call

/-- **A table in use**, and the versions that were handed out or observed, the latest ones first. -/
inductive Run : List UInt32 → Toc → Prop
  | unfinished : Run [] unfinished
  | empty : Run [] empty
  | next {seen : List UInt32} {t : Toc} (run : Run seen t) (call : Call) (fits : call.Fits) :
      Run (call.versions t ++ seen) (call.perform t)

/-! ## The next version -/

/-- **A table is ahead of the versions that were met**, unless they include the last one. -/
structure Ahead (seen : List UInt32) (t : Toc) : Prop where
  next : lastVersion ∉ seen → t.nextVersion.toNat = (latest seen).toNat + 1
  fits : ∀ e ∈ t.regions, e.Fits

lemma fits_merge {e : Entry} (ht : ∀ a ∈ t.regions, a.Fits) (he : e.Fits) :
    ∀ a ∈ (t.merge e).regions, a.Fits :=
  forall_regions_merge (fun _ ha => ⟨ha.offset, ha.size⟩) ht he

/-- Merging slots of a file keeps all entries writable. -/
lemma fits_merged {row : Row} {limit : Nat} (hlimit : limit < Bytes.span 8)
    (hrow : ∀ p ∈ row, p.1 + p.2.slotSize ≤ limit) (ht : ∀ a ∈ t.regions, a.Fits) :
    ∀ a ∈ (Volume.merged row t).regions, a.Fits := by
  induction row generalizing t with
  | nil => exact ht
  | cons p rest ih =>
    obtain ⟨hp, hrest⟩ := List.forall_mem_cons.mp hrow
    refine ih hrest (fits_merge ht ?_)
    exact ⟨show p.1 < _ by omega, show p.2.slotSize < _ by omega⟩

namespace Ahead

/-- Some versions are observed at once, by the highest of them. -/
lemma observe (ha : Ahead seen t) (vs : List UInt32) (hv : v.toNat = (latest vs).toNat)
    (hlast : lastVersion ∉ vs ++ seen) :
    (t.observeVersion v).nextVersion.toNat = (latest (vs ++ seen)).toNat + 1 := by
  obtain ⟨hvs, hseen⟩ := not_or.mp (mt List.mem_append.mpr hlast)
  have hlt := latest_lt hvs
  have hnext := ha.next hseen
  rw [observeVersion, Row.toNat_max, toNat_bump (hv ▸ hlt), hnext, hv, toNat_latest_append]
  omega

lemma observe_one (ha : Ahead seen t) (hlast : lastVersion ∉ v :: seen) :
    (t.observeVersion v).nextVersion.toNat = (latest (v :: seen)).toNat + 1 :=
  ha.observe [v] (by rw [toNat_latest_cons]; exact (Nat.max_zero _).symm) hlast

/-- **A version that is handed out** is the latest one. -/
lemma allocate (ha : Ahead seen t) (hlast : lastVersion ∉ t.nextVersion :: seen) :
    (t.nextVersion + 1).toNat = (latest (t.nextVersion :: seen)).toNat + 1 := by
  have hlt := latest_lt hlast
  have hnext := ha.next fun h => hlast (List.mem_cons_of_mem _ h)
  rw [toNat_latest_cons] at hlt ⊢
  have hsucc : (t.nextVersion + 1).toNat = t.nextVersion.toNat + 1 := by
    rw [UInt32.toNat_add]
    exact Nat.mod_eq_of_lt (show t.nextVersion.toNat + 1 < versionLimit by omega)
  omega

/-- **A rebuild keeps a table ahead.** -/
lemma rebuild (ha : Ahead seen t) (f : RecordFile) {limit : Nat} (hlimit : limit < Bytes.span 8) :
    Ahead ((Call.rebuild f limit).versions t ++ seen) ((Call.rebuild f limit).perform t) := by
  have hfits : ∀ a ∈ (Volume.merged (f.slots 0 limit).2 t).regions, a.Fits :=
    fits_merged hlimit (fun p hp => RecordFile.le_of_mem_slots hp) ha.fits
  have hversion : (Volume.merged (f.slots 0 limit).2 t).nextVersion = t.nextVersion :=
    (Volume.merged_fields _ t).1
  have hmerged : Ahead seen (Volume.merged (f.slots 0 limit).2 t) :=
    ⟨fun hlast => hversion ▸ ha.next hlast, hfits⟩
  rw [Call.perform, Volume.toc_rebuild, Call.versions]
  cases (f.slots 0 limit).1 with
  | ok summary => exact ⟨hmerged.observe _ ((toNat_highest _ 0).trans (Nat.zero_max _)), hfits⟩
  | error e => exact hmerged

/-- **A table that is sealed and loaded stays ahead.** -/
lemma reload (ha : Ahead seen t) (f : RecordFile) : Ahead seen ((Call.reload f).perform t) := by
  rw [Call.perform]
  split
  · rename_i start v hok
    obtain ⟨hs, rfl, rfl⟩ := Volume.persist_eq_ok_iff.mp hok
    have hspan : positionLimit ≤ Bytes.span 8 := by decide
    have hroom := hs.room
    have hfits := Volume.fits_snapshot (v := ⟨f, t⟩) ha.fits (by omega)
    have hends := Volume.endsIn_sealedFile hs
    rw [Volume.mount_of_load (Volume.load_of_endsIn hends rfl hfits rfl rfl)]
    refine ⟨fun hlast => ?_, fun e he => ?_⟩
    · have hnext := ha.next hlast
      show (max (1 : UInt32) t.nextVersion).toNat = _
      rw [Row.toNat_max, hnext]
      exact Nat.max_eq_right (Nat.succ_le_succ (Nat.zero_le _))
    · have hentries := Keyed.perm_ofList (perm_byOffset t.entries.items)
      have hretired := Keyed.perm_ofList (perm_byOffset t.retired.items)
      exact ha.fits e ((hentries.append hretired).mem_iff.mp he)
  · rename_i e v herr
    rw [(Volume.toc_persist t).of_error herr rfl]
    exact ha

/-- **One call**. -/
lemma perform (ha : Ahead seen t) {call : Call} (hfits : call.Fits) :
    Ahead (call.versions t ++ seen) (call.perform t) := by
  cases call with
  | allocate => exact ⟨ha.allocate, ha.fits⟩
  | observe v => exact ⟨ha.observe_one, ha.fits⟩
  | upsertEntry e =>
    rw [Call.perform, Call.versions, upsertEntry]
    split
    · exact ha
    · have hput := forall_regions_putEntry (t := t.observeVersion e.version) ha.fits hfits
      exact ⟨ha.observe_one, hput⟩
  | upsertIfNewer e =>
    have hversion := (merge_fields e (t.observeVersion e.version)).1
    refine ⟨fun hlast => ?_, fits_merge (t := t.observeVersion e.version) ha.fits hfits⟩
    rw [Call.perform, upsertIfNewer, hversion]
    exact ha.observe_one hlast
  | rebuild f limit => exact ha.rebuild f hfits
  | reload f => exact ha.reload f

end Ahead

/-- **A table in use is ahead of the versions that were met.** -/
theorem Run.ahead (run : Run seen t) : Ahead seen t := by
  induction run with
  | unfinished => exact ⟨fun _ => rfl, fun _ he => nomatch he⟩
  | empty => exact ⟨fun _ => rfl, fun _ he => nomatch he⟩
  | next run call hfits ih => exact ih.perform hfits

lemma toNat_maxVersion (t : Toc) : t.maxVersion.toNat = t.nextVersion.toNat - 1 := by
  rw [maxVersion]
  split
  · rename_i hzero
    rw [hzero]
    rfl
  · rename_i hpos
    have hle : (1 : UInt32) ≤ t.nextVersion := by
      rw [UInt32.le_iff_toNat_le]
      exact Nat.pos_of_ne_zero fun hzero => hpos (UInt32.toNat_inj.mp hzero)
    rw [UInt32.toNat_sub_of_le _ _ hle]
    rfl

/-- The highest version that a table knows of is never the last one. -/
lemma maxVersion_lt_last (t : Toc) : t.maxVersion < lastVersion := by
  have hlt := t.nextVersion.toNat_lt
  have htop : lastVersion.toNat + 1 = 2 ^ 32 := rfl
  rw [UInt32.lt_iff_toNat_lt, toNat_maxVersion]
  omega

/-- **Versions increase, and the highest one is known, exactly as long as the last version was
neither handed out nor observed.** -/
theorem Run.increases (run : Run seen t) :
    ((∀ v ∈ seen, v < t.allocateVersion.1) ↔ lastVersion ∉ seen) ∧
      (t.maxVersion = latest seen ↔ lastVersion ∉ seen) ∧
      (lastVersion ∉ seen → t.allocateVersion.1.toNat = (latest seen).toNat + 1) := by
  have hnext := run.ahead.next
  refine ⟨⟨fun hall hlast => ?_, fun hlast v hv => ?_⟩, ⟨fun hmax hlast => ?_, fun hlast => ?_⟩,
    hnext⟩
  · have hlt : lastVersion.toNat < t.nextVersion.toNat :=
      UInt32.lt_iff_toNat_lt.mp (hall _ hlast)
    have hbelow := t.nextVersion.toNat_lt
    have htop : lastVersion.toNat + 1 = 2 ^ 32 := rfl
    omega
  · have hle := UInt32.le_iff_toNat_le.mp (le_latest hv)
    rw [UInt32.lt_iff_toNat_lt, allocateVersion, hnext hlast]
    omega
  · have hle := le_latest hlast
    rw [← hmax] at hle
    exact UInt32.not_lt.mpr hle t.maxVersion_lt_last
  · refine UInt32.toNat_inj.mp ?_
    rw [toNat_maxVersion, hnext hlast]
    exact Nat.add_sub_cancel _ _

/-- A version is handed out, a higher one observed, and both are exceeded. -/
theorem Run.increases_observed :
    ∃ t, Run [41, 1] t ∧ (∀ v ∈ [(41 : UInt32), 1], v < t.allocateVersion.1) ∧
      t.maxVersion = latest [41, 1] ∧ t.allocateVersion.1 = 42 := by
  have run : Run [41, 1] _ := (empty.next .allocate trivial).next (.observe 41) trivial
  obtain ⟨hbelow, hmax, _⟩ := increases run
  exact ⟨_, run, hbelow.mpr (by decide), hmax.mpr (by decide), by decide⟩

/-- **The last version is handed out.**  After it the versions begin anew, and none is known. -/
theorem Run.restarts :
    ∃ t, Run [lastVersion, lastVersion - 1] t ∧ t.allocateVersion.1 = 0 ∧ t.maxVersion = 0 := by
  have observed : Run [lastVersion - 1] (Toc.empty.observeVersion (lastVersion - 1)) :=
    Run.empty.next (.observe (lastVersion - 1)) trivial
  have allocated := observed.next .allocate trivial
  have hlast : (Toc.empty.observeVersion (lastVersion - 1)).allocateVersion.1 = lastVersion := by
    decide
  rw [Call.versions, hlast] at allocated
  exact ⟨_, allocated, by decide, by decide⟩

end Toc

end SlotStore
