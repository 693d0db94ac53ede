import Mathlib.Tactic.Common
import SlotStore.Proofs.Store.Run
import SlotStore.Proofs.Volume.Tally

/-!
# Deleted keys

A file that a crash left may have two slots of one key in use.  Its table shows one of them, and a
delete marks that one unused; the other stays in use in the file, and a scan finds it once the
tombstone was given to another key.  A deleted key therefore stays away until the store is opened
again, and for good once it was deleted as often as it had slots in use.

* `Strewn` : a file of slots, whichever they are, that is scanned when it is opened;
* `RunOn` : runs of a store on a file that somebody left;
* `Store.Counted.perform` : one step, with the slots in use counted;
* `RunOn.stays_deleted` : when a deleted key stays away;
* `RunOn.deleted_returns` : a key that comes back.
-/

namespace SlotStore

open Steps Volume

variable {α : Type}

/-! ## Runs on a file -/

/-- **A file of slots without a table**, which a store has to scan.  Bytes at its end may hold no
whole slot. -/
structure Strewn (content : Content) (row : Row) (stop : Nat) : Prop where
  fills : Row.Fills content 0 row stop
  ragged : content.Ragged stop
  below : content.size < positionLimit
  bare : Bare content

/-- **A run of a store** on a file that somebody left.  The last event comes first, and each
operation is one that the rules of the run allow. -/
inductive RunOn (c : Coding α) (content : Content)
    (Allows : List (Event α) → Store → Operation α → Prop) : List (Event α) → Store → Prop
  | opened {config : Config} {shadow : RecordFile.ShadowNode} {s : Store}
    (h : Store.openFile config (.ok content) shadow = .ok s) : RunOn c content Allows [] s
  | next {h : List (Event α)} {s : Store} {op : Operation α} (run : RunOn c content Allows h s)
    (allowed : Allows h s op) :
    RunOn c content Allows (⟨op, (s.perform c op).1, s.draws c op⟩ :: h) (s.perform c op).2

/-- Operations on the whole file. -/
def Operation.isWhole : Operation α → Bool
  | .shrink => true
  | .checkpoint => true
  | _ => false

def Operation.isReopen : Operation α → Bool
  | .reopen _ => true
  | _ => false

/-- The rules of a run on a file of slots: entities are added under keys that no slot has had, and
the store is opened again by a scan only. -/
structure ScanRules (row : Row) (h : List (Event α)) (s : Store) (op : Operation α) : Prop where
  fresh : op.Fresh h
  unknown : ∀ k ∈ op.adds, ∀ p ∈ row, p.2.key ≠ k
  single : op.isWhole = false
  scanned : op.isReopen = true → ∀ s', s.close = .ok () s' → Bare s'.file.content

/-- Whether an operation that was answered so deleted a key. -/
def Operation.deletes (k : Key) : Operation α → Answer α → Bool
  | .delete j, .done => k = j
  | _, _ => false

/-- **How often a key was deleted.** -/
def deletions (k : Key) (h : List (Event α)) : Nat := h.countP fun e => e.op.deletes k e.answer

/-- Whether a key was deleted since the store was last opened. -/
def deletedSince (k : Key) : List (Event α) → Bool
  | [] => false
  | e :: h => e.op.deletes k e.answer || (!e.op.isReopen && deletedSince k h)

lemma Operation.Fresh.adds {h : List (Event α)} {op : Operation α} (hf : op.Fresh h) :
    ∀ j ∈ op.adds, j.isReserved = false ∧ j ∉ added h := by
  intro j hj
  cases op with
  | add k x =>
    obtain rfl := List.mem_singleton.mp hj
    exact hf
  | _ => cases hj

/-! ## One step -/

namespace Store

variable {c : Coding α} {s : Store} {limit : Key → Int} {gone : Key → Prop} {used : List Key}
  {k : Key}

/-- **A store between two operations**, open or closed, whose slots in use are counted. -/
inductive Counted (s : Store) (limit : Key → Int) (gone : Key → Prop) (used : List Key) : Prop
  | serves (idle : s.Idle) (tallied : s.volume.Tallied limit gone used)
  | parked (shut : s.Shut) (tallied : s.volume.Tallied limit gone used)

/-- Higher limits, fewer deletions and more known keys hold as well. -/
lemma Counted.mono (hc : s.Counted limit gone used) {limit' : Key → Int} {gone' : Key → Prop}
    {used' : List Key} (hlimit : ∀ k, limit k ≤ limit' k) (hgone : ∀ k, gone' k → gone k)
    (hused : ∀ k ∈ used, k ∈ used') : s.Counted limit' gone' used' := by
  cases hc with
  | serves hi ht => exact .serves hi (ht.mono hlimit hgone hused)
  | parked hs ht => exact .parked hs (ht.mono hlimit hgone hused)

/-- A store that is tallied finds its entities. -/
lemma poised_of_tallied (hi : s.Idle) (ht : s.volume.Tallied limit gone used) : s.Poised := by
  obtain ⟨row, shown, ht⟩ := ht
  refine ⟨hi, ht.loose.ready, ht.loose.signal, fun hr => ?_⟩
  refine Option.eq_none_iff_forall_ne_some.mpr fun e he => ?_
  have hkey := (ht.loose.described.entry he).1
  rw [hr] at hkey
  cases hkey

/-- **A key without slots in use has no entity**, and neither has one that is gone. -/
lemma live?_eq_none_of_tallied (ht : s.volume.Tallied limit gone used) (hk : limit k ≤ 0 ∨ gone k) :
    s.live? k = none := by
  refine Option.eq_none_iff_forall_ne_some.mpr fun e he => ?_
  obtain ⟨hentry, hlive⟩ := mem_live?.mp he
  rw [ht.not_live hk hentry] at hlive
  cases hlive

/-- What a step does to the bounds on the slots in use. -/
def stepLimit (limit : Key → Int) (op : Operation α) (a : Answer α) (k : Key) : Int :=
  limit k + op.adds.count k - (op.deletes k a).toNat

/-- What a step does to the keys that are gone. -/
def stepGone (gone : Key → Prop) (op : Operation α) (a : Answer α) (k : Key) : Prop :=
  op.deletes k a = true ∨ op.isReopen = false ∧ gone k

/-- **A step that deletes nothing** and leaves the counts as they were. -/
lemma Counted.keep (hc : s.Counted limit gone used) {op : Operation α} {a : Answer α}
    (hdeletes : ∀ k, op.deletes k a = false) :
    s.Counted (stepLimit limit op a) (stepGone gone op a) (op.adds ++ used) := by
  refine hc.mono (fun k => ?_) (fun k hk => ?_) fun k => List.mem_append_right _
  · rw [stepLimit, hdeletes]
    simp only [Bool.toNat_false]
    omega
  · rcases hk with hk | hk
    · rw [hdeletes] at hk
      cases hk
    · exact hk.2

section Step

variable {x : α}

lemma stepLimit_add (limit : Key → Int) (k j : Key) (x : α) (a : Answer α) :
    stepLimit limit (.add k x) a j = limit j + Row.once k j := by
  have hdeletes : (Operation.add k x).deletes j a = false := rfl
  rw [stepLimit, hdeletes, Operation.adds, List.count_singleton, Row.once]
  by_cases hj : j = k
  · rw [if_pos hj, if_pos (beq_iff_eq.mpr hj.symm)]
    exact Int.sub_zero _
  · rw [if_neg hj, if_neg fun h => hj (beq_iff_eq.mp h).symm]
    exact Int.sub_zero _

/-- **Adding** counts the new slot. -/
lemma Counted.perform_add (hi : s.Idle) (ht : s.volume.Tallied limit gone used)
    (hr : k.isReserved = false) (hfresh : k ∉ used) :
    (s.perform c (.add k x)).2.Counted (stepLimit limit (.add k x) (s.perform c (.add k x)).1)
      (stepGone gone (.add k x) (s.perform c (.add k x)).1) (k :: used) := by
  have hp := poised_of_tallied hi ht
  rw [perform]
  cases hx : c.encode x with
  | error err =>
    rw [tell_error (hp.add_refused hx)]
    exact (Counted.serves hi ht).keep fun _ => rfl
  | ok payload =>
    have hadd := hp.add_eq (k := k) hx
    rcases ht.enter hr hfresh payload with ⟨v, henter, hv⟩ | ⟨err, v, henter, hv⟩
    · rw [henter] at hadd
      rw [tell_ok hadd]
      refine (Counted.serves (hi.change v _) hv).mono (fun j => ?_) (fun j hj => ?_) fun _ => id
      · exact Int.le_of_eq (stepLimit_add limit k j x .done).symm
      · exact (hj.resolve_left Bool.false_ne_true).2
    · rw [henter] at hadd
      rw [tell_error hadd]
      exact (Counted.serves (hi.change v s.indexes) hv).keep fun _ => rfl

/-- **Updating** counts as many slots as before. -/
lemma Counted.perform_update (hi : s.Idle) (ht : s.volume.Tallied limit gone used) :
    (s.perform c (.update k x)).2.Counted (stepLimit limit (.update k x)
      (s.perform c (.update k x)).1) (stepGone gone (.update k x) (s.perform c (.update k x)).1)
        used := by
  have hp := poised_of_tallied hi ht
  rw [perform]
  cases he : s.live? k with
  | none =>
    rw [tell_error (hp.update_absent he)]
    exact (Counted.serves hi ht).keep fun _ => rfl
  | some e =>
    obtain ⟨hentry, hlive⟩ := mem_live?.mp he
    cases hx : c.encode x with
    | error err =>
      rw [tell_error (hp.update_refused he hx)]
      exact (Counted.serves hi ht).keep fun _ => rfl
    | ok payload =>
      have hupdate := hp.update_eq he hx
      obtain ⟨v, hexchange | ⟨err, hexchange⟩, hv⟩ := ht.exchange hentry hlive payload
      · rw [hexchange] at hupdate
        rw [tell_ok hupdate]
        exact (Counted.serves (hi.change v _) hv).keep fun _ => rfl
      · rw [hexchange] at hupdate
        rw [tell_error hupdate]
        exact (Counted.serves (hi.change v s.indexes) hv).keep fun _ => rfl

/-- **Deleting** counts one slot less. -/
lemma Counted.perform_delete (hi : s.Idle) (ht : s.volume.Tallied limit gone used) :
    (s.perform c (.delete k)).2.Counted (stepLimit limit (.delete k) (s.perform c (.delete k)).1)
      (stepGone gone (.delete k) (s.perform c (.delete k)).1) used := by
  have hp := poised_of_tallied hi ht
  rw [perform]
  cases he : s.live? k with
  | none =>
    rw [tell_error (hp.delete_absent he)]
    exact (Counted.serves hi ht).keep fun _ => rfl
  | some e =>
    obtain ⟨hentry, hlive⟩ := mem_live?.mp he
    have hdelete := hp.delete_eq he
    obtain ⟨v, hgive, hv⟩ := ht.giveUp hentry hlive
    rw [hgive] at hdelete
    rw [tell_ok hdelete]
    refine (Counted.serves (hi.change v _) hv).mono (fun j => ?_) (fun j hj => ?_) fun _ => id
    · have hdeletes : (Operation.delete (α := α) k).deletes j .done = decide (j = k) := rfl
      have honce : (decide (j = k)).toNat = Row.once k j := by
        rw [Row.once]
        by_cases hj : j = k
        · rw [if_pos hj, decide_eq_true hj, Bool.toNat_true]
        · rw [if_neg hj, decide_eq_false hj, Bool.toNat_false]
      rw [stepLimit, hdeletes, honce]
      exact Int.le_of_eq (by simp [Operation.adds])
    · rcases hj with hj | hj
      · exact Or.inl (of_decide_eq_true hj)
      · exact Or.inr hj.2

lemma perform_get_state (hp : s.Poised) : (s.perform c (.get k)).2 = s := by
  rw [perform]
  cases he : s.live? k with
  | none => rw [tell_ok (hp.get?_absent he)]
  | some e =>
    have hget := hp.get?_live (c := c) he
    split at hget
    · rw [tell_ok hget]
    · rw [tell_error hget]

/-- **A store is closed** without tail, or with one that is loaded again. -/
lemma Counted.close (hc : s.Counted limit gone used) :
    (∃ s', Store.close s = .ok () s' ∧ ¬ Bare s'.file.content) ∨
    ∃ s', (Store.close s = .ok () s' ∨ ∃ err, Store.close s = .error err s') ∧ s'.Shut ∧
      s'.volume.Tallied limit gone used := by
  cases hc with
  | parked hs ht => exact Or.inr ⟨s, Or.inl hs.close, hs, ht⟩
  | serves hi ht =>
    have hready : s.closing.waitReady = .ok () :=
      waitReady_of_succeeded (s := s.closing) (poised_of_tallied hi ht).signal
    rw [close_idle hi, flush, get_bind]
    by_cases hpersists : s.config.persistOnClose = true
    · rw [if_pos (show s.closing.config.persistOnClose = true from hpersists)]
      simp only [hready]
      rcases ht.persist with ⟨start, v, hpersist, hbare⟩ | ⟨err, v, hpersist, hv⟩
      · have hact : onVolume persist s.closing = .ok start { s.closing with volume := v } :=
          onVolume_ok hpersist
        rw [bind_of_ok hact]
        exact Or.inl ⟨_, rfl, hbare⟩
      · have hact : onVolume persist s.closing = .error err { s.closing with volume := v } :=
          onVolume_error hpersist
        rw [bind_of_error hact]
        exact Or.inr ⟨_, Or.inr ⟨err, rfl⟩, ⟨rfl, rfl⟩, hv⟩
    · rw [if_neg (show ¬ s.closing.config.persistOnClose = true from hpersists)]
      exact Or.inr ⟨_, Or.inl rfl, ⟨rfl, rfl⟩, ht⟩

/-- **A store is opened again by a scan**, and then no key is known to be gone. -/
lemma Counted.reopen (hc : s.Counted limit gone used) (config : Config)
    (hscan : ∀ s', s.close = .ok () s' → Bare s'.file.content) :
    (∃ s', Store.reopen config s = .ok () s' ∧ s'.Counted limit (fun _ => False) used) ∨
    ∃ err s', Store.reopen config s = .error err s' ∧ s'.Counted limit (fun _ => False) used := by
  -- A tail that was sealed would be loaded, and the rules of the run leave that out.
  rcases hc.close with ⟨s', hclose, hbare⟩ | ⟨s', hclose | ⟨err, hclose⟩, hshut, ht⟩
  · exact absurd (hscan s' hclose) hbare
  · rw [Store.reopen, bind_of_ok hclose, get_bind]
    cases hvalid : config.validate with
    | error err =>
      refine Or.inr ⟨err, s', by rw [openFile_invalid hvalid]; rfl, ?_⟩
      exact (Counted.parked hshut ht).mono (fun _ => Int.le_refl _) (fun _ h => h.elim) fun _ => id
    | ok =>
      have hbelow : s'.file.content.size < positionLimit := by
        obtain ⟨row, shown, ht⟩ := ht
        exact ht.loose.tiled.below
      obtain ⟨v, hrun, hsignal, hv⟩ := ht.rescan
      obtain ⟨t, hopen, hi, rfl⟩ :=
        openFile_scan hvalid hbelow (hscan s' hclose) hrun hsignal s'.shadow
      exact Or.inl ⟨t, by rw [hopen]; rfl, .serves hi hv⟩
  · refine Or.inr ⟨err, s', by rw [Store.reopen, bind_of_error hclose], ?_⟩
    exact (Counted.parked hshut ht).mono (fun _ => Int.le_refl _) (fun _ h => h.elim) fun _ => id

/-- **A store that is opened again** counts the slots of its file. -/
lemma Counted.perform_reopen (hc : s.Counted limit gone used) (config : Config)
    (hscan : ∀ s', s.close = .ok () s' → Bare s'.file.content) :
    (s.perform c (.reopen config)).2.Counted (stepLimit limit (.reopen config)
      (s.perform c (.reopen config)).1) (stepGone gone (.reopen config)
        (s.perform c (.reopen config)).1) used := by
  have hstep : ∀ (s' : Store) (a : Answer α), s'.Counted limit (fun _ => False) used →
      s'.Counted (stepLimit limit (.reopen config) a) (stepGone gone (.reopen config) a) used := by
    intro s' a hs'
    have hkeep : s'.Counted (stepLimit limit (.reopen config) a)
        (stepGone (fun _ => False) (.reopen config) a) used := hs'.keep fun _ => rfl
    refine hkeep.mono (fun _ => Int.le_refl _) (fun k hk => ?_) fun _ => id
    rcases hk with hk | hk
    · exact Or.inl hk
    · cases hk.1
  rw [perform]
  rcases hc.reopen config hscan with ⟨s', hreopen, hs'⟩ | ⟨err, s', hreopen, hs'⟩
  · rw [tell_ok hreopen]
    exact hstep s' _ hs'
  · rw [tell_error hreopen]
    exact hstep s' _ hs'

/-- **One step** keeps the count. -/
theorem Counted.perform (hc : s.Counted limit gone used) {op : Operation α}
    (hfresh : ∀ j ∈ op.adds, j.isReserved = false ∧ j ∉ used) (hsingle : op.isWhole = false)
    (hscan : op.isReopen = true → ∀ s', s.close = .ok () s' → Bare s'.file.content) :
    (s.perform c op).2.Counted (stepLimit limit op (s.perform c op).1)
      (stepGone gone op (s.perform c op).1) (op.adds ++ used) := by
  cases hc with
  | serves hi ht =>
    have hp := poised_of_tallied hi ht
    have hc := Counted.serves hi ht
    cases op with
    | add k x =>
      have hk := hfresh k List.mem_cons_self
      exact .perform_add hi ht hk.1 hk.2
    | update k x => exact .perform_update hi ht
    | delete k => exact .perform_delete hi ht
    | get k =>
      rw [perform_get_state hp]
      exact hc.keep fun _ => rfl
    | contains k =>
      rw [Store.perform, tell_ok hp.contains]
      exact hc.keep fun _ => rfl
    | size =>
      have hstate : (s.perform c .size).2 = s := by rw [Store.perform]; cases s.size <;> rfl
      rw [hstate]
      exact hc.keep fun _ => rfl
    | keys =>
      have hstate : (s.perform c .keys).2 = s := by rw [Store.perform]; cases s.keys <;> rfl
      rw [hstate]
      exact hc.keep fun _ => rfl
    | shrink => cases hsingle
    | checkpoint => cases hsingle
    | reopen config => exact hc.perform_reopen config (hscan rfl)
  | parked hs ht =>
    have hc := Counted.parked hs ht
    cases op with
    | reopen config => exact hc.perform_reopen config (hscan rfl)
    | delete k =>
      rw [Store.perform, tell_error hs.delete]
      exact hc.keep fun _ => rfl
    | _ =>
      rw [hs.perform fun _ h => by cases h]
      exact hc.keep fun _ => rfl

end Step

end Store

/-! ## The whole run -/

/-- How many slots a key can have in use after a run on a file. -/
def usesLeft (row : Row) (h : List (Event α)) (k : Key) : Int :=
  row.uses k + (added h).count k - deletions k h

section Runs

variable {c : Coding α} {content : Content} {row : Row} {stop : Nat} {h : List (Event α)}
  {s : Store} {k : Key}

/-- What an event leaves of the limits. -/
lemma usesLeft_cons (row : Row) (e : Event α) (h : List (Event α)) :
    usesLeft row (e :: h) = Store.stepLimit (usesLeft row h) e.op e.answer := by
  funext k
  have hadded : (added (e :: h)).count k = e.op.adds.count k + (added h).count k :=
    List.count_append
  have hdeletions : deletions k (e :: h) = deletions k h + (e.op.deletes k e.answer).toNat := by
    rw [deletions, List.countP_cons, deletions]
    cases e.op.deletes k e.answer <;> rfl
  rw [usesLeft, hadded, hdeletions, Store.stepLimit, usesLeft]
  omega

/-- What an event leaves of the deletions. -/
lemma deletedSince_cons (e : Event α) (h : List (Event α)) (k : Key) :
    deletedSince k (e :: h) = true ↔
      Store.stepGone (fun j => deletedSince j h = true) e.op e.answer k := by
  simp [deletedSince, Store.stepGone]

/-- **The slots in use are counted** in every run on a file of slots. -/
theorem RunOn.counted (hopen : Strewn content row stop)
    (run : RunOn c content (ScanRules row) h s) :
    s.Counted (usesLeft row h) (fun k => deletedSince k h = true)
      (added h ++ row.map fun p => p.2.key) := by
  induction run with
  | @opened config shadow s hs =>
    have hcount : ∀ k, (row.uses k : Int) ≤ usesLeft row ([] : List (Event α)) k := fun k => by
      simp [usesLeft, added, deletions]
    have hknown : row.Known (added ([] : List (Event α)) ++ row.map fun p => p.2.key) :=
      fun p hp _ => List.mem_map.mpr ⟨p, hp, rfl⟩
    cases hvalid : config.validate with
    | error err =>
      rw [Store.openFile_invalid hvalid] at hs
      cases hs
    | ok =>
      have hstop : stop < positionLimit := by
        have hbelow := hopen.below
        cases hopen.ragged <;> omega
      obtain ⟨v, hrun, hsignal, hv⟩ := tallied_scan hopen.fills hopen.ragged hstop hcount hknown
      obtain ⟨t, ht, hi, rfl⟩ :=
        Store.openFile_scan hvalid hopen.below hopen.bare hrun hsignal shadow
      cases hs.symm.trans ht
      exact (Store.Counted.serves hi hv).mono (fun _ => Int.le_refl _) (fun _ h => by cases h)
        fun _ => id
  | @next h s op run allowed ih =>
    -- A key is new if neither the run nor the file has had it.
    have hfresh : ∀ j ∈ op.adds, j.isReserved = false ∧
        j ∉ added h ++ row.map fun p => p.2.key := by
      intro j hj
      obtain ⟨hr, hadded⟩ := allowed.fresh.adds j hj
      refine ⟨hr, fun hm => (List.mem_append.mp hm).elim hadded fun hm => ?_⟩
      obtain ⟨p, hp, hkey⟩ := List.mem_map.mp hm
      exact allowed.unknown j hj p hp hkey
    rw [usesLeft_cons]
    refine (ih.perform hfresh allowed.single allowed.scanned).mono (fun _ => Int.le_refl _)
      (fun k hk => (deletedSince_cons _ h k).mp hk) fun k hk => ?_
    rwa [← List.append_assoc] at hk

/-- **A deleted key stays away** until the store is opened again, and for good once it was deleted
as often as it had slots in use. -/
theorem RunOn.stays_deleted (hopen : Strewn content row stop)
    (run : RunOn c content (ScanRules row) h s) (hopened : s.closed = false)
    (hk : row.uses k + (added h).count k ≤ deletions k h ∨ deletedSince k h = true) :
    (s.perform c (.get k)).1 = .entity none := by
  have hless : usesLeft row h k ≤ 0 ∨ deletedSince k h = true :=
    hk.imp_left fun hle => by rw [usesLeft]; omega
  cases run.counted hopen with
  | serves hi ht =>
    rw [Store.perform, Store.tell_ok ((Store.poised_of_tallied hi ht).get?_absent
      (Store.live?_eq_none_of_tallied ht hless))]
  | parked hs ht =>
    rw [hs.closed] at hopened
    cases hopened

end Runs

/-! ## A key that comes back -/

/-- A configuration under which a closed store leaves no table in its file. -/
def Config.scanning : Config := { Config.testing with persistOnClose := false }

namespace Crashed

/-- The slot that a key was moved from, and the slot it was moved to, both in use. -/
def row : Row := [(0, .ofPayload ⟨.sample, 1⟩ [7] 1), (37, .ofPayload ⟨.sample, 2⟩ [7, 8] 2)]

/-- What a crash left of an update. -/
def content : Content := .ofBytes
  ((Header.ofPayload ⟨.sample, 1⟩ [7] 1).encode ++ [7] ++
    ((Header.ofPayload ⟨.sample, 2⟩ [7, 8] 2).encode ++ [7, 8]))

/-- The store that is opened on that file. -/
def store : Store := ((Store.openFile .scanning (.ok content) .absent).toOption).getD .fresh

/-- The file is opened by a scan. -/
lemma openFile_content : Store.openFile .scanning (.ok content) .absent = .ok store := by
  have hok : (Store.openFile .scanning (.ok content) .absent).isOk = true := by decide +kernel
  rw [store]
  cases h : Store.openFile .scanning (.ok content) .absent with
  | ok s => rfl
  | error e =>
    rw [h] at hok
    cases hok

/-- A file without a footer presents no table. -/
lemma bare_of_footer {c : Content}
    (h : Footer.decode? (c.slice (c.size - Footer.size) Footer.size) = none) : Bare c :=
  fun start s hp => by cases h.symm.trans hp.footer

/-- Two slots have the same key. -/
lemma strewn : Strewn content row 75 where
  fills := by
    have hhead : content.HeaderAt 0 (.ofPayload ⟨.sample, 1⟩ [7] 1) := by
      have hslice : content.slice 0 Header.size =
          (Header.ofPayload ⟨.sample, 1⟩ [7] 1).encode := by decide +kernel
      rw [Content.HeaderAt, hslice]
      exact Header.spells_encode (by decide)
    have hnext : content.HeaderAt 37 (.ofPayload ⟨.sample, 2⟩ [7, 8] 2) := by
      have hslice : content.slice 37 Header.size =
          (Header.ofPayload ⟨.sample, 2⟩ [7, 8] 2).encode := by decide +kernel
      rw [Content.HeaderAt, hslice]
      exact Header.spells_encode (by decide)
    exact .cons hhead (.cons hnext (.nil 75))
  ragged := .none (by decide +kernel)
  below := by decide +kernel
  bare := bare_of_footer (by decide +kernel)

/-- A key that no slot has had. -/
def other : Key := ⟨List.replicate 16 0x22, by decide⟩

/-- A store that leaves a file without footer when it is closed. -/
def closesBare (s : Store) : Bool :=
  match s.close with
  | .ok _ s' => (Footer.decode? (s'.file.content.slice (s'.file.content.size - Footer.size)
      Footer.size)).isNone
  | .error _ _ => true

lemma scanned_of_closesBare {s s' : Store} (h : closesBare s = true)
    (hclose : s.close = .ok () s') : Bare s'.file.content := by
  rw [closesBare, hclose] at h
  exact bare_of_footer (Option.isNone_iff_eq_none.mp h)

variable {h : List (Event Bytes)} {s : Store}

lemma rules_delete : ScanRules row h s (.delete .sample) :=
  ⟨trivial, fun _ hk => (by cases hk), rfl, fun hop => by cases hop⟩

lemma rules_add (hother : other ∉ added h) : ScanRules row h s (.add other [9, 9]) :=
  ⟨⟨by decide, hother⟩, by decide, rfl, fun hop => by cases hop⟩

lemma rules_reopen (hclose : closesBare s = true) : ScanRules row h s (.reopen .scanning) :=
  ⟨trivial, fun _ hk => (by cases hk), rfl, fun _ _ => scanned_of_closesBare hclose⟩

/-- The store after the key was deleted, its tombstone was given to another key, and the file was
scanned again. -/
def returned : List (Event Bytes) × Store :=
  Store.advance .plain (.reopen .scanning) (Store.advance .plain (.add other [9, 9])
    (Store.advance .plain (.delete .sample) ([], store)))

/-- The same once more, with nothing added in between. -/
def away : List (Event Bytes) × Store :=
  Store.advance .plain (.reopen .scanning) (Store.advance .plain (.delete .sample) returned)

/-- The deleted entity is back. -/
lemma run_returned : RunOn .plain content (ScanRules row) returned.1 returned.2 := by
  have opened : RunOn .plain content (ScanRules row) [] store := .opened openFile_content
  have taken := (opened.next rules_delete).next (rules_add (by decide +kernel))
  exact taken.next (rules_reopen (by decide +kernel))

/-- The deleted entity stays away. -/
lemma run_away : RunOn .plain content (ScanRules row) away.1 away.2 :=
  (run_returned.next rules_delete).next (rules_reopen (by decide +kernel))

end Crashed

/-- **A deleted key may come back**: its tombstone is given to another key, and the next scan finds
the older slot that was left in use.  Deleted a second time it stays away. -/
theorem RunOn.deleted_returns : ∃ content row stop h s, Strewn content row stop ∧
    (∀ p ∈ row, ∀ q ∈ row, p.2.key = q.2.key → p.2.version = q.2.version → p = q) ∧
    RunOn .plain content (ScanRules row) h s ∧ s.closed = false ∧ deletions .sample h = 1 ∧
    (s.perform .plain (.get .sample)).1 = .entity (some [7]) :=
  ⟨_, _, _, _, _, Crashed.strewn, by decide, Crashed.run_returned, by decide +kernel,
    by decide +kernel, by rfl⟩

/-- A key with two slots in use that was deleted twice. -/
theorem RunOn.stays_deleted_twice : ∃ content row stop h s, Strewn content row stop ∧
    row.uses .sample = 2 ∧ RunOn .plain content (ScanRules row) h s ∧ s.closed = false ∧
    deletedSince .sample h = false ∧ (s.perform .plain (.get .sample)).1 = .entity none :=
  ⟨_, _, _, _, _, Crashed.strewn, by decide, Crashed.run_away, by decide +kernel, by decide +kernel,
    Crashed.run_away.stays_deleted Crashed.strewn (by decide +kernel) (Or.inl (by decide +kernel))⟩

end SlotStore
