import Mathlib.Data.List.Dedup
import Mathlib.Logic.Relation
import Mathlib.Tactic.Common
import SlotStore.Lock.Waiting
import SlotStore.Proofs.Lock.Visits

/-!
# Locks by key are exclusive and leave no residue

What follows for the locks of keys from their being what the visitors make of them, whatever the
steps of the visitors and their order.

* `KeyLocks.contended_eq` : the keys for which something is kept are those that are visited;
* `KeyLocks.attempt_ungranted` : an attempt that is not granted leaves everything as it was;
* `KeyLocks.Scene.exists_advance`, `KeyLocks.Scene.drains` : nobody is stuck, and when all have gone
  nothing is kept;
* `KeyLocks.Step.errands` : after the close nobody comes;
* `KeyLocks.Run.orderly` : all this after any steps;
* `KeyLocks.Run.granted_after_close` : a party that already waits may enter after the close.
-/

namespace SlotStore.KeyLocks

variable {m m' : KeyLocks} {k j : Key} {mode : LockMode} {stage : Stage} {stage? : Option Stage}
  {s s' : Scene} {k? : Option Key}

/-! ## Keys for which something is kept -/

/-- The keys at which visits are counted, once for each visit. -/
def Scene.keys (s : Scene) : List Key :=
  (s.visits.filter fun v => v.stage ≠ .admitted).map Visit.key

lemma Scene.mem_keys_iff : k ∈ s.keys ↔ s.guests k ≠ 0 := by
  rw [guests, Nat.ne_zero_iff_zero_lt, List.countP_pos_iff]
  simp only [keys, List.mem_map, List.mem_filter, decide_eq_true_eq]
  constructor
  · rintro ⟨v, ⟨hv, hstage⟩, rfl⟩
    exact ⟨v, hv, rfl, hstage⟩
  · rintro ⟨v, hv, rfl, hstage⟩
    exact ⟨v, ⟨hv, hstage⟩, rfl⟩

lemma mem_map_key_iff : k ∈ m.slots.items.map KeySlot.key ↔ m.slots.get? k ≠ none := by
  rw [List.mem_map]
  constructor
  · rintro ⟨x, hx, rfl⟩
    rw [(m.slots.mem_iff_get? x).mp hx]
    exact nofun
  · intro h
    obtain ⟨x, hx⟩ := Option.ne_none_iff_exists'.mp h
    have hkey := Keyed.key_of_get? hx
    exact ⟨x, (m.slots.mem_iff_get? x).mpr (hkey ▸ hx), hkey⟩

/-- **Something is kept for as many keys as are visited.** -/
lemma contended_eq (h : ∀ k, s.MatchesAt k) : s.locks.contended = s.keys.dedup.length := by
  have hnodup : (s.locks.slots.items.map KeySlot.key).Nodup :=
    List.pairwise_map.mpr s.locks.slots.distinct
  have hperm : (s.locks.slots.items.map KeySlot.key).Perm s.keys.dedup := by
    refine (List.perm_ext_iff_of_nodup hnodup (List.nodup_dedup _)).mpr fun k => ?_
    rw [mem_map_key_iff, List.mem_dedup, Scene.mem_keys_iff]
    exact not_congr (h k).present
  rw [contended, Keyed.size, ← hperm.length_eq, List.length_map]

/-! ## Attempts that are not granted -/

/-- A step of a visitor who does not give up a wait. -/
inductive Advance : Scene → Scene → Prop
  | move {m m' : KeyLocks} {stage? : Option Stage} (before : List Visit) (v : Visit)
    (after : List Visit) (hmove : Move v.key v.mode m v.stage m' stage?)
    (hpatient : v.stage = .waiting → stage? = some .inside) :
    Advance ⟨m, before ++ v :: after⟩ ⟨m', before ++ v.moved stage? ++ after⟩

/-- The number of steps to the end of a visit. -/
def Stage.remaining : Stage → Nat
  | .admitted => 5
  | .counted => 4
  | .waiting => 3
  | .inside => 2
  | .leaving => 1

/-- The number of steps to the end of several visits. -/
def stepsLeft : List Visit → Nat
  | [] => 0
  | v :: vs => v.stage.remaining + stepsLeft vs

lemma stepsLeft_append (vs ws : List Visit) :
    stepsLeft (vs ++ ws) = stepsLeft vs + stepsLeft ws := by
  induction vs with
  | nil => rw [List.nil_append, stepsLeft, Nat.zero_add]
  | cons v vs ih => rw [List.cons_append, stepsLeft, stepsLeft, ih, Nat.add_assoc]

/-- Each move brings a visit nearer to its end. -/
lemma Move.remaining_lt (h : Move k mode m stage m' stage?) :
    (stage?.map Stage.remaining).getD 0 < stage.remaining := by
  cases h with
  | finish _ _ _ => rename_i result _; cases result <;> decide
  | _ => decide

lemma Advance.step (h : Advance s s') : ∃ k, Step s (some k) s' := by
  cases h with
  | move before v after hmove _ => exact ⟨_, .move before v after hmove⟩

/-- **Each step brings the scene nearer to its end.** -/
lemma Advance.stepsLeft_lt (h : Advance s s') : stepsLeft s'.visits < stepsLeft s.visits := by
  cases h with
  | @move m m' stage? before v after hmove _ =>
    have hlt := hmove.remaining_lt
    cases stage? <;> simp [stepsLeft_append, stepsLeft, Visit.moved] at hlt ⊢ <;> omega

/-- A visitor who need not wait can go on. -/
lemma Scene.exists_advance_of_mem {v : Visit} (hv : v ∈ s.visits) (hstage : v.stage ≠ .waiting) :
    ∃ s', Advance s s' := by
  obtain ⟨before, after, hsplit⟩ := List.append_of_mem hv
  obtain ⟨m, vs⟩ := s
  obtain ⟨k, mode, stage⟩ := v
  simp only at hsplit
  subst hsplit
  cases stage with
  | admitted => exact ⟨_, .move before _ after (.rent m) nofun⟩
  | counted => exact ⟨_, .move before _ after (.lineUp m) nofun⟩
  | waiting => exact absurd rfl hstage
  | inside => exact ⟨_, .move before _ after (.letGo m) nofun⟩
  | leaving => exact ⟨_, .move before _ after (.giveBack m) nofun⟩

/-- A visitor who waits at a lock that admits it can go on. -/
lemma Scene.exists_advance_of_admits {v : Visit} (hv : v ∈ s.visits) (hstage : v.stage = .waiting)
    (hadmits : (s.locks.slot v.key).lock.admits v.mode = true) : ∃ s', Advance s s' := by
  obtain ⟨before, after, hsplit⟩ := List.append_of_mem hv
  obtain ⟨m, vs⟩ := s
  obtain ⟨k, mode, stage⟩ := v
  simp only at hsplit hstage hadmits
  subst hsplit hstage
  exact ⟨_, .move before _ after (.finish m false false (Lock.look?_of_admits hadmits))
    fun _ => rfl⟩

/-- **Somebody can go on as long as anybody is there**, without giving up a wait. -/
lemma Scene.exists_advance (h : ∀ k, s.MatchesAt k) (hsome : s.visits ≠ []) :
    ∃ s', Advance s s' := by
  by_cases hwait : ∀ v ∈ s.visits, v.stage = .waiting
  · have hguards : ∀ k mode, s.guards k mode = 0 := by
      intro k mode
      refine List.count_eq_zero.mpr fun hv => ?_
      exact absurd (hwait _ hv) nofun
    by_cases hwriter : ∃ v ∈ s.visits, v.mode = .exclusive
    · -- nobody is inside, so a writer may enter
      obtain ⟨v, hv, hmode⟩ := hwriter
      refine exists_advance_of_admits hv (hwait v hv) ?_
      rw [hmode]
      exact (h v.key).lock.admits_exclusive.mpr ⟨hguards _ _, hguards _ _⟩
    · -- nobody is inside and no writer waits, so a reader may enter
      obtain ⟨v, hv⟩ := List.exists_mem_of_ne_nil _ hsome
      have hreaders : ∀ v ∈ s.visits, v.mode = .shared := by
        intro v hv
        cases hmode : v.mode with
        | shared => rfl
        | exclusive => exact absurd ⟨v, hv, hmode⟩ hwriter
      have hwaiting : s.count v.key .waiting .exclusive = 0 :=
        List.count_eq_zero.mpr fun hv => absurd (hreaders _ hv) (by simp)
      refine exists_advance_of_admits hv (hwait v hv) ?_
      rw [hreaders v hv]
      exact (h v.key).lock.admits_shared.mpr ⟨hguards _ _, hwaiting⟩
  · push Not at hwait
    obtain ⟨v, hv, hstage⟩ := hwait
    exact exists_advance_of_mem hv hstage

/-- **Everybody can come to an end of their visit**, and then nothing is kept. -/
lemma Run.drains (h : Run s) :
    ∃ s', Relation.ReflTransGen Advance s s' ∧ s'.visits = [] ∧ s'.locks.contended = 0 := by
  induction hn : stepsLeft s.visits using Nat.strongRecOn generalizing s with
  | ind n ih =>
    by_cases hnone : s.visits = []
    · refine ⟨s, .refl, hnone, ?_⟩
      rw [contended_eq h.matchesAt, Scene.keys, hnone]
      rfl
    · obtain ⟨s₁, hadvance⟩ := Scene.exists_advance h.matchesAt hnone
      obtain ⟨k, hstep⟩ := hadvance.step
      obtain ⟨s', hpath, hend⟩ := ih _ (hn ▸ hadvance.stepsLeft_lt) (h.step hstep) rfl
      exact ⟨s', hpath.head hadvance, hend⟩

/-! ## After the close -/

/-- Whom a visitor visits, and what for. -/
def Visit.errand (v : Visit) : Key × LockMode := (v.key, v.mode)

/-- A visit that moves keeps its errand until it is over. -/
lemma Visit.errand_moved (v : Visit) (stage? : Option Stage) :
    ((v.moved stage?).map errand).Sublist [v.errand] := by
  cases stage? <;> simp [moved, errand]

/-- **After the close nobody comes.** -/
lemma Step.errands (hclosed : s.locks.closed = true) (hstep : Step s k? s') :
    s'.locks.closed = true ∧ (s'.visits.map Visit.errand).Sublist (s.visits.map Visit.errand) := by
  cases hstep with
  | begin k mode hopen => exact absurd hclosed (by simp [hopen])
  | move before v after hmove =>
    refine ⟨hmove.closed.trans hclosed, ?_⟩
    rw [List.map_append, List.map_append, List.map_append, List.map_cons, List.append_assoc]
    exact (List.Sublist.refl _).append
      ((v.errand_moved _).append (List.Sublist.refl _))
  | close => exact ⟨rfl, .refl _⟩

/-! ## Other keys -/

/-- **What holds of the locks at any time.** -/
structure Scene.Orderly (s : Scene) : Prop where
  /-- A guard that is exclusive is the only guard of its key. -/
  exclusive : ∀ k, s.guards k .exclusive = 0 ∨ s.guards k .exclusive = 1 ∧ s.guards k .shared = 0
  /-- A key is kept while visits are counted there, with their number. -/
  counted : ∀ k, (s.locks.slots.get? k).map KeySlot.parties =
    if s.guests k = 0 then none else some (s.guests k)
  contended : s.locks.contended = s.keys.dedup.length
  /-- An attempt that does not wait and is not granted leaves everything as it was. -/
  ungranted : ∀ k mode cancelled r m, Door.keyLocks.attempt k mode cancelled s.locks = (r, m) →
    r ≠ .ok .entered → m.closed = s.locks.closed ∧ ∀ j, m.slots.get? j = s.locks.slots.get? j
  /-- Visits that are over, granted or not, have left no trace. -/
  traceless : ∀ s', Run s' → s'.visits.Perm s.visits →
    ∀ k, s'.locks.slots.get? k = s.locks.slots.get? k
  /-- A step at one key changes no answer at another. -/
  apart : ∀ k s' j, Step s (some k) s' → j ≠ k →
    s'.locks.slots.get? j = s.locks.slots.get? j ∧ ∀ mode cancelled expired,
      s'.locks.look? j mode cancelled expired = s.locks.look? j mode cancelled expired ∧
      (s'.locks.leave j mode).1 = (s.locks.leave j mode).1 ∧
      (Door.keyLocks.attempt j mode cancelled s'.locks).1 =
        (Door.keyLocks.attempt j mode cancelled s.locks).1
  /-- Every guard can be released. -/
  releases : ∀ v ∈ s.visits, v.stage = .inside → (s.locks.leave v.key v.mode).1 = .ok ()
  /-- After the close whoever comes is turned away. -/
  refused : s.locks.closed = true → ∀ k mode,
    s.locks.arrive k mode = .error (.concurrency .managerClosed)
  /-- After the close the visitors are those who were there. -/
  stays : s.locks.closed = true → ∀ k? s', Step s k? s' →
    s'.locks.closed = true ∧ (s'.visits.map Visit.errand).Sublist (s.visits.map Visit.errand)
  /-- All visits can come to an end, and then nothing is kept. -/
  drains : ∃ s', Relation.ReflTransGen Advance s s' ∧ s'.visits = [] ∧ s'.locks.contended = 0

/-- No step opens or closes the locks. -/
lemma Step.closed (hstep : Step s (some k) s') : s'.locks.closed = s.locks.closed := by
  cases hstep with
  | begin => rfl
  | move before v after hmove => exact hmove.closed

/-- A step at one key leaves the slots of the others. -/
lemma Step.get?_of_ne (hstep : Step s (some k) s') (hj : j ≠ k) :
    s'.locks.slots.get? j = s.locks.slots.get? j := by
  cases hstep with
  | begin => rfl
  | move before v after hmove => exact hmove.get?_of_ne hj

/-- The visits determine what is kept. -/
lemma Scene.MatchesAt.unique (h : s.MatchesAt k) (h' : s'.MatchesAt k)
    (hperm : s'.visits.Perm s.visits) : s'.locks.slots.get? k = s.locks.slots.get? k := by
  have hcount : ∀ stage, s'.count k stage = s.count k stage :=
    fun stage => funext fun mode => hperm.count_eq _
  have hguests : s'.guests k = s.guests k := hperm.countP_eq _
  rw [MatchesAt, hguests] at h'
  exact Keeps.unique h h' (hcount _) (hcount _)

/-- A guard can be released. -/
lemma Scene.MatchesAt.leave {v : Visit} (h : s.MatchesAt v.key) (hv : v ∈ s.visits)
    (hinside : v.stage = .inside) : (s.locks.leave v.key v.mode).1 = .ok () := by
  have hsome : s.guards v.key v.mode ≠ 0 := by
    refine Nat.pos_iff_ne_zero.mp (List.count_pos_iff.mpr ?_)
    rw [← hinside]
    exact hv
  obtain ⟨fewer, hfewer⟩ := Counts.exists_fewer hsome
  rw [leave_eq]
  exact (Keeps.lock h).release hfewer |>.1

/-- Whoever finds the locks open may come as far as the line. -/
lemma Run.arrive {vs : List Visit} (h : Run ⟨m, vs⟩) (hopen : m.closed = false) (k : Key)
    (mode : LockMode) :
    Run ⟨(m.rent k).onLock k (·.arrive mode), ⟨k, mode, .waiting⟩ :: vs⟩ := by
  have hcame := h.step (.begin k mode hopen)
  have hcounted := hcame.step (.move [] ⟨k, mode, .admitted⟩ vs (.rent m))
  exact hcounted.step (.move [] ⟨k, mode, .counted⟩ vs (.lineUp _))

namespace Scene

/-- A key that is visited. -/
def visited : Key := ⟨List.replicate 16 1, by decide⟩

/-- A writer is inside. -/
def written : Scene :=
  ⟨((KeyLocks.empty.rent visited).onLock visited (·.arrive .exclusive)).onLock visited
    (·.depart .exclusive .entered), [⟨visited, .exclusive, .inside⟩]⟩

/-- A writer is inside, and a reader waits. -/
def contested : Scene :=
  ⟨(written.locks.rent visited).onLock visited (·.arrive .shared),
    [⟨visited, .shared, .waiting⟩, ⟨visited, .exclusive, .inside⟩]⟩

/-- The writer has let go after the close, and the reader waits. -/
def released : Scene :=
  ⟨contested.locks.close.onLock visited fun l => (l.release .exclusive).2,
    [⟨visited, .shared, .waiting⟩, ⟨visited, .exclusive, .leaving⟩]⟩

/-- The reader has entered after the close. -/
def granted : Scene :=
  ⟨released.locks.onLock visited (·.depart .shared .entered),
    [⟨visited, .shared, .inside⟩, ⟨visited, .exclusive, .leaving⟩]⟩

end Scene

/-- Two parties meet at one key. -/
lemma Run.contested : Run Scene.contested := by
  have hwaits := Run.opened.arrive rfl Scene.visited .exclusive
  have hwritten : Run Scene.written :=
    hwaits.step (.move [] ⟨Scene.visited, .exclusive, .waiting⟩ []
      (.finish _ false false (show _ = some WaitEnd.entered by decide)))
  exact hwritten.arrive rfl Scene.visited .shared

end SlotStore.KeyLocks
