import Mathlib.Tactic.Common
import SlotStore.Lock.KeyLocks
import SlotStore.Proofs.Lock.Counts

/-!
# Visits to the locks of keys

Any number of parties visit the locks of any keys, their steps in any order.  A visit is counted at
its key from soon after it begins until it is over; in between the party waits, enters or gives up,
and lets go of what it holds.

* `KeyLocks.Scene`, `KeyLocks.Move`, `KeyLocks.Step` : the locks with their visitors, what one
  visitor does next, and one step of anybody;
* `KeyLocks.arrive_eq`, `depart_eq`, `leave_eq` : these are the steps of a wait and of its end;
* `KeyLocks.Scene.MatchesAt` : what is kept for a key is what its visitors make of it;
* `KeyLocks.Run.matchesAt` : after all steps that holds of every key;
* `KeyLocks.Move.get?_of_ne` : a step at one key leaves the others as they are.
-/

namespace SlotStore.KeyLocks

/-- How far a visit has come. -/
inductive Stage
  /-- The locks were open when it began. -/
  | admitted
  /-- It is counted at its key, and not yet in line. -/
  | counted
  | waiting
  /-- It has a guard. -/
  | inside
  /-- It holds nothing and does not wait, and is still counted. -/
  | leaving
deriving DecidableEq, Repr

/-- A party's visit to the lock of a key. -/
structure Visit where
  key : Key
  mode : LockMode
  stage : Stage
deriving DecidableEq, Repr

/-- The locks and all visits that are not over. -/
structure Scene where
  locks : KeyLocks
  visits : List Visit

/-- One party more for a key. -/
def rent (k : Key) (m : KeyLocks) : KeyLocks :=
  let s := m.slot k
  { m with slots := m.slots.put { s with key := k, parties := s.parties + 1 } }

/-- Where a visit is when its wait has ended. -/
def Stage.after : WaitEnd → Stage
  | .entered => .inside
  | _ => .leaving

/-- What a visitor of a key does next, what that makes of the locks, and how far the visit is then,
if it is not over.  Nothing is said about when a wait is cancelled or its time is over. -/
inductive Move (k : Key) (mode : LockMode) : KeyLocks → Stage → KeyLocks → Option Stage → Prop
  | rent (m : KeyLocks) : Move k mode m .admitted (m.rent k) (some .counted)
  | lineUp (m : KeyLocks) :
    Move k mode m .counted (m.onLock k (·.arrive mode)) (some .waiting)
  | finish (m : KeyLocks) (cancelled expired : Bool) {result : WaitEnd}
    (hlook : m.look? k mode cancelled expired = some result) :
    Move k mode m .waiting (m.onLock k (·.depart mode result)) (some (Stage.after result))
  | letGo (m : KeyLocks) :
    Move k mode m .inside (m.onLock k fun l => (l.release mode).2) (some .leaving)
  | giveBack (m : KeyLocks) : Move k mode m .leaving (m.giveBack k) none

/-- The visits when one of them has come further or is over. -/
def Visit.moved (v : Visit) (stage? : Option Stage) : List Visit :=
  (stage?.map fun s => { v with stage := s }).toList

/-- **One step**, at a key or of all locks. -/
inductive Step : Scene → Option Key → Scene → Prop
  | begin {m : KeyLocks} {vs : List Visit} (k : Key) (mode : LockMode)
    (hopen : m.closed = false) : Step ⟨m, vs⟩ (some k) ⟨m, ⟨k, mode, .admitted⟩ :: vs⟩
  | move {m m' : KeyLocks} {stage? : Option Stage} (before : List Visit) (v : Visit)
    (after : List Visit) (hmove : Move v.key v.mode m v.stage m' stage?) :
    Step ⟨m, before ++ v :: after⟩ (some v.key) ⟨m', before ++ v.moved stage? ++ after⟩
  | close {m : KeyLocks} {vs : List Visit} : Step ⟨m, vs⟩ none ⟨m.close, vs⟩

/-- Scenes that are reached from locks that nobody visits. -/
inductive Run : Scene → Prop
  | opened : Run ⟨.empty, []⟩
  | step {s s' : Scene} {k? : Option Key} (hrun : Run s) (hstep : Step s k? s') : Run s'

/-! ## What is kept for a key -/

variable {m m' : KeyLocks} {k j : Key} {mode : LockMode} {stage : Stage} {stage? : Option Stage}
  {f : Lock → Lock} {result : WaitEnd}

lemma slot_of_get? {s : KeySlot} (h : m.slots.get? k = some s) : m.slot k = s := by
  rw [slot, h]
  rfl

/-- A key without a slot has a free lock and no parties. -/
lemma slot_of_none (h : m.slots.get? k = none) : m.slot k = ⟨k, 0, .free⟩ := by
  rw [slot, h]
  rfl

lemma slot_congr (h : m'.slots.get? k = m.slots.get? k) : m'.slot k = m.slot k := by
  rw [slot, slot, h]

/-- Renting a slot counts one party more. -/
lemma get?_rent : (m.rent k).slots.get? j =
    if j = k then some ⟨k, (m.slot k).parties + 1, (m.slot k).lock⟩ else m.slots.get? j := by
  simp [rent, Keyed.get?_put]

lemma get?_onLock : (m.onLock k f).slots.get? j =
    if j = k then some ⟨k, (m.slot k).parties, f (m.slot k).lock⟩ else m.slots.get? j := by
  simp [onLock, Keyed.get?_put]

/-- Giving a slot back counts one less, and the last party takes the slot away. -/
lemma get?_giveBack : (m.giveBack k).slots.get? j =
    if j = k then
      if (m.slot k).parties ≤ 1 then none
      else some ⟨k, (m.slot k).parties - 1, (m.slot k).lock⟩
    else m.slots.get? j := by
  unfold giveBack
  by_cases h : (m.slot k).parties ≤ 1
  · simp [h, Keyed.get?_erase]
  · simp [h, Keyed.get?_put]

/-- **A step at one key leaves what is kept for the others as it is.** -/
lemma Move.get?_of_ne (h : Move k mode m stage m' stage?) (hj : j ≠ k) :
    m'.slots.get? j = m.slots.get? j := by
  cases h with
  | rent => rw [get?_rent, if_neg hj]
  | lineUp => rw [get?_onLock, if_neg hj]
  | finish => rw [get?_onLock, if_neg hj]
  | letGo => rw [get?_onLock, if_neg hj]
  | giveBack => rw [get?_giveBack, if_neg hj]

/-- No move opens or closes the locks. -/
lemma Move.closed (h : Move k mode m stage m' stage?) : m'.closed = m.closed := by
  cases h with
  | giveBack =>
    by_cases hlast : (m.slot k).parties ≤ 1 <;> simp [KeyLocks.giveBack, hlast]
  | _ => rfl

/-! ## The steps are those of a wait and of its end -/

/-- Beginning, being counted and lining up is the arrival. -/
lemma arrive_eq (hopen : m.closed = false) (k : Key) (mode : LockMode) :
    ∃ m', m.arrive k mode = .ok m' ∧ m'.closed = m.closed ∧
      ∀ j, m'.slots.get? j = ((m.rent k).onLock k (·.arrive mode)).slots.get? j := by
  unfold arrive
  rw [if_neg (by simp [hopen])]
  refine ⟨_, rfl, rfl, fun j => ?_⟩
  have hslot : (m.rent k).slot k = ⟨k, (m.slot k).parties + 1, (m.slot k).lock⟩ :=
    slot_of_get? (by rw [get?_rent, if_pos rfl])
  rw [get?_onLock, hslot, get?_rent]
  by_cases hj : j = k
  · simp [Keyed.get?_put, hj]
  · simp [Keyed.get?_put, hj]

/-- After the close nobody arrives. -/
lemma arrive_closed (hclosed : m.closed = true) :
    m.arrive k mode = .error (.concurrency .managerClosed) := by
  simp [arrive, hclosed]

/-- Entering is one step, and giving up takes two. -/
lemma depart_eq : m.depart k mode result =
    if result = .entered then m.onLock k (·.depart mode result)
    else (m.onLock k (·.depart mode result)).giveBack k := by
  cases result <;> rfl

/-- Letting go and being counted no more is the end of a hold. -/
lemma leave_eq : m.leave k mode = (((m.slot k).lock.release mode).1,
    (m.onLock k fun l => (l.release mode).2).giveBack k) := rfl

/-! ## Counting the visits -/

namespace Scene

/-- The visits of a key at a stage, by mode. -/
def count (s : Scene) (k : Key) (stage : Stage) : Counts :=
  fun mode => s.visits.count ⟨k, mode, stage⟩

/-- The live guards of a key, by mode. -/
def guards (s : Scene) (k : Key) : Counts := s.count k .inside

/-- The number of visits that are counted at a key. -/
def guests (s : Scene) (k : Key) : Nat :=
  s.visits.countP fun v => v.key = k ∧ v.stage ≠ .admitted

variable {s : Scene} {v : Visit} {before after : List Visit}

/-- Only the visit that moves is counted elsewhere. -/
lemma count_move : Counts.Moves v.mode v.stage stage?
    (count ⟨m, before ++ v :: after⟩ v.key)
    (count ⟨m', before ++ v.moved stage? ++ after⟩ v.key) := by
  intro t n
  obtain ⟨k, mode, stage⟩ := v
  cases stage? <;>
    simp only [count, Visit.moved, List.count_append, List.count_cons, beq_iff_eq, Visit.mk.injEq,
      Option.map_none, Option.map_some, Option.toList_none, Option.toList_some, List.count_nil,
      Option.some.injEq, reduceCtorEq, false_and, true_and, if_false] <;>
    grind

/-- Keys elsewhere are counted as before. -/
lemma count_move_of_ne (hj : j ≠ v.key) :
    count ⟨m', before ++ v.moved stage? ++ after⟩ j = count ⟨m, before ++ v :: after⟩ j := by
  funext stage mode
  have hv : v ≠ ⟨j, mode, stage⟩ := fun h => hj (congrArg Visit.key h).symm
  cases stage? <;> simp [count, Visit.moved, hj.symm, hv]

/-- A visit is counted from its second stage to its end. -/
lemma guests_move : guests ⟨m', before ++ v.moved stage? ++ after⟩ j +
      (if v.key = j ∧ v.stage ≠ .admitted then 1 else 0) =
    guests ⟨m, before ++ v :: after⟩ j +
      if v.key = j ∧ stage?.any (· ≠ .admitted) then 1 else 0 := by
  cases stage? <;> simp [guests, Visit.moved, List.countP_cons] <;> omega

lemma count_le_guests (hs : stage ≠ .admitted) : s.count k stage mode ≤ s.guests k := by
  rw [count, guests, List.count]
  refine List.countP_mono_left fun v _ hv => ?_
  simp only [beq_iff_eq] at hv
  simp [hv, hs]

/-- A visit that begins is counted at no other stage. -/
lemma count_begin (hs : stage ≠ .admitted) :
    count ⟨m', ⟨k, mode, .admitted⟩ :: after⟩ j stage = count ⟨m, after⟩ j stage := by
  funext n
  simp [count, hs.symm]

/-- A visit that begins is not a guest yet. -/
lemma guests_begin :
    guests ⟨m', ⟨k, mode, .admitted⟩ :: after⟩ j = guests ⟨m, after⟩ j := by
  simp [guests]

end Scene

/-! ## What is kept for a key is what its visitors make of it -/

/-- **What is kept for a key**: something while visits are counted there, with their number and with
a lock that shows who holds it and who waits. -/
structure Keeps (m : KeyLocks) (k : Key) (guests : Nat) (count : Stage → Counts) : Prop where
  parties : (m.slot k).parties = guests
  lock : (m.slot k).lock.Matches (count .inside) (count .waiting)
  present : m.slots.get? k = none ↔ guests = 0

namespace Keeps

variable {n n' : Nat} {c c' : Stage → Counts}

/-- Nothing is kept for a key without guests. -/
lemma empty : Keeps .empty k 0 fun _ _ => 0 := ⟨rfl, Lock.Matches.free, iff_of_true rfl rfl⟩

lemma congr (h : m.Keeps k n c) (hget : m'.slots.get? k = m.slots.get? k)
    (hin : c' .inside = c .inside) (hwait : c' .waiting = c .waiting) : m'.Keeps k n c' := by
  refine ⟨?_, ?_, ?_⟩
  · rw [slot_congr hget]
    exact h.parties
  · rw [slot_congr hget, hin, hwait]
    exact h.lock
  · rw [hget]
    exact h.present

lemma of_get? {l : Lock} (hget : m.slots.get? k = some ⟨k, n, l⟩)
    (hl : l.Matches (c .inside) (c .waiting)) (hn : n ≠ 0) : m.Keeps k n c := by
  have hslot := slot_of_get? hget
  refine ⟨by rw [hslot], by rwa [hslot], ?_⟩
  rw [hget]
  exact iff_of_false nofun hn

/-- A lock is changed while somebody is counted. -/
lemma onLock (h : m.Keeps k n c) (hn : n ≠ 0)
    (hl : (f (m.slot k).lock).Matches (c' .inside) (c' .waiting)) :
    (m.onLock k f).Keeps k n c' :=
  of_get? (by rw [get?_onLock, if_pos rfl, h.parties]) hl hn

/-- The counts determine what is kept. -/
lemma unique (h : m.Keeps k n c) (h' : m'.Keeps k n c') (hin : c' .inside = c .inside)
    (hwait : c' .waiting = c .waiting) : m'.slots.get? k = m.slots.get? k := by
  by_cases hn : n = 0
  · rw [h.present.mpr hn, h'.present.mpr hn]
  · obtain ⟨s, hs⟩ := Option.ne_none_iff_exists'.mp (mt h.present.mp hn)
    obtain ⟨s', hs'⟩ := Option.ne_none_iff_exists'.mp (mt h'.present.mp hn)
    have hparties := h.parties.trans h'.parties.symm
    have hlock := h.lock.unique (hin ▸ hwait ▸ h'.lock)
    rw [slot_of_get? hs, slot_of_get? hs'] at hparties hlock
    have hkey : s.key = s'.key := (Keyed.key_of_get? hs).trans (Keyed.key_of_get? hs').symm
    rw [hs, hs']
    cases s
    cases s'
    simp_all

end Keeps

/-- **A visitor's step changes what is kept for its key as it changes the counts.** -/
lemma Move.keeps {n n' : Nat} {c c' : Stage → Counts} (h : m.Keeps k n c)
    (hmove : Move k mode m stage m' stage?) (hc : Counts.Moves mode stage stage? c c')
    (hn : n' + (if stage ≠ .admitted then 1 else 0) =
      n + if stage?.any (· ≠ .admitted) then 1 else 0)
    (hle : ∀ t, t ≠ .admitted → ∀ mode, c t mode ≤ n)
    (hle' : ∀ t, t ≠ .admitted → ∀ mode, c' t mode ≤ n') : m'.Keeps k n' c' := by
  cases hmove with
  | rent =>
    have hn' : n' = n + 1 := by simpa using hn
    subst hn'
    refine Keeps.of_get? (by rw [get?_rent, if_pos rfl, h.parties]) ?_ (Nat.succ_ne_zero _)
    rw [hc.same (by decide) (by decide), hc.same (by decide) (by decide)]
    exact h.lock
  | lineUp =>
    have hn' : n' = n := by simpa using hn
    have hpos : c .counted mode ≤ n := hle _ (by decide) _
    have hleft := hc.left (by decide) mode
    subst hn'
    refine h.onLock (by simp at hleft; omega) ?_
    rw [hc.same (t := .inside) (by decide) (by decide)]
    exact h.lock.arrive (hc.came (by decide))
  | finish cancelled expired hlook =>
    rename_i result
    have hn' : n' = n := by cases result <;> simpa [Stage.after] using hn
    have hpos : c .waiting mode ≤ n := hle _ (by decide) _
    have hleft := hc.left (by cases result <;> decide) mode
    subst hn'
    refine h.onLock (by simp at hleft; omega) ?_
    by_cases hr : result = .entered
    · subst hr
      exact h.lock.enter (Lock.admits_of_look? hlook) (hc.came (by decide)) (hc.left (by decide))
    · have hafter : Stage.after result = .leaving := by cases result <;> first | contradiction | rfl
      rw [hafter] at hc
      rw [hc.same (t := .inside) (by decide) (by decide)]
      exact h.lock.giveUp hr (hc.left (by decide))
  | letGo =>
    have hn' : n' = n := by simpa using hn
    have hpos : c .inside mode ≤ n := hle _ (by decide) _
    have hleft := hc.left (by decide) mode
    subst hn'
    refine h.onLock (by simp at hleft; omega) ?_
    rw [hc.same (t := .waiting) (by decide) (by decide)]
    exact (h.lock.release (hc.left (by decide))).2
  | giveBack =>
    have hn' : n' + 1 = n := by simpa using hn
    have hlock : (m.slot k).lock.Matches (c' .inside) (c' .waiting) := by
      rw [hc.same (t := .inside) (by decide) (by decide),
        hc.same (t := .waiting) (by decide) (by decide)]
      exact h.lock
    have hget := get?_giveBack (m := m) (k := k) (j := k)
    rw [if_pos rfl, h.parties] at hget
    by_cases hlast : n' = 0
    · -- the last one is gone: nobody holds the lock or waits for it, and none is kept
      have hnobody : ∀ t, t ≠ .admitted → c' t = fun _ => 0 := by
        intro t ht
        funext mode
        have := hle' t ht mode
        omega
      rw [if_pos (by omega)] at hget
      refine ⟨?_, ?_, iff_of_true hget hlast⟩
      · rw [slot_of_none hget, hlast]
      · rw [slot_of_none hget, hnobody _ (by decide), hnobody _ (by decide)]
        exact Lock.Matches.free
    · rw [if_neg (by omega), ← hn', Nat.add_sub_cancel] at hget
      exact Keeps.of_get? hget hlock hlast

/-- What is kept for a key is what its visitors make of it. -/
def Scene.MatchesAt (s : Scene) (k : Key) : Prop := s.locks.Keeps k (s.guests k) (s.count k)

variable {s s' : Scene} {k? : Option Key}

/-- **Each step keeps what is kept for a key.** -/
lemma Step.matchesAt (h : s.MatchesAt j) (hstep : Step s k? s') : s'.MatchesAt j := by
  cases hstep with
  | @begin m vs k mode _ =>
    rw [Scene.MatchesAt, Scene.guests_begin (m := m)]
    exact h.congr rfl (Scene.count_begin (by decide)) (Scene.count_begin (by decide))
  | @move m m' stage? before v after hmove =>
    have hguests := @Scene.guests_move m m' j stage? v before after
    by_cases hj : j = v.key
    · subst hj
      simp only [true_and] at hguests
      exact hmove.keeps h Scene.count_move hguests (fun t ht mode => Scene.count_le_guests ht)
        fun t ht mode => Scene.count_le_guests ht
    · have hcount : ∀ t, Scene.count ⟨m', before ++ v.moved stage? ++ after⟩ j t =
          Scene.count ⟨m, before ++ v :: after⟩ j t :=
        fun t => congrFun (Scene.count_move_of_ne hj) t
      have hne : v.key ≠ j := hj ∘ Eq.symm
      simp only [hne, false_and, if_false, Nat.add_zero] at hguests
      rw [Scene.MatchesAt, hguests]
      exact Keeps.congr h (hmove.get?_of_ne hj) (hcount _) (hcount _)
  | close => exact h.congr rfl rfl rfl

/-- **After all steps what is kept for every key is what its visitors make of it.** -/
theorem Run.matchesAt (h : Run s) (k : Key) : s.MatchesAt k := by
  induction h with
  | opened => exact Keeps.empty
  | step _ hstep ih => exact hstep.matchesAt ih

end SlotStore.KeyLocks
