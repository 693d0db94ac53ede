import Mathlib.Tactic.Common
import SlotStore.Lock

/-!
# What a lock knows of its parties

A lock keeps numbers, not parties.  Here the parties that hold it and those that wait for it are
counted from outside, and each step of one party is shown to change the lock as it changes these
counts.

* `Counts.Moves` : one party goes from one stage to another;
* `Lock.Matches` : the lock shows the counts, and an exclusive hold is the only hold;
* `Lock.Matches.arrive`, `.enter`, `.giveUp`, `.release` : the step of one party;
* `Lock.Matches.unique` : the counts determine the lock;
* `Lock.Within` : the lock shows no holds beyond the counts.
-/

namespace SlotStore

/-- How many parties there are of each mode. -/
abbrev Counts := LockMode → Nat

namespace Counts

/-- One party of a mode more. -/
def Adds (mode : LockMode) (fewer more : Counts) : Prop :=
  ∀ m, more m = fewer m + if m = mode then 1 else 0

lemma exists_fewer {mode : LockMode} {more : Counts} (h : more mode ≠ 0) :
    ∃ fewer, Adds mode fewer more := by
  refine ⟨fun m => more m - if m = mode then 1 else 0, fun m => ?_⟩
  by_cases hm : m = mode
  · subst hm
    simp only [if_true]
    omega
  · simp [hm]

variable {σ : Type} [DecidableEq σ] {mode : LockMode} {stage stage' t : σ} {stage? : Option σ}
  {before after : σ → Counts}

/-- One party goes from one stage to another, or away; the parties are counted at each stage. -/
def Moves (mode : LockMode) (stage : σ) (stage? : Option σ) (before after : σ → Counts) : Prop :=
  ∀ t m, after t m + (if stage = t ∧ m = mode then 1 else 0) =
    before t m + if stage? = some t ∧ m = mode then 1 else 0

namespace Moves

/-- A stage that the party neither leaves nor comes to keeps its counts. -/
lemma same (h : Moves mode stage stage? before after) (hleft : stage ≠ t)
    (hcame : stage? ≠ some t) : after t = before t := by
  funext m
  have := h t m
  simpa [hleft, hcame] using this

/-- The stage that the party leaves has one less. -/
lemma left (h : Moves mode stage stage? before after) (hcame : stage? ≠ some stage) :
    Adds mode (after stage) (before stage) := by
  intro m
  have := h stage m
  simpa [hcame] using this.symm

/-- The stage that it comes to has one more. -/
lemma came (h : Moves mode stage (some stage') before after) (hleft : stage ≠ stage') :
    Adds mode (before stage') (after stage') := by
  intro m
  have := h stage' m
  simpa [hleft] using this

end Moves

end Counts

namespace Lock

variable {l l' : Lock} {held held' waiting waiting' : Counts} {mode : LockMode}
  {cancelled expired : Bool} {result : WaitEnd}

/-- **A lock shows who holds it and who waits for it**, and an exclusive hold is the only hold. -/
structure Matches (l : Lock) (held waiting : Counts) : Prop where
  readers : l.readers = held .shared
  writer : l.writer = decide (0 < held .exclusive)
  waitingWriters : l.waitingWriters = waiting .exclusive
  apart : held .exclusive = 0 ∨ held .exclusive = 1 ∧ held .shared = 0

/-- Whoever enters was admitted by the lock. -/
lemma admits_of_look? (h : l.look? mode cancelled expired = some .entered) :
    l.admits mode = true := by
  unfold look? at h
  split at h
  · cases h
  · split at h
    · assumption
    · split at h <;> cases h

/-- **Whoever the lock admits enters**, even when the time is over. -/
lemma look?_of_admits (h : l.admits mode = true) :
    l.look? mode false expired = some .entered := by
  simp [look?, h]

lemma depart_shared (h : result ≠ .entered) : l.depart .shared result = l := by
  cases result <;> first | contradiction | rfl

lemma depart_exclusive (h : result ≠ .entered) :
    l.depart .exclusive result = { l with waitingWriters := l.waitingWriters - 1 } := by
  cases result <;> first | contradiction | rfl

namespace Matches

lemma free : Lock.free.Matches (fun _ => 0) (fun _ => 0) := ⟨rfl, rfl, rfl, .inl rfl⟩

/-- The counts determine the lock. -/
lemma unique (h : l.Matches held waiting) (h' : l'.Matches held waiting) : l = l' := by
  cases l
  cases l'
  simp only [Lock.mk.injEq]
  exact ⟨h.readers.trans h'.readers.symm, h.writer.trans h'.writer.symm,
    h.waitingWriters.trans h'.waitingWriters.symm⟩

/-- The lock determines who holds it. -/
lemma held_unique (h : l.Matches held waiting) (h' : l.Matches held' waiting') (m : LockMode) :
    held m = held' m := by
  have hw : decide (0 < held .exclusive) = decide (0 < held' .exclusive) :=
    h.writer.symm.trans h'.writer
  have hapart := h.apart
  have hapart' := h'.apart
  cases m with
  | shared => exact h.readers.symm.trans h'.readers
  | exclusive =>
    rw [decide_eq_decide] at hw
    omega

/-- Readers enter while nobody holds the lock exclusively or waits to do so. -/
lemma admits_shared (h : l.Matches held waiting) :
    l.admits .shared = true ↔ held .exclusive = 0 ∧ waiting .exclusive = 0 := by
  simp [admits, h.writer, h.waitingWriters]

/-- Writers enter while nobody holds the lock. -/
lemma admits_exclusive (h : l.Matches held waiting) :
    l.admits .exclusive = true ↔ held .exclusive = 0 ∧ held .shared = 0 := by
  simp [admits, h.writer, h.readers]

/-- Whoever is let in finds no exclusive hold, and no hold at all if it asks for one itself. -/
lemma of_admits (h : l.Matches held waiting) (ha : l.admits mode = true) :
    held .exclusive = 0 ∧ (mode = .exclusive → held .shared = 0) := by
  cases mode with
  | shared => exact ⟨(h.admits_shared.mp ha).1, nofun⟩
  | exclusive => exact ⟨(h.admits_exclusive.mp ha).1, fun _ => (h.admits_exclusive.mp ha).2⟩

lemma arrive (h : l.Matches held waiting) (hw : Counts.Adds mode waiting waiting') :
    (l.arrive mode).Matches held waiting' := by
  have hwait := hw .exclusive
  refine ⟨?_, ?_, ?_, h.apart⟩
  · cases mode <;> exact h.readers
  · cases mode <;> exact h.writer
  · cases mode with
    | shared => simpa [Lock.arrive, h.waitingWriters] using hwait.symm
    | exclusive => simp [Lock.arrive, h.waitingWriters, hwait]

lemma enter (h : l.Matches held waiting) (ha : l.admits mode = true)
    (hh : Counts.Adds mode held held') (hw : Counts.Adds mode waiting' waiting) :
    (l.depart mode .entered).Matches held' waiting' := by
  obtain ⟨halone, hempty⟩ := h.of_admits ha
  have hshared := hh .shared
  have hexclusive := hh .exclusive
  have hwait := hw .exclusive
  have hr := h.readers
  have hww := h.waitingWriters
  cases mode with
  | shared =>
    simp only [reduceCtorEq, if_false, if_true, Nat.add_zero] at hshared hexclusive hwait
    exact ⟨by simp [depart, hr, hshared], by simp [depart, h.writer, hexclusive],
      by simp [depart, hww, hwait], .inl (by omega)⟩
  | exclusive =>
    have hnone := hempty rfl
    simp only [reduceCtorEq, if_false, if_true, Nat.add_zero] at hshared hexclusive hwait
    exact ⟨by simp [depart, hr, hshared], by simp [depart, hexclusive],
      by simp [depart, hww, hwait], .inr (by omega)⟩

lemma giveUp (h : l.Matches held waiting) (hr : result ≠ .entered)
    (hw : Counts.Adds mode waiting' waiting) : (l.depart mode result).Matches held waiting' := by
  have hwait := hw .exclusive
  have hww := h.waitingWriters
  cases mode with
  | shared =>
    rw [depart_shared hr]
    exact ⟨h.readers, h.writer, by simpa [hww] using hwait, h.apart⟩
  | exclusive =>
    rw [depart_exclusive hr]
    exact ⟨h.readers, h.writer, by simp [hww, hwait], h.apart⟩

/-- Somebody who holds the lock can give it up. -/
lemma release (h : l.Matches held waiting) (hh : Counts.Adds mode held' held) :
    (l.release mode).1 = .ok () ∧ (l.release mode).2.Matches held' waiting := by
  have hshared := hh .shared
  have hexclusive := hh .exclusive
  have hr := h.readers
  have hwr := h.writer
  have hapart := h.apart
  cases mode with
  | shared =>
    simp only [reduceCtorEq, if_false, if_true, Nat.add_zero] at hshared hexclusive
    have hpos : l.readers ≠ 0 := by omega
    rw [Lock.release, if_neg hpos]
    exact ⟨rfl, by simp [hr, hshared], by simp [hwr, hexclusive], h.waitingWriters, by omega⟩
  | exclusive =>
    simp only [reduceCtorEq, if_false, if_true, Nat.add_zero] at hshared hexclusive
    have hpos : l.writer = true := by simp [hwr, hexclusive]
    rw [Lock.release, if_pos hpos]
    refine ⟨rfl, by simp [hr, hshared], ?_, h.waitingWriters, by omega⟩
    have : held' .exclusive = 0 := by omega
    simp [this]

/-- After a release for which nobody gave up a hold, the lock does not show who holds it. -/
lemma release_stolen (h : l.Matches held waiting) (hsome : held mode ≠ 0) :
    ¬ (l.release mode).2.Matches held waiting := by
  intro h'
  obtain ⟨fewer, hfewer⟩ := Counts.exists_fewer hsome
  have hsame := (h.release hfewer).2.held_unique h' mode
  have := hfewer mode
  simp only [if_true] at this
  omega

/-- Giving up a hold that nobody has changes nothing. -/
lemma release_none (h : l.Matches held waiting) (hn : held mode = 0) :
    (l.release mode).2 = l := by
  cases mode with
  | shared => rw [Lock.release, if_pos (h.readers.trans hn)]
  | exclusive =>
    have hfree : l.writer = false := by simp [h.writer, hn]
    simp [Lock.release, hfree]

end Matches

/-- **A lock shows no hold that nobody has.** -/
structure Within (l : Lock) (held waiting : Counts) : Prop where
  readers : l.readers ≤ held .shared
  writer : l.writer = true → 0 < held .exclusive
  waitingWriters : l.waitingWriters = waiting .exclusive

namespace Within

lemma free : Lock.free.Within (fun _ => 0) (fun _ => 0) := ⟨Nat.le_refl _, nofun, rfl⟩

lemma arrive (h : l.Within held waiting) (hw : Counts.Adds mode waiting waiting') :
    (l.arrive mode).Within held waiting' := by
  have hwait := hw .exclusive
  have hww := h.waitingWriters
  cases mode with
  | shared => exact ⟨h.readers, h.writer, by simpa [Lock.arrive, hww] using hwait.symm⟩
  | exclusive => exact ⟨h.readers, h.writer, by simp [Lock.arrive, hww, hwait]⟩

lemma enter (h : l.Within held waiting) (hh : Counts.Adds mode held held')
    (hw : Counts.Adds mode waiting' waiting) :
    (l.depart mode .entered).Within held' waiting' := by
  have hshared := hh .shared
  have hexclusive := hh .exclusive
  have hwait := hw .exclusive
  have hr := h.readers
  have hwr := h.writer
  have hww := h.waitingWriters
  cases mode with
  | shared =>
    simp only [reduceCtorEq, if_false, if_true, Nat.add_zero] at hshared hexclusive hwait
    exact ⟨by simp only [depart]; omega, by simpa [depart, hexclusive] using hwr,
      by simp [depart, hww, hwait]⟩
  | exclusive =>
    simp only [reduceCtorEq, if_false, if_true, Nat.add_zero] at hshared hexclusive hwait
    exact ⟨by simp only [depart]; omega, by simp [hexclusive], by simp [depart, hww, hwait]⟩

lemma giveUp (h : l.Within held waiting) (hr : result ≠ .entered)
    (hw : Counts.Adds mode waiting' waiting) : (l.depart mode result).Within held waiting' := by
  have hwait := hw .exclusive
  have hww := h.waitingWriters
  cases mode with
  | shared =>
    rw [depart_shared hr]
    exact ⟨h.readers, h.writer, by simpa [hww] using hwait⟩
  | exclusive =>
    rw [depart_exclusive hr]
    exact ⟨h.readers, h.writer, by simp [hww, hwait]⟩

/-- A release takes at most one hold of its mode away, and no other. -/
lemma release (h : l.Within held waiting)
    (hle : ∀ m, held m ≤ held' m + if m = mode then 1 else 0) :
    (l.release mode).2.Within held' waiting := by
  have hshared := hle .shared
  have hexclusive := hle .exclusive
  have hr := h.readers
  have hwr := h.writer
  cases mode with
  | shared =>
    simp only [reduceCtorEq, if_false, if_true, Nat.add_zero] at hshared hexclusive
    have hwriter : l.writer = true → 0 < held' .exclusive :=
      fun hw => Nat.lt_of_lt_of_le (hwr hw) hexclusive
    by_cases hnone : l.readers = 0
    · rw [Lock.release, if_pos hnone]
      exact ⟨hnone ▸ Nat.zero_le _, hwriter, h.waitingWriters⟩
    · rw [Lock.release, if_neg hnone]
      exact ⟨Nat.sub_le_of_le_add (Nat.le_trans hr hshared), hwriter, h.waitingWriters⟩
  | exclusive =>
    simp only [reduceCtorEq, if_false, if_true, Nat.add_zero] at hshared hexclusive
    by_cases hheld : l.writer = true
    · rw [Lock.release, if_pos hheld]
      exact ⟨Nat.le_trans hr hshared, nofun, h.waitingWriters⟩
    · rw [Lock.release, if_neg hheld]
      exact ⟨Nat.le_trans hr hshared, fun hw => absurd hw hheld, h.waitingWriters⟩

end Within

end Lock

end SlotStore
