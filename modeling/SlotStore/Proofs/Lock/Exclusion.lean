import Mathlib.Tactic.Common
import SlotStore.Lock.Waiting
import SlotStore.Proofs.Lock.Counts

/-!
# Exclusion and rollback

Any number of parties wait for one lock, their steps in any order: they arrive, end their wait by
entering, running out of time or being cancelled, and release holds, also holds that nobody has.
The numbers of the lock are told from what happened alone, and a wait that ended in vain does not
count.

* `Lock.Scene`, `Lock.Step`, `Lock.Run` : the lock with those who wait, one step, and many;
* `Lock.Balances` : one lock became the other by what was granted, released, begun and ended;
* `Lock.Run.excludes_and_rolls_back` : a writer is alone, the numbers balance, a waiting writer
  keeps readers out, and attempts and releases that fail leave no trace;
* `Lock.Hall.reaches_settle` and below it : whatever happens in a hall is such a run.
-/

namespace SlotStore.Lock

/-- What a party does. -/
inductive Event
  | arrive (mode : LockMode)
  /-- A wait ends; the party found its token cancelled or not, and its time over or not. -/
  | finish (mode : LockMode) (cancelled expired : Bool) (result : WaitEnd)
  /-- Somebody gives up a hold, or tries to. -/
  | release (mode : LockMode) (result : Except Error Unit)

/-- A lock and the parties that wait for it. -/
structure Scene where
  lock : Lock
  waiting : List LockMode

/-- Nobody holds the lock and nobody waits for it. -/
def Scene.start : Scene := ⟨.free, []⟩

/-- **One step of one party.**  A party looks whenever it likes, a token may be cancelled and a time
over at any moment, and anybody may release. -/
inductive Step : Scene → Event → Scene → Prop
  | arrive {l : Lock} {ws : List LockMode} (mode : LockMode) :
    Step ⟨l, ws⟩ (.arrive mode) ⟨l.arrive mode, ws ++ [mode]⟩
  | finish {l : Lock} {mode : LockMode} (before after : List LockMode) (cancelled expired : Bool)
    {result : WaitEnd} (hlook : l.look? mode cancelled expired = some result) :
    Step ⟨l, before ++ mode :: after⟩ (.finish mode cancelled expired result)
      ⟨l.depart mode result, before ++ after⟩
  | release {l : Lock} {ws : List LockMode} (mode : LockMode) :
    Step ⟨l, ws⟩ (.release mode (l.release mode).1) ⟨(l.release mode).2, ws⟩

/-- The steps that lead from one scene to another, the first of them first. -/
inductive Run (s : Scene) : List Event → Scene → Prop
  | nil : Run s [] s
  | snoc {es : List Event} {s' s'' : Scene} {e : Event} (hrun : Run s es s')
    (hstep : Step s' e s'') : Run s (es ++ [e]) s''

variable {s s' s'' : Scene} {e : Event} {es es' : List Event} {mode m : LockMode}
  {cancelled expired : Bool} {result : WaitEnd} {l l' l'' : Lock} {held waiting : Counts}

lemma Run.single (h : Step s e s') : Run s [e] s' := .snoc .nil h

lemma Run.trans (h : Run s es s') (h' : Run s' es' s'') : Run s (es ++ es') s'' := by
  induction h' with
  | nil => simpa using h
  | snoc _ hstep ih => simpa using ih.snoc hstep

/-! ## Locks in accord with their parties -/

/-- The fault of giving up a hold that nobody has. -/
def unmatched : LockMode → LockFault
  | .shared => .sharedRelease
  | .exclusive => .exclusiveRelease

/-- Nothing is released where nobody holds. -/
lemma Matches.release_fails_iff (h : l.Matches held waiting) :
    l.release mode = (.error (.concurrency (unmatched mode)), l) ↔ held mode = 0 := by
  cases mode with
  | shared =>
    by_cases hnone : l.readers = 0 <;> simp [Lock.release, unmatched, hnone, ← h.readers]
  | exclusive =>
    by_cases hnone : held .exclusive = 0 <;>
      simp [Lock.release, unmatched, h.writer, hnone, Nat.pos_iff_ne_zero]

/-- A writer is alone. -/
lemma Matches.alone (h : l.Matches held waiting) (hw : l.writer = true) :
    l.readers = 0 := by
  have hheld : 0 < held .exclusive := by simpa [h.writer] using hw
  rw [h.readers]
  rcases h.apart with hnone | ⟨_, hnone⟩ <;> omega

/-- The mark of a writer counts the exclusive holds. -/
lemma Matches.writer_toNat (h : l.Matches held waiting) :
    l.writer.toNat = held .exclusive := by
  rw [h.writer]
  rcases h.apart with hnone | ⟨hone, _⟩ <;> simp [*]

/-! ## What events count for -/

namespace Event

/-- The holds that are granted. -/
def granted : Event → Counts
  | .finish mode _ _ .entered, m => if m = mode then 1 else 0
  | _, _ => 0

/-- The holds that are given up. -/
def released : Event → Counts
  | .release mode (.ok _), m => if m = mode then 1 else 0
  | _, _ => 0

/-- The waits that begin. -/
def begun : Event → Counts
  | .arrive mode, m => if m = mode then 1 else 0
  | _, _ => 0

/-- The waits that end, whatever their outcome. -/
def ended : Event → Counts
  | .finish mode _ _ _, m => if m = mode then 1 else 0
  | _, _ => 0

lemma granted_in_vain (h : result ≠ .entered) :
    (finish mode cancelled expired result).granted m = 0 := by
  cases result <;> first | contradiction | rfl

@[simp] lemma granted_arrive : (arrive mode).granted m = 0 := rfl

end Event

/-- What some events count for together. -/
def total (f : Event → Counts) (es : List Event) : Counts :=
  fun m => es.foldr (fun e n => f e m + n) 0

@[simp] lemma total_nil (f : Event → Counts) : total f [] m = 0 := rfl

@[simp] lemma total_cons (f : Event → Counts) : total f (e :: es) m = f e m + total f es m := rfl

@[simp] lemma total_append (f : Event → Counts) :
    total f (es ++ es') m = total f es m + total f es' m := by
  induction es with
  | nil => simp
  | cons e es ih => simp [ih, Nat.add_assoc]

/-- How many parties of each mode wait. -/
def Scene.waits (s : Scene) : Counts := fun m => s.waiting.count m

/-! ## Holds and waits along a run -/

/-- Whoever waits has begun and has not ended. -/
lemma Step.waits (h : Step s e s') (m : LockMode) :
    s'.waits m + e.ended m = s.waits m + e.begun m := by
  cases h <;> simp only [Scene.waits, Event.ended, Event.begun, List.count_append,
    List.count_cons, List.count_nil, beq_iff_eq] <;> grind

/-- The holds of a lock change as an event says. -/
def Held (e : Event) (held held' : Counts) : Prop :=
  ∀ m, held' m + e.released m = held m + e.granted m

/-- **One step keeps the lock in accord with the holds and the waits.** -/
lemma Step.matches (hm : s.lock.Matches held s.waits) (h : Step s e s') :
    ∃ held', Held e held held' ∧ s'.lock.Matches held' s'.waits := by
  cases h with
  | arrive mode =>
    refine ⟨held, fun _ => rfl, hm.arrive fun m => ?_⟩
    simp only [Scene.waits, List.count_append, List.count_cons, List.count_nil, beq_iff_eq]
    grind
  | @finish l mode before after cancelled expired result hlook =>
    have hleft : Counts.Adds mode (Scene.waits ⟨l, before ++ after⟩)
        (Scene.waits ⟨l, before ++ mode :: after⟩) := by
      intro m
      simp only [Scene.waits, List.count_append, List.count_cons, beq_iff_eq]
      grind
    cases result with
    | entered =>
      refine ⟨fun m => held m + if m = mode then 1 else 0, fun _ => rfl, ?_⟩
      exact hm.enter (admits_of_look? hlook) (fun _ => rfl) hleft
    | timedOut => exact ⟨held, fun _ => rfl, hm.giveUp (by decide) hleft⟩
    | cancelled => exact ⟨held, fun _ => rfl, hm.giveUp (by decide) hleft⟩
  | @release l ws mode =>
    by_cases hnone : held mode = 0
    · have hfails : l.release mode = _ := hm.release_fails_iff.mpr hnone
      rw [hfails]
      exact ⟨held, fun _ => rfl, hm⟩
    · obtain ⟨fewer, hfewer⟩ := Counts.exists_fewer hnone
      obtain ⟨hok, hmatches⟩ := hm.release hfewer
      refine ⟨fewer, fun m => ?_, hmatches⟩
      simpa [hok, Event.released, Event.granted] using (hfewer m).symm

/-- Over a whole run, whoever waits has begun and has not ended. -/
lemma Run.waits (h : Run s es s') (m : LockMode) :
    s'.waits m + total Event.ended es m = s.waits m + total Event.begun es m := by
  induction h with
  | nil => rfl
  | snoc _ hstep ih =>
    have := hstep.waits m
    simp only [total_append, total_cons, total_nil]
    omega

/-- **Over a whole run the lock shows who holds it**: those that were granted it, less those that
released it. -/
lemma Run.matches (hm : s.lock.Matches held s.waits) (h : Run s es s') :
    ∃ held', (∀ m, held' m + total Event.released es m = held m + total Event.granted es m) ∧
      s'.lock.Matches held' s'.waits := by
  induction h with
  | nil => exact ⟨held, fun _ => rfl, hm⟩
  | snoc _ hstep ih =>
    obtain ⟨held₁, hheld₁, hm₁⟩ := ih
    obtain ⟨held₂, hheld₂, hm₂⟩ := hstep.matches hm₁
    refine ⟨held₂, fun m => ?_, hm₂⟩
    have h₁ := hheld₁ m
    have h₂ := hheld₂ m
    simp only [total_append, total_cons, total_nil]
    omega

/-! ## The balance -/

/-- **One lock became the other by these events**: it gained the holds that were granted and lost
those that were released, and shows the waits that began and did not end. -/
structure Balances (es : List Event) (l l' : Lock) : Prop where
  readers : l'.readers + total Event.released es .shared =
    l.readers + total Event.granted es .shared
  writer : l'.writer.toNat + total Event.released es .exclusive =
    l.writer.toNat + total Event.granted es .exclusive
  waitingWriters : l'.waitingWriters + total Event.ended es .exclusive =
    l.waitingWriters + total Event.begun es .exclusive

namespace Balances

/-- The events determine the lock. -/
lemma unique (h : Balances es l l') (h' : Balances es l l'') : l' = l'' := by
  have hr := h.readers
  have hr' := h'.readers
  have hw := h.writer
  have hw' := h'.writer
  have hww := h.waitingWriters
  have hww' := h'.waitingWriters
  obtain ⟨readers', writer', waiting'⟩ := l'
  obtain ⟨readers'', writer'', waiting''⟩ := l''
  simp only [Lock.mk.injEq] at *
  refine ⟨by omega, ?_, by omega⟩
  cases writer' <;> cases writer'' <;> simp_all

/-- Where nothing happened nothing changed. -/
lemma eq_of_nil (h : Balances [] l l') : l' = l := h.unique ⟨rfl, rfl, rfl⟩

end Balances

/-- A run between scenes whose lock is in accord with its parties balances. -/
lemma Run.balances (hm : s.lock.Matches held s.waits) (h : Run s es s') :
    Balances es s.lock s'.lock := by
  obtain ⟨held', hheld, hm'⟩ := h.matches hm
  have hwaits := h.waits .exclusive
  refine ⟨?_, ?_, ?_⟩
  · rw [hm.readers, hm'.readers, hheld]
  · rw [hm.writer_toNat, hm'.writer_toNat, hheld]
  · rw [hm.waitingWriters, hm'.waitingWriters, hwaits]

/-- **A wait that ended in vain does not count**: the lock is where the events between its beginning
and its end took it. -/
lemma Balances.of_in_vain (hr : result ≠ .entered)
    (h : Balances (.arrive mode :: es ++ [.finish mode cancelled expired result]) l l') :
    Balances es l l' := by
  have hreaders := h.readers
  have hwriter := h.writer
  have hwaiting := h.waitingWriters
  simp only [total_cons, total_append, total_nil, Event.granted_in_vain hr, Event.granted_arrive,
    Event.released, Event.begun, Event.ended] at hreaders hwriter hwaiting
  exact ⟨by omega, by omega, by omega⟩

/-! ## Attempts that do not wait -/

/-- An attempt that does not wait is a wait whose time is over. -/
lemma look?_of_attempt :
    (l.arrive mode).look? mode cancelled true = some (l.attempt mode cancelled).1 := by
  simp only [attempt, look?]
  split
  · rfl
  · split <;> rfl

/-- An attempt is an arrival and an end at once. -/
lemma Run.of_attempt (s : Scene) (mode : LockMode) (cancelled : Bool) :
    Run s [.arrive mode, .finish mode cancelled true (s.lock.attempt mode cancelled).1]
      ⟨(s.lock.attempt mode cancelled).2, s.waiting⟩ := by
  have harrive : Step s (.arrive mode) ⟨s.lock.arrive mode, s.waiting ++ [mode]⟩ := .arrive mode
  have hfinish := Step.finish s.waiting [] cancelled true
    (look?_of_attempt : (s.lock.arrive mode).look? mode cancelled true = _)
  rw [List.append_nil] at hfinish
  exact (Run.single harrive).snoc hfinish

/-- A cancelled attempt is not granted, and leaves the lock as it was. -/
lemma attempt_cancelled : l.attempt mode true = (.cancelled, l) := by
  cases mode <;> rfl

/-! ## Exclusion and rollback -/

/-- **What the lock owes its parties** after some events. -/
structure Scene.Accounts (es : List Event) (s : Scene) : Prop where
  /-- A writer is alone. -/
  alone : s.lock.writer = true → s.lock.readers = 0
  /-- The holds are those that were granted and not released. -/
  balances : Balances es .free s.lock
  waitingWriters : s.lock.waitingWriters = s.waiting.count .exclusive
  /-- While a writer waits no reader is let in, and nobody is let in beside a writer. -/
  granted : ∀ mode cancelled expired s', Step s (.finish mode cancelled expired .entered) s' →
    s.lock.writer = false ∧
    match mode with
    | .shared => .exclusive ∉ s.waiting
    | .exclusive => s.lock.readers = 0
  /-- A cancelled token ends a wait, also where the lock is free. -/
  cancelled : ∀ mode expired result s', Step s (.finish mode true expired result) s' →
    result = .cancelled
  cancels : ∀ mode expired, s.lock.look? mode true expired = some .cancelled ∧
    s.lock.attempt mode true = (.cancelled, s.lock)
  /-- An attempt in vain leaves the lock to what others did meanwhile. -/
  inVain : ∀ mode cancelled expired result es' s₁ s₂ s₃, Step s (.arrive mode) s₁ →
    Run s₁ es' s₂ → Step s₂ (.finish mode cancelled expired result) s₃ →
    result ≠ .entered → Balances es' s.lock s₃.lock
  attempt : ∀ mode cancelled result l, s.lock.attempt mode cancelled = (result, l) →
    result ≠ .entered → l = s.lock
  /-- A release fails where all holds of its mode are released, and then changes nothing. -/
  unmatched : ∀ mode, total Event.released es mode = total Event.granted es mode ↔
    s.lock.release mode = (.error (.concurrency (unmatched mode)), s.lock)

/-- A wait that ends well was let in. -/
lemma Step.of_entered (h : Step s (.finish mode cancelled expired .entered) s') :
    s.lock.admits mode = true := by
  cases h with
  | finish _ _ _ _ hlook => exact admits_of_look? hlook

/-- A wait that is cancelled ends as cancelled. -/
lemma Step.of_cancelled (h : Step s (.finish mode true expired result) s') :
    result = .cancelled := by
  cases h with
  | finish _ _ _ _ hlook => simpa [look?] using hlook.symm

/-- **A shared/exclusive lock excludes and rolls back.**  After the steps of any number of parties,
in any order, a writer is alone, the holds are those granted and not released, and the waiting
writers are those that began to wait and have not ended.  While one waits no reader is let in.  An
attempt that times out or is cancelled, and a release without a hold, leave the lock as if they had
not been; a cancelled token ends a wait even if the lock is free. -/
theorem Run.excludes_and_rolls_back (h : Run .start es s) : s.Accounts es := by
  have hfree : Scene.start.lock.Matches (fun _ => 0) Scene.start.waits := Matches.free
  obtain ⟨held, hheld, hm⟩ := h.matches hfree
  refine ⟨hm.alone, h.balances hfree, hm.waitingWriters, ?_, fun _ _ _ _ => Step.of_cancelled,
    fun _ _ => ⟨rfl, attempt_cancelled⟩, ?_, ?_, fun mode => ?_⟩
  · intro mode cancelled expired s' hstep
    have hadmits := hstep.of_entered
    cases mode with
    | shared =>
      simp only [admits, Bool.and_eq_true, Bool.not_eq_true', beq_iff_eq] at hadmits
      exact ⟨hadmits.1, List.count_eq_zero.mp (hm.waitingWriters.symm.trans hadmits.2)⟩
    | exclusive =>
      simpa only [admits, Bool.and_eq_true, Bool.not_eq_true', beq_iff_eq] using hadmits
  · intro mode cancelled expired result es' s₁ s₂ s₃ harrive hrun hfinish hr
    have hattempt : Run s (.arrive mode :: es' ++ [.finish mode cancelled expired result]) s₃ :=
      ((Run.single harrive).trans hrun).snoc hfinish
    exact (hattempt.balances hm).of_in_vain hr
  · intro mode cancelled result l hattempt hr
    have hrun := Run.of_attempt s mode cancelled
    rw [hattempt] at hrun
    exact ((hrun.balances hm).of_in_vain hr : Balances [] _ _).eq_of_nil
  · rw [hm.release_fails_iff]
    have := hheld mode
    omega

/-- A reader is inside, a writer waits, another reader came after it and its time was over, and
somebody tried to give up an exclusive hold. -/
def Scene.contested : Scene := ⟨⟨1, false, 1⟩, [.exclusive]⟩

/-- How it came to that. -/
def Event.contested : List Event :=
  [.arrive .shared, .finish .shared false false .entered, .arrive .exclusive, .arrive .shared,
    .finish .shared false true .timedOut,
    .release .exclusive (.error (.concurrency .exclusiveRelease))]

/-- A reader and a writer contend for the lock. -/
lemma Run.contested : Run .start Event.contested .contested := by
  have hreader := Run.single (.arrive .shared : Step .start _ _)
  have hinside := hreader.snoc (.finish [] [] false false rfl)
  have hwriter := hinside.snoc (.arrive .exclusive)
  have hlater := hwriter.snoc (.arrive .shared)
  have hover := hlater.snoc (.finish [.exclusive] [] false true rfl)
  exact hover.snoc (.release .exclusive)

/-- There the writer keeps out every reader that comes, and takes its turn after the first one has
left. -/
theorem Run.excludes_and_rolls_back_contested :
    Run .start Event.contested .contested ∧ Scene.contested.Accounts Event.contested ∧
      (∀ cancelled expired s, ¬ Step .contested (.finish .shared cancelled expired .entered) s) ∧
      Run .contested [.release .shared (.ok ()), .finish .exclusive false false .entered]
        ⟨⟨0, true, 0⟩, []⟩ := by
  have haccounts := Run.contested.excludes_and_rolls_back
  refine ⟨Run.contested, haccounts, fun cancelled expired s hstep => ?_, ?_⟩
  · exact (haccounts.granted _ _ _ _ hstep).2 (List.mem_singleton.mpr rfl)
  · have hleft := Run.single (.release .shared : Step Scene.contested _ _)
    exact hleft.snoc (.finish [] [] false false rfl)

end SlotStore.Lock

/-! ## Halls -/

namespace SlotStore.Hall

open Lock (Run Step)

variable {h : Hall Lock} {place : Lock} {p : Party} {ps parties : List Party}

/-- The modes of the parties that wait. -/
def modes (ps : List Party) : List LockMode :=
  (ps.filter fun p => p.outcome.isNone).map Party.mode

lemma modes_append (ps parties : List Party) :
    modes (ps ++ parties) = modes ps ++ modes parties := by
  simp [modes]

lemma modes_cons_waiting (hp : p.outcome = none) : modes (p :: ps) = p.mode :: modes ps := by
  simp [modes, hp]

lemma modes_cons_ended (hp : p.outcome ≠ none) : modes (p :: ps) = modes ps := by
  simp [modes, hp]

/-- A hall as those see it who wait. -/
def scene (h : Hall Lock) : Lock.Scene := ⟨h.place, modes h.parties⟩

/-- The steps of some parties lead from one hall to the other. -/
def Reaches (h h' : Hall Lock) : Prop := ∃ es, Run h.scene es h'.scene

namespace Reaches

variable {h' h'' : Hall Lock}

lemma of_scene (heq : h'.scene = h.scene) : Reaches h h' := ⟨[], heq ▸ .nil⟩

lemma of_step {e : Lock.Event} (hstep : Step h.scene e h'.scene) : Reaches h h' :=
  ⟨[e], .single hstep⟩

lemma trans (hr : Reaches h h') (hr' : Reaches h' h'') : Reaches h h'' := by
  obtain ⟨es, hrun⟩ := hr
  obtain ⟨es', hrun'⟩ := hr'
  exact ⟨es ++ es', hrun.trans hrun'⟩

end Reaches

/-- Ending the first wait that is over is a step of that party. -/
lemma step_of_settleFirst? (hs : h.settleFirst? Door.lock ps = some (place, parties))
    (before : List LockMode) :
    ∃ e, Step ⟨h.place, before ++ modes ps⟩ e ⟨place, before ++ modes parties⟩ := by
  induction ps generalizing before parties with
  | nil => cases hs
  | cons p ps ih =>
    simp only [settleFirst?] at hs
    cases hfinds : h.finds? Door.lock p with
    | some result =>
      rw [hfinds] at hs
      obtain ⟨rfl, rfl⟩ := by simpa using hs
      have hwaits : p.outcome = none := by
        cases hp : p.outcome with
        | none => rfl
        | some _ => simp [finds?, hp] at hfinds
      simp only [finds?, hwaits, Option.isSome_none] at hfinds
      rw [modes_cons_waiting hwaits, modes_cons_ended (by simp)]
      exact ⟨_, .finish before (modes ps) _ _ hfinds⟩
    | none =>
      rw [hfinds] at hs
      obtain ⟨⟨place', parties'⟩, hrest, heq⟩ := Option.map_eq_some_iff.mp hs
      obtain ⟨rfl, rfl⟩ := by simpa using heq
      by_cases hwaits : p.outcome = none
      · have hlater := ih hrest (before ++ [p.mode])
        simpa [modes_cons_waiting hwaits] using hlater
      · simpa [modes_cons_ended hwaits] using ih hrest before

/-- **A hall settles by steps of the lock.** -/
lemma reaches_settleWith (fuel : Nat) (h : Hall Lock) :
    Reaches h (h.settleWith Door.lock fuel) := by
  induction fuel generalizing h with
  | zero => exact .of_scene rfl
  | succ fuel ih =>
    simp only [settleWith]
    cases hs : h.settleFirst? Door.lock h.parties with
    | none => exact .of_scene rfl
    | some found =>
      obtain ⟨place, parties⟩ := found
      obtain ⟨e, hstep⟩ := step_of_settleFirst? hs []
      have hended : Reaches h { h with place, parties } := .of_step hstep
      exact hended.trans (ih _)

lemma reaches_settle (h : Hall Lock) : Reaches h (h.settle Door.lock) := reaches_settleWith _ h

/-- What those who wait do not see makes no difference to how the waits end. -/
lemma reaches_settle_of_scene {h' : Hall Lock} (heq : h'.scene = h.scene) :
    Reaches h (h'.settle Door.lock) :=
  (Reaches.of_scene heq).trans (reaches_settle h')

/-- Whoever arrives takes steps of the lock. -/
lemma reaches_arrive (name : String) (k : Key) (mode : LockMode) (token : Option String)
    (patience : Option Nat) : Reaches h (h.arrive Door.lock name k mode token patience) := by
  refine Reaches.trans (.of_step (e := .arrive mode) ?_) (reaches_settle _)
  simpa [scene, modes_append, modes] using Step.arrive mode

lemma reaches_release (k : Key) (mode : LockMode) :
    Reaches h (h.change Door.lock (Door.lock.leave k mode)).2 := by
  have hrelease : Step h.scene _ ⟨(h.place.release mode).2, modes h.parties⟩ := .release mode
  have hreleased : Reaches h { h with place := (h.place.release mode).2 } := .of_step hrelease
  exact hreleased.trans (reaches_settle _)

lemma reaches_cancel (token : String) : Reaches h (h.cancel Door.lock token) :=
  reaches_settle_of_scene rfl

lemma reaches_advance (time : Nat) : Reaches h (h.advance Door.lock time) := by
  have hclocks (times : List Nat) : ∀ h : Hall Lock, Reaches h (times.foldl
      (fun h t => { h with clock := max h.clock t }.settle Door.lock) h) := by
    induction times with
    | nil => exact fun h => .of_scene rfl
    | cons t times ih =>
      intro h
      have hfirst : Reaches h ({ h with clock := max h.clock t }.settle Door.lock) :=
        reaches_settle_of_scene rfl
      exact hfirst.trans (ih _)
  exact (hclocks _ h).trans (reaches_settle_of_scene rfl)

/-- A party that is told its outcome has ended its wait before. -/
lemma modes_eraseP {name : String} (hfound : (ps.find? fun q => q.name == name) = some p)
    (hp : p.outcome ≠ none) : modes (ps.eraseP fun q => q.name == name) = modes ps := by
  induction ps with
  | nil => rfl
  | cons q ps ih =>
    by_cases hname : (q.name == name) = true
    · obtain rfl : q = p := by simpa [hname] using hfound
      simp [hname, modes_cons_ended hp]
    · have hrest := ih (by simpa [hname] using hfound)
      by_cases hq : q.outcome = none
      · simp [hname, modes_cons_waiting hq, hrest]
      · simp [hname, modes_cons_ended hq, hrest]

/-- Waiting for a party takes steps of the lock. -/
lemma reaches_await (name : String) : Reaches h (h.await Door.lock name).2 := by
  unfold await
  extract_lets h'
  have hwaited : Reaches h h' := by
    subst h'
    split
    · exact reaches_advance _
    · exact .of_scene rfl
  refine hwaited.trans ?_
  split
  · rename_i p hfound
    split
    · rename_i r hp
      exact .of_scene (by simp [scene, modes_eraseP hfound (by simp [hp])])
    · exact .of_scene rfl
  · exact .of_scene rfl

/-- Whether guards are worth anything makes no difference to how waits end. -/
lemma settleWith_unguarded (fuel : Nat) (h : Hall Lock) :
    h.settleWith Door.lock.unguarded fuel = h.settleWith Door.lock fuel := by
  have hfirst (h : Hall Lock) (ps : List Party) :
      h.settleFirst? Door.lock.unguarded ps = h.settleFirst? Door.lock ps := by
    induction ps with
    | nil => rfl
    | cons p ps ih =>
      simp only [settleFirst?, ih]
      rfl
  induction fuel generalizing h with
  | zero => rfl
  | succ fuel ih => simp only [settleWith, hfirst, ih]

/-- A hold of a lock outlives its guard, so that giving the guard up is no step of anybody. -/
lemma reaches_letGo (name : String) : Reaches h (h.letGo Door.lock.unguarded name).2 := by
  unfold letGo
  split
  · exact .of_scene rfl
  · simp only [change, settle, settleWith_unguarded]
    have hscene : Hall.scene { h with guards := h.guards.filter fun g => g.name != name } =
        h.scene := rfl
    exact reaches_settle_of_scene hscene

lemma reaches_keep (name : String) (p : Party) :
    Reaches h (h.keep Door.lock.unguarded name p) :=
  (reaches_letGo name).trans (.of_scene rfl)

/-- **Halls of a lock**, by whatever happens in them. -/
inductive Visited : Hall Lock → Prop
  | opened : Visited (ofPlace .free)
  | arrive {h : Hall Lock} (hv : Visited h) (name : String) (k : Key) (mode : LockMode)
    (token : Option String) (patience : Option Nat) :
    Visited (h.arrive Door.lock name k mode token patience)
  | release {h : Hall Lock} (hv : Visited h) (k : Key) (mode : LockMode) :
    Visited (h.change Door.lock (Door.lock.leave k mode)).2
  | cancel {h : Hall Lock} (hv : Visited h) (token : String) : Visited (h.cancel Door.lock token)
  | advance {h : Hall Lock} (hv : Visited h) (time : Nat) : Visited (h.advance Door.lock time)
  | await {h : Hall Lock} (hv : Visited h) (name : String) : Visited (h.await Door.lock name).2
  | letGo {h : Hall Lock} (hv : Visited h) (name : String) :
    Visited (h.letGo Door.lock.unguarded name).2
  | keep {h : Hall Lock} (hv : Visited h) (name : String) (p : Party) :
    Visited (h.keep Door.lock.unguarded name p)

/-- **What happens in a hall is a run of its parties.** -/
theorem Visited.run (hv : Visited h) : ∃ es, Run .start es h.scene := by
  suffices hreaches : Reaches (ofPlace .free) h from hreaches
  induction hv with
  | opened => exact .of_scene rfl
  | arrive _ name k mode token patience ih =>
    exact ih.trans (reaches_arrive name k mode token patience)
  | release _ k mode ih => exact ih.trans (reaches_release k mode)
  | cancel _ token ih => exact ih.trans (reaches_cancel token)
  | advance _ time ih => exact ih.trans (reaches_advance time)
  | await _ name ih => exact ih.trans (reaches_await name)
  | letGo _ name ih => exact ih.trans (reaches_letGo name)
  | keep _ name p ih => exact ih.trans (reaches_keep name p)

end SlotStore.Hall
