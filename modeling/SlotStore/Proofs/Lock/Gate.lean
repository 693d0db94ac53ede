import Mathlib.Tactic.Common
import SlotStore.Lock.Waiting
import SlotStore.Proofs.Lock.Counts

/-!
# Guards at the gate

Any number of parties enter the gate and leave it, their steps in any order.  A party that entered
has a guard, and dropping the guard leaves the gate.  A guard is also made for an entry that timed
out; it is dropped at once, and that takes a hold of its mode away from somebody who has one.

* `Gate.Scene`, `Gate.Step` : the gate with its parties, and one step of one of them;
* `Gate.Scene.Matched` : the holds of the gate are those of the live guards;
* `Gate.Run.within` : after all steps whatever the gate never has more holds than guards;
* `Gate.Run.holds_are_guards` : the holds stay those of the guards as long as no guard of a
  timed-out entry is dropped while a guard of its mode is alive, and no longer.
-/

namespace SlotStore.Gate

/-- Where a party at the gate is. -/
inductive Stage
  /-- It found the gate open and is not yet in line. -/
  | admitted
  | waiting
  /-- It has a guard. -/
  | inside
  /-- Its time was over, and the guard that was made for it is not yet dropped. -/
  | late
deriving DecidableEq, Repr

/-- The gate and all parties there. -/
structure Scene where
  gate : Gate
  parties : List (LockMode × Stage)

/-- What happens at the gate. -/
inductive Event
  | come (mode : LockMode)
  | lineUp (mode : LockMode)
  /-- A wait ends. -/
  | finish (mode : LockMode) (result : WaitEnd)
  /-- The guard of an entry that timed out is dropped. -/
  | discard (mode : LockMode)
  /-- The guard of a party that entered is dropped. -/
  | drop (mode : LockMode)
  | close

/-- What becomes of a party when its wait ends. -/
def Stage.after? : WaitEnd → Option Stage
  | .entered => some .inside
  | .timedOut => some .late
  | .cancelled => none

/-- What one party does next, where that leaves the gate, and where the party is then, if it has not
gone.  Nothing is said about when a wait is cancelled or its time is over. -/
inductive Move (mode : LockMode) : Gate → Stage → Event → Gate → Option Stage → Prop
  | lineUp (g : Gate) :
    Move mode g .admitted (.lineUp mode) { g with lock := g.lock.arrive mode } (some .waiting)
  | finish (g : Gate) (cancelled expired : Bool) {result : WaitEnd}
    (hlook : g.look? mode cancelled expired = some result) :
    Move mode g .waiting (.finish mode result) { g with lock := g.lock.depart mode result }
      (Stage.after? result)
  | discard (g : Gate) : Move mode g .late (.discard mode) (g.leave mode) none
  | drop (g : Gate) : Move mode g .inside (.drop mode) (g.leave mode) none

/-- **One step at the gate.** -/
inductive Step : Scene → Event → Scene → Prop
  | come {g : Gate} {ps : List (LockMode × Stage)} (mode : LockMode) (hopen : g.closed = false) :
    Step ⟨g, ps⟩ (.come mode) ⟨g, (mode, .admitted) :: ps⟩
  | move {g g' : Gate} {mode : LockMode} {stage : Stage} {stage? : Option Stage} {e : Event}
    (before after : List (LockMode × Stage)) (hmove : Move mode g stage e g' stage?) :
    Step ⟨g, before ++ (mode, stage) :: after⟩ e
      ⟨g', before ++ (stage?.map fun s => (mode, s)).toList ++ after⟩
  | close {g : Gate} {ps : List (LockMode × Stage)} : Step ⟨g, ps⟩ .close ⟨g.close, ps⟩

/-- Scenes that are reached from an open gate without parties, by steps of some kind. -/
inductive Run (allowed : Scene → Event → Prop) : Scene → Prop
  | opened : Run allowed ⟨.opened, []⟩
  | step {s s' : Scene} {e : Event} (hrun : Run allowed s) (hstep : Step s e s')
    (hallowed : allowed s e) : Run allowed s'

/-! ## The steps are those of an entry -/

variable {g : Gate} {mode : LockMode}

/-- Coming to the gate and lining up is the arrival. -/
lemma arrive_eq (hopen : g.closed = false) :
    g.arrive mode = .ok { g with lock := g.lock.arrive mode } := by
  simp [arrive, hopen]

/-- Whoever comes to a closed gate is turned away. -/
lemma arrive_closed (hclosed : g.closed = true) : g.arrive mode = .error .closed := by
  simp [arrive, hclosed]

/-- Ending a wait without a guard is the departure. -/
lemma depart_eq {result : WaitEnd} (hr : result ≠ .timedOut) :
    g.depart mode result = { g with lock := g.lock.depart mode result } := by
  cases result <;> first | contradiction | rfl

/-- Running out of time and dropping the guard made for that is the departure. -/
lemma depart_timedOut :
    g.depart mode .timedOut = ({ g with lock := g.lock.depart mode .timedOut } : Gate).leave mode :=
  rfl

/-! ## Guards and holds -/

namespace Scene

variable {s s' : Scene} {e : Event}

/-- The parties at each stage, by mode. -/
def count (s : Scene) (stage : Stage) : Counts := fun mode => s.parties.count (mode, stage)

/-- The live guards, by mode. -/
def guards (s : Scene) : Counts := s.count .inside

/-- **The holds of the gate are those of the live guards**, and an exclusive guard is alone. -/
def Matched (s : Scene) : Prop := s.gate.lock.Matches s.guards (s.count .waiting)

/-- **The gate has no hold without a guard.** -/
def Within (s : Scene) : Prop := s.gate.lock.Within s.guards (s.count .waiting)

/-- No guard of an entry that timed out is dropped while a guard of its mode is alive. -/
def Harmless (s : Scene) : Event → Prop
  | .discard mode => s.guards mode = 0
  | _ => True

/-- A party that comes is counted neither among the guards nor among those that wait. -/
lemma count_come {g : Gate} {ps : List (LockMode × Stage)} {stage : Stage}
    (h : stage ≠ .admitted) :
    count ⟨g, (mode, .admitted) :: ps⟩ stage = count ⟨g, ps⟩ stage := by
  funext m
  simp [count, h.symm]

/-- Only the party that moves is counted elsewhere. -/
lemma count_move {g g' : Gate} {stage : Stage} {stage? : Option Stage}
    {before after : List (LockMode × Stage)} :
    Counts.Moves mode stage stage? (count ⟨g, before ++ (mode, stage) :: after⟩)
      (count ⟨g', before ++ (stage?.map fun s => (mode, s)).toList ++ after⟩) := by
  intro t m
  cases stage? <;>
    simp only [count, List.count_append, List.count_cons, beq_iff_eq, Prod.mk.injEq,
      Option.map_none, Option.map_some, Option.toList_none, Option.toList_some, List.count_nil,
      Option.some.injEq, reduceCtorEq, false_and, if_false] <;>
    grind

end Scene

variable {s s' : Scene} {e : Event} {allowed : Scene → Event → Prop} {g' : Gate} {stage : Stage}
  {stage? : Option Stage} {before after : Stage → Counts}

/-! ## More guards than holds -/

lemma Move.within (h : g.lock.Within (before .inside) (before .waiting))
    (hmove : Move mode g stage e g' stage?) (hc : Counts.Moves mode stage stage? before after) :
    g'.lock.Within (after .inside) (after .waiting) := by
  cases hmove with
  | lineUp =>
    rw [hc.same (by decide) (by decide)]
    exact h.arrive (hc.came (by decide))
  | finish cancelled expired hlook =>
    rename_i result
    cases result with
    | entered => exact h.enter (hc.came (by decide)) (hc.left (by decide))
    | timedOut =>
      rw [hc.same (t := .inside) (by decide) (by decide)]
      exact h.giveUp (by decide) (hc.left (by decide))
    | cancelled =>
      rw [hc.same (t := .inside) (by decide) (by decide)]
      exact h.giveUp (by decide) (hc.left (by decide))
  | discard =>
    rw [hc.same (t := .inside) (by decide) (by decide),
      hc.same (t := .waiting) (by decide) (by decide)]
    exact h.release fun m => Nat.le_add_right _ _
  | drop =>
    rw [hc.same (t := .waiting) (by decide) (by decide)]
    exact h.release fun m => Nat.le_of_eq (hc.left (by decide) m)

/-- A step leaves no hold without a guard. -/
lemma Step.within (h : s.Within) (hstep : Step s e s') : s'.Within := by
  cases hstep with
  | come mode _ =>
    rw [Scene.Within, Scene.guards, Scene.count_come (by decide), Scene.count_come (by decide)]
    exact h
  | move before after hmove => exact hmove.within h Scene.count_move
  | close => exact h

/-- **The gate never has more holds than guards**, whatever the parties do: without a live guard it
is free. -/
theorem Run.within (h : Run allowed s) : s.Within := by
  induction h with
  | opened => exact Lock.Within.free
  | step _ hstep _ ih => exact hstep.within ih

/-! ## As many holds as guards -/

/-- **A move keeps holds and guards in step** exactly if it does not let go of the hold of somebody
else. -/
lemma Move.matched_iff (h : g.lock.Matches (before .inside) (before .waiting))
    (hmove : Move mode g stage e g' stage?) (hc : Counts.Moves mode stage stage? before after) :
    g'.lock.Matches (after .inside) (after .waiting) ↔
      (e = .discard mode → before .inside mode = 0) := by
  cases hmove with
  | lineUp =>
    rw [hc.same (t := .inside) (by decide) (by decide)]
    exact iff_of_true (h.arrive (hc.came (by decide))) nofun
  | finish cancelled expired hlook =>
    rename_i result
    refine iff_of_true ?_ nofun
    cases result with
    | entered =>
      exact h.enter (Lock.admits_of_look? hlook) (hc.came (by decide)) (hc.left (by decide))
    | timedOut =>
      rw [hc.same (t := .inside) (by decide) (by decide)]
      exact h.giveUp (by decide) (hc.left (by decide))
    | cancelled =>
      rw [hc.same (t := .inside) (by decide) (by decide)]
      exact h.giveUp (by decide) (hc.left (by decide))
  | discard =>
    rw [hc.same (t := .inside) (by decide) (by decide),
      hc.same (t := .waiting) (by decide) (by decide)]
    refine ⟨fun h' _ => ?_, fun hn => ?_⟩
    · by_contra hsome
      exact h.release_stolen hsome h'
    · simpa [leave, h.release_none (hn rfl)] using h
  | drop =>
    rw [hc.same (t := .waiting) (by decide) (by decide)]
    exact iff_of_true (h.release (hc.left (by decide))).2 nofun

/-- **The holds stay those of the guards exactly in the steps that discard no guard of an entry that
timed out while a guard of its mode is alive.** -/
lemma Step.matched_iff (h : s.Matched) (hstep : Step s e s') : s'.Matched ↔ s.Harmless e := by
  cases hstep with
  | come mode _ =>
    rw [Scene.Matched, Scene.guards, Scene.count_come (by decide), Scene.count_come (by decide)]
    exact iff_of_true h trivial
  | move before after hmove =>
    refine (hmove.matched_iff h Scene.count_move).trans ?_
    cases hmove with
    | discard => exact ⟨fun hn => hn rfl, fun hn _ => hn⟩
    | _ => exact iff_of_true nofun trivial
  | close => exact iff_of_true h trivial

/-- In a harmless run the holds are those of the guards. -/
theorem Run.matched (h : Run Scene.Harmless s) : s.Matched := by
  induction h with
  | opened => exact Lock.Matches.free
  | step _ hstep hharmless ih => exact (hstep.matched_iff ih).mpr hharmless

/-- An entry is granted only while no exclusive guard is alive, and an exclusive one only while no
guard is alive. -/
lemma Step.of_entered (h : s.Matched) (hstep : Step s (.finish mode .entered) s') :
    s.guards .exclusive = 0 ∧ (mode = .exclusive → s.guards .shared = 0) := by
  cases hstep with
  | move before after hmove =>
    cases hmove with
    | finish _ _ hlook => exact h.of_admits (Lock.admits_of_look? hlook)

/-- An entry that is not granted leaves the holds as they were when its wait ends. -/
lemma Step.of_not_entered {result : WaitEnd} (hr : result ≠ .entered)
    (hstep : Step s (.finish mode result) s') :
    s'.gate.lock.readers = s.gate.lock.readers ∧ s'.gate.lock.writer = s.gate.lock.writer := by
  cases hstep with
  | move before after hmove =>
    cases hmove with
    | finish _ _ hlook =>
      cases mode with
      | shared => simp [Lock.depart_shared hr]
      | exclusive => simp [Lock.depart_exclusive hr]

/-- A guard that is discarded while no guard of its mode is alive takes nothing away. -/
lemma Step.of_discard (h : s.Matched) (hstep : Step s (.discard mode) s')
    (hharmless : s.Harmless (.discard mode)) : s'.gate = s.gate := by
  cases hstep with
  | move before after hmove =>
    cases hmove with
    | discard => simp [leave, h.release_none hharmless]

/-! ## Entries that do not wait -/

/-- Whoever does not wait makes the steps of an entry one after another. -/
lemma Run.attempt {ps : List (LockMode × Stage)} (h : Run (fun _ _ => True) ⟨g, ps⟩) (k : Key)
    (cancelled : Bool) {result : WaitEnd}
    (hattempt : Door.gate.attempt k mode cancelled g = (.ok result, g')) :
    Run (fun _ _ => True)
      ⟨g', (if result = .entered then [(mode, .inside)] else []) ++ ps⟩ := by
  by_cases hopen : g.closed = false
  · have hcome := h.step (.come mode hopen) trivial
    have hline := hcome.step (.move [] ps (.lineUp g)) trivial
    simp only [Door.attempt, Door.gate, arrive_eq hopen, Prod.mk.injEq, Except.ok.injEq] at hattempt
    obtain ⟨hresult, hdepart⟩ := hattempt
    rw [hresult] at hdepart
    have hlook : look? mode cancelled true { g with lock := g.lock.arrive mode } = some result := by
      rw [← hresult]
      unfold look? Lock.look?
      split
      · rfl
      · split <;> rfl
    have hfinish := hline.step (.move [] ps (.finish _ cancelled true hlook)) trivial
    cases result with
    | entered =>
      rw [depart_eq (by decide)] at hdepart
      exact hdepart ▸ hfinish
    | cancelled =>
      rw [depart_eq (by decide)] at hdepart
      exact hdepart ▸ hfinish
    | timedOut =>
      rw [depart_timedOut] at hdepart
      exact hdepart ▸ hfinish.step (.move [] ps (.discard _)) trivial
  · have hclosed : g.closed = true := by simpa using hopen
    simp [Door.attempt, Door.gate, arrive_closed hclosed] at hattempt

/-! ## The holds of the gate and its guards -/

/-- **The gate's holds are those of the live guards as long as no guard of an entry that timed out
is dropped while a guard of its mode is alive, and no longer.**  Until then no entry is granted
while an exclusive guard is alive and no exclusive entry while any guard is alive, and an entry that
is not granted leaves the holds of others as they were. -/
theorem Run.holds_are_guards (h : Run Scene.Harmless s) :
    s.Matched ∧ ∀ e s', Step s e s' →
      (s'.Matched ↔ s.Harmless e) ∧
      (∀ mode, e = .finish mode .entered →
        s.guards .exclusive = 0 ∧ (mode = .exclusive → s.guards .shared = 0)) ∧
      (∀ mode result, e = .finish mode result → result ≠ .entered →
        s'.gate.lock.readers = s.gate.lock.readers ∧
        s'.gate.lock.writer = s.gate.lock.writer) ∧
      (∀ mode, e = .discard mode → s.Harmless e → s'.gate = s.gate) := by
  have hm := h.matched
  refine ⟨hm, fun e s' hstep => ⟨hstep.matched_iff hm, ?_, ?_, ?_⟩⟩
  · rintro mode rfl
    exact hstep.of_entered hm
  · rintro mode result rfl hr
    exact hstep.of_not_entered hr
  · rintro mode rfl hharmless
    exact hstep.of_discard hm hharmless

/-- An exclusive guard is alive, and another exclusive entry has timed out. -/
def Scene.contested : Scene :=
  ⟨⟨⟨0, true, 0⟩, false⟩, [(.exclusive, .late), (.exclusive, .inside)]⟩

/-- One party is inside while another waits in vain. -/
lemma Run.contested : Run Scene.Harmless Scene.contested := by
  have hopened : Run Scene.Harmless ⟨.opened, []⟩ := .opened
  have hcome := hopened.step (.come .exclusive rfl) trivial
  have hline := hcome.step (.move [] [] (.lineUp _)) trivial
  have hentered : Gate.look? .exclusive false false ⟨Lock.free.arrive .exclusive, false⟩ =
      some .entered := rfl
  have henter := hline.step (.move [] [] (.finish _ _ _ hentered)) trivial
  have hcome' := henter.step (.come .exclusive rfl) trivial
  have hline' := hcome'.step (.move [] [(.exclusive, .inside)] (.lineUp _)) trivial
  have hexpired :
      Gate.look? .exclusive false true ⟨(⟨0, true, 0⟩ : Lock).arrive .exclusive, false⟩ =
      some .timedOut := rfl
  exact hline'.step (.move [] [(.exclusive, .inside)] (.finish _ _ _ hexpired)) trivial

theorem Run.holds_are_guards_contested :
    Run Scene.Harmless .contested ∧ Scene.contested.Matched ∧
      Step .contested (.discard .exclusive) ⟨.opened, [(.exclusive, .inside)]⟩ ∧
      ¬ Scene.Matched ⟨.opened, [(.exclusive, .inside)]⟩ := by
  have hstep : Step .contested (.discard .exclusive) ⟨.opened, [(.exclusive, .inside)]⟩ :=
    .move [] [(.exclusive, .inside)] (.discard _)
  obtain ⟨hmatched, hall⟩ := Run.contested.holds_are_guards
  refine ⟨Run.contested, hmatched, hstep, fun h => ?_⟩
  have hharmless : Scene.contested.guards .exclusive = 0 := (hall _ _ hstep).1.mp h
  exact absurd hharmless (by decide)

/-- **A shared entry is granted while an exclusive guard is alive**: one party entered exclusively,
another that wanted to timed out, and the drop of its guard gave the first one's hold away. -/
theorem Run.shared_beside_exclusive :
    (Door.gate.attempt .reserved .exclusive false .opened).1 = .ok .entered ∧
    (Door.gate.attempt .reserved .exclusive false ⟨⟨0, true, 0⟩, false⟩).1 = .ok .timedOut ∧
    Run (fun _ _ => True)
      ⟨⟨⟨1, false, 0⟩, false⟩, [(.shared, .inside), (.exclusive, .inside)]⟩ ∧
    ¬ Scene.Matched ⟨⟨⟨1, false, 0⟩, false⟩, [(.shared, .inside), (.exclusive, .inside)]⟩ := by
  have henters : Door.gate.attempt .reserved .exclusive false .opened =
      (.ok .entered, ⟨⟨0, true, 0⟩, false⟩) := rfl
  have htimesOut : Door.gate.attempt .reserved .exclusive false ⟨⟨0, true, 0⟩, false⟩ =
      (.ok .timedOut, .opened) := rfl
  have hjoins : Door.gate.attempt .reserved .shared false .opened =
      (.ok .entered, ⟨⟨1, false, 0⟩, false⟩) := rfl
  have hfirst := Run.opened.attempt _ _ henters
  have hsecond := hfirst.attempt _ _ htimesOut
  have hthird := hsecond.attempt _ _ hjoins
  refine ⟨rfl, rfl, hthird, fun h => ?_⟩
  have hwriter := h.writer
  exact absurd hwriter (by decide)

end SlotStore.Gate
