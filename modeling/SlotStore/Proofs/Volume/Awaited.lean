import Mathlib.Tactic.Common
import SlotStore.Proofs.Volume.Rebuild
import SlotStore.Volume.Bench

/-!
# Waiting for a table

Whoever opens a file without a table of contents is given a table at once, and may wait for the task
that fills it.  The table itself keeps the duty to say how the task ended.  A task that runs fulfils
it; a task that is dropped leaves it with the table, which fulfils it only when nobody has the table
any more.

* `Toc.Due`, `Toc.Settled` : tables before and after their task has run;
* `Volume.settled_runRebuild` : a task that runs settles its table, well or not;
* `Bench.Move`, `Bench.played` : what happens while the table is kept;
* `Bench.Reached`, `Bench.Tidy` : benches that come about, and the tasks on them;
* `Bench.Waits`, `Bench.Rests` : the table on a bench whose task has yet to run, or is gone;
* `Bench.complete_iff_ran` : those who wait are told exactly if the task was run;
* `Bench.dropped_pending` : a task that is dropped.
-/

namespace SlotStore

namespace Toc

/-- A table whose task has not run. -/
structure Due (t : Toc) : Prop where
  signal : t.signal = .pending
  ready : t.ready = false

/-- A table whose task has run. -/
structure Settled (t : Toc) : Prop where
  complete : t.signal.isComplete = true
  succeeded : t.signal = .succeeded ↔ t.ready = true

variable {t t' : Toc}

lemma Due.congr (ht : t.Due) (hsignal : t'.signal = t.signal) (hready : t'.ready = t.ready) :
    t'.Due := ⟨hsignal.trans ht.signal, hready.trans ht.ready⟩

lemma Settled.congr (ht : t.Settled) (hsignal : t'.signal = t.signal)
    (hready : t'.ready = t.ready) : t'.Settled := by
  refine ⟨hsignal ▸ ht.complete, ?_⟩
  rw [hsignal, hready]
  exact ht.succeeded

/-- A table whose task has not run is neither ready nor told to be. -/
lemma Due.succeeded_iff (ht : t.Due) : t.signal = .succeeded ↔ t.ready = true := by
  rw [ht.signal, ht.ready]
  exact iff_of_false (fun h => nomatch h) (fun h => nomatch h)

/-- **A table is settled by an outcome.** -/
lemma Due.finish (ht : t.Due) (outcome : Except Error Unit) : (t.finish outcome).Settled := by
  have hsignal : (t.finish outcome).signal = .ofOutcome outcome := by
    rw [Toc.finish, ht.signal]
    rfl
  have hready : (t.finish outcome).ready = outcome.toBool := by
    rw [Toc.finish, ht.ready]
    rfl
  refine ⟨?_, ?_⟩
  · rw [hsignal]
    cases outcome <;> rfl
  · rw [hsignal, hready]
    cases outcome with
    | ok _ => exact iff_of_true rfl rfl
    | error e => exact iff_of_false (fun h => nomatch h) (fun h => nomatch h)

end Toc

namespace Volume

open Steps

/-- A rebuild leaves it to others to say that the table is ready. -/
lemma rebuild_fields (f : RecordFile) (limit : Nat) (t : Toc) :
    (final (Volume.rebuild limit ⟨f, t⟩)).toc.ready = t.ready ∧
      (final (Volume.rebuild limit ⟨f, t⟩)).toc.signal = t.signal := by
  obtain ⟨_, hready, hsignal⟩ := merged_fields (f.slots 0 limit).2 t
  rw [toc_rebuild]
  split <;> exact ⟨hready, hsignal⟩

/-- **A task that runs settles its table**, well or not, whatever the file is. -/
theorem settled_runRebuild (f : RecordFile) (limit : Nat) {t : Toc} (ht : t.Due) :
    (final (Volume.runRebuild limit ⟨f, t⟩)).toc.Settled := by
  obtain ⟨hready, hsignal⟩ := rebuild_fields f limit t
  cases h : Volume.rebuild limit ⟨f, t⟩ with
  | ok summary v =>
    rw [h] at hready hsignal
    rw [runRebuild_eq h]
    exact (ht.congr hsignal hready).finish _
  | error e v =>
    rw [h] at hready hsignal
    rw [runRebuild_eq_error h]
    exact (ht.congr hsignal hready).finish _

end Volume

namespace Bench

open Steps

variable {b : Bench} {n : Nat} {t : Toc} {e : Errand}

/-! ## What happens while the table is kept -/

/-- What happens on a bench on which the table stays. -/
inductive Move
  | setFile (f : RecordFile)
  | setContent (c : Content)
  | install (shadow : RecordFile.ShadowNode)
  | changeToc (change : Toc → Toc)
  | runAll
  | dropAll

namespace Move

/-- The bench afterwards. -/
def perform : Move → Bench → Bench
  | setFile f, b => b.setFile f
  | setContent c, b => b.setContent c
  | install shadow, b => (b.install shadow).2
  | changeToc change, b =>
    match b.toc? with
    | some t => b.setToc (change t)
    | none => b
  | runAll, b => b.runAll
  | dropAll, b => b.dropAll

/-- A change of the table leaves it to the task to say that the table is ready. -/
def Fair : Move → Prop
  | changeToc change => ∀ t, (change t).ready = t.ready ∧ (change t).signal = t.signal
  | _ => True

end Move

/-- The bench after some moves. -/
def played (b : Bench) (ms : List Move) : Bench := ms.foldl (fun b m => m.perform b) b

/-- Whether the tasks that wait are run before they are dropped. -/
def ran : List Move → Bool
  | [] => false
  | .runAll :: _ => true
  | .dropAll :: _ => false
  | _ :: ms => ran ms

/-- Whether the tasks that wait are run or dropped. -/
def gone : List Move → Bool
  | [] => false
  | .runAll :: _ => true
  | .dropAll :: _ => true
  | _ :: ms => gone ms

/-! ## Tables that nobody works on -/

/-- Whatever else changes, a table stays, on the bench or not. -/
structure Spares (n : Nat) (b b' : Bench) : Prop where
  tocNumber : b'.tocNumber = b.tocNumber
  latest : b'.latest = b.latest
  toc : b'.tocs[n]? = b.tocs[n]?
  tocs : b'.tocs.length = b.tocs.length
  errands : b'.errands = b.errands
  files : b'.files.length = b.files.length

lemma Spares.refl (n : Nat) (b : Bench) : Spares n b b := ⟨rfl, rfl, rfl, rfl, rfl, rfl⟩

lemma Spares.trans {b' b'' : Bench} (h : Spares n b b') (h' : Spares n b' b'') :
    Spares n b b'' where
  tocNumber := h'.tocNumber.trans h.tocNumber
  latest := h'.latest.trans h.latest
  toc := h'.toc.trans h.toc
  tocs := h'.tocs.trans h.tocs
  errands := h'.errands.trans h.errands
  files := h'.files.trans h.files

/-- What is done to a file spares the tables. -/
lemma spares_putFile (n k : Nat) (f : RecordFile) (b : Bench) : Spares n b (b.putFile k f) := by
  rw [putFile]
  split
  · exact .refl n b
  · exact ⟨rfl, rfl, rfl, rfl, rfl, List.length_set⟩

lemma spares_setFile (n : Nat) (f : RecordFile) (b : Bench) : Spares n b (b.setFile f) := by
  rw [setFile]
  split
  · exact .refl n b
  · exact spares_putFile n _ f b

/-- An install spares the tables. -/
lemma spares_install (n : Nat) (shadow : RecordFile.ShadowNode) (b : Bench) :
    Spares n b (b.install shadow).2 := by
  rw [install]
  split
  · split
    · exact spares_setFile n _ b
    · exact ⟨rfl, rfl, rfl, rfl, rfl, List.length_set⟩
  · exact .refl n b

lemma spares_setContent (n : Nat) (c : Content) (b : Bench) : Spares n b (b.setContent c) :=
  ⟨rfl, rfl, rfl, rfl, rfl, rfl⟩

/-- **A task that runs** fills its table, and may cut its file. -/
lemma runErrand_eq {f : RecordFile} (hf : b.opened? e.file = some f)
    (ht : b.tocs[e.toc]? = some t) : b.runErrand e =
      { b.putFile e.file (final (Volume.runRebuild e.limit ⟨f, t⟩)).file with
        tocs := (b.putFile e.file (final (Volume.runRebuild e.limit ⟨f, t⟩)).file).tocs.set e.toc
          (final (Volume.runRebuild e.limit ⟨f, t⟩)).toc } := by
  rw [runErrand, hf, ht]
  dsimp only
  cases Volume.runRebuild e.limit ⟨f, t⟩ <;> rfl

/-- **A task works on its own table** and on no other. -/
lemma spares_runErrand (he : e.toc ≠ n) (b : Bench) : Spares n b (b.runErrand e) := by
  cases hf : b.opened? e.file with
  | none => rw [runErrand, hf]; exact .refl n b
  | some f =>
    cases ht : b.tocs[e.toc]? with
    | none => rw [runErrand, hf, ht]; exact .refl n b
    | some t =>
      have hput := spares_putFile n e.file (final (Volume.runRebuild e.limit ⟨f, t⟩)).file b
      rw [runErrand_eq hf ht]
      exact { hput with
        toc := (List.getElem?_set_ne he).trans hput.toc
        tocs := List.length_set.trans hput.tocs }

/-- Tasks of other tables spare a table. -/
lemma spares_foldl {es : List Errand} (hes : ∀ e ∈ es, e.toc ≠ n) (b : Bench) :
    Spares n b (es.foldl runErrand b) := by
  induction es generalizing b with
  | nil => exact .refl n b
  | cons e es ih =>
    obtain ⟨he, hes⟩ := List.forall_mem_cons.mp hes
    exact (spares_runErrand he b).trans (ih hes (b.runErrand e))

/-! ## Benches that come about -/

/-- **A bench that has come about** from an empty one. -/
inductive Reached : Bench → Prop
  | empty : Reached empty
  | openFile {b : Bench} (content : Except FileFault Content) (hb : Reached b) :
      Reached (b.openFile content).2
  | takeToc {b : Bench} (t : Toc) (hb : Reached b) : Reached (b.takeToc t)
  | makeToc {b : Bench} (deferred : Bool) (hb : Reached b) : Reached (b.makeToc deferred)
  | forget {b : Bench} (hb : Reached b) : Reached b.forget
  | move {b : Bench} (m : Move) (hb : Reached b) : Reached (m.perform b)

/-- The tasks that have yet to run have tables. -/
def Tidy (b : Bench) : Prop := ∀ e ∈ b.errands, e.toc < b.tocs.length

lemma length_forget (b : Bench) : b.forget.tocs.length = b.tocs.length := List.length_mapIdx

lemma length_takeToc (t : Toc) (b : Bench) :
    (b.takeToc t).tocs.length = b.forget.tocs.length + 1 := List.length_append

lemma Spares.tidy {b' : Bench} (h : Spares n b b') (hb : b.Tidy) : b'.Tidy := by
  rw [Tidy, h.errands, h.tocs]
  exact hb

namespace Tidy

lemma forget (hb : b.Tidy) : b.forget.Tidy := by
  rw [Tidy, length_forget]
  exact hb

lemma takeToc (hb : b.Tidy) (t : Toc) : (b.takeToc t).Tidy := by
  rw [Tidy, length_takeToc]
  exact fun e he => Nat.lt_succ_of_lt (hb.forget e he)

/-- A table that is made comes with its task. -/
lemma makeToc (hb : b.Tidy) (deferred : Bool) : (b.makeToc deferred).Tidy := by
  rw [Bench.makeToc]
  split
  · rename_i k f _ _
    obtain ⟨⟨f', t⟩, due⟩ := Volume.mount f
    have hspares := spares_setFile b.tocs.length f' (b.takeToc t)
    have hput := hspares.tidy (hb.takeToc t)
    dsimp only
    split
    · rename_i n hn
      have hnew : n < ((b.takeToc t).setFile f').tocs.length := by
        cases hspares.tocNumber.symm.trans hn
        rw [hspares.tocs, length_takeToc]
        exact Nat.lt_succ_self _
      split
      · exact List.forall_mem_append.mpr ⟨hput, List.forall_mem_singleton.mpr hnew⟩
      · exact (spares_runErrand (Nat.ne_of_lt (Nat.lt_succ_self _)) _).tidy hput
    · exact hput
  · exact hb

/-- **Every move** leaves the bench tidy. -/
lemma perform (hb : b.Tidy) (m : Move) : (m.perform b).Tidy := by
  cases m with
  | setFile f => exact (spares_setFile 0 f b).tidy hb
  | setContent c => exact (spares_setContent 0 c b).tidy hb
  | install shadow => exact (spares_install 0 shadow b).tidy hb
  | changeToc change =>
    rw [Move.perform]
    split
    · rw [setToc]
      split
      · exact hb
      · rw [Tidy, List.length_set]
        exact hb
    · exact hb
  | runAll => exact fun _ he => nomatch he
  | dropAll => exact fun _ he => nomatch he

end Tidy

/-- **The tasks that have yet to run have tables**, however the bench has come about. -/
theorem Reached.tidy (hb : b.Reached) : b.Tidy := by
  induction hb with
  | empty => exact fun _ he => nomatch he
  | openFile content hb ih =>
    cases content with
    | error fault => exact ih.forget
    | ok c => exact ih.forget
  | takeToc t hb ih => exact ih.takeToc t
  | makeToc deferred hb ih => exact ih.makeToc deferred
  | forget hb ih => exact ih.forget
  | move m hb ih => exact ih.perform m

/-! ## The table on the bench -/

/-- The table that was made last is on the bench. -/
structure Has (b : Bench) (n : Nat) (t : Toc) : Prop where
  tocNumber : b.tocNumber = some n
  latest : b.latest = some n
  toc : b.tocs[n]? = some t

/-- **The table waits for its task**, the last of those that have yet to run. -/
structure Waits (b : Bench) (n : Nat) (t : Toc) : Prop extends b.Has n t where
  due : t.Due
  task : ∃ es e, b.errands = es ++ [e] ∧ (∀ e ∈ es, e.toc ≠ n) ∧ e.toc = n ∧
    e.file < b.files.length

/-- **The task of the table is gone.** -/
structure Rests (b : Bench) (n : Nat) (t : Toc) : Prop extends b.Has n t where
  gone : ∀ e ∈ b.errands, e.toc ≠ n

namespace Has

variable {b' : Bench}

lemma toc? (hb : b.Has n t) : b.toc? = some t := by
  rw [Bench.toc?, hb.tocNumber]
  exact hb.toc

lemma signal? (hb : b.Has n t) : b.signal? = some t.signal := by
  rw [Bench.signal?, hb.latest, Option.bind_some, hb.toc]
  rfl

lemma spare (hb : b.Has n t) (h : Spares n b b') : b'.Has n t :=
  ⟨h.tocNumber.trans hb.tocNumber, h.latest.trans hb.latest, h.toc.trans hb.toc⟩

lemma setToc (hb : b.Has n t) (t' : Toc) : (b.setToc t').Has n t' := by
  have hn : n < b.tocs.length := (List.getElem?_eq_some_iff.mp hb.toc).1
  rw [Bench.setToc, hb.tocNumber]
  exact ⟨rfl, hb.latest, List.getElem?_set_self hn⟩

/-- A table on the bench is not given up. -/
lemma abandonLost (hb : b.Has n t) : b.abandonLost.Has n t := by
  refine ⟨hb.tocNumber, hb.latest, ?_⟩
  have hheld : b.holds n = true := by
    rw [holds, hb.tocNumber, beq_self_eq_true, Bool.true_or]
  rw [Bench.abandonLost, List.getElem?_mapIdx, hb.toc, Option.map_some, if_pos hheld]

lemma clear (hb : b.Has n t) : { b with errands := [] }.abandonLost.Has n t :=
  abandonLost ⟨hb.tocNumber, hb.latest, hb.toc⟩

end Has

lemma Rests.spare {b' : Bench} (hb : b.Rests n t) (h : Spares n b b') : b'.Rests n t :=
  ⟨hb.toHas.spare h, h.errands ▸ hb.gone⟩

lemma Rests.setToc (hb : b.Rests n t) (t' : Toc) : (b.setToc t').Rests n t' := by
  refine ⟨hb.toHas.setToc t', ?_⟩
  rw [Bench.setToc, hb.tocNumber]
  exact hb.gone

lemma Waits.spare {b' : Bench} (hb : b.Waits n t) (h : Spares n b b') : b'.Waits n t := by
  refine ⟨hb.toHas.spare h, hb.due, ?_⟩
  rw [h.errands, h.files]
  exact hb.task

/-- A task that runs settles its table, and works on no other. -/
lemma Has.runErrand (hb : b.Has n t) (ht : t.Due) (he : e.toc = n)
    (hfile : e.file < b.files.length) : ∃ t', (b.runErrand e).Has n t' ∧ t'.Settled := by
  subst he
  obtain ⟨f, hf⟩ : ∃ f, b.opened? e.file = some f := by
    rw [opened?, List.getElem?_eq_getElem hfile]
    exact ⟨_, rfl⟩
  have hput := hb.spare (spares_putFile e.toc e.file
    (final (Volume.runRebuild e.limit ⟨f, t⟩)).file b)
  have hn := (List.getElem?_eq_some_iff.mp hput.toc).1
  refine ⟨_, ?_, Volume.settled_runRebuild f e.limit ht⟩
  rw [runErrand_eq hf hb.toc]
  exact ⟨hput.tocNumber, hput.latest, List.getElem?_set_self hn⟩

/-! ## One move -/

namespace Waits

/-- **The tasks are run.** -/
lemma runAll (hb : b.Waits n t) : ∃ t', b.runAll.Rests n t' ∧ t'.Settled := by
  obtain ⟨es, e, herrands, hothers, hmine, hfile⟩ := hb.task
  have hspares := spares_foldl hothers b
  obtain ⟨t', hran, hsettled⟩ :=
    (hb.toHas.spare hspares).runErrand hb.due hmine (hspares.files ▸ hfile)
  refine ⟨t', ⟨?_, fun _ he => nomatch he⟩, hsettled⟩
  rw [Bench.runAll, herrands, List.foldl_append]
  exact hran.clear

/-- **The tasks are dropped.** -/
lemma dropAll (hb : b.Waits n t) : b.dropAll.Rests n t :=
  ⟨hb.toHas.clear, fun _ he => nomatch he⟩

lemma setToc (hb : b.Waits n t) {t' : Toc} (ht : t'.Due) : (b.setToc t').Waits n t' := by
  refine ⟨hb.toHas.setToc t', ht, ?_⟩
  rw [Bench.setToc, hb.tocNumber]
  exact hb.task

end Waits

/-- **One move while the task is gone** leaves what is said of the table. -/
lemma Rests.perform (hb : b.Rests n t) {m : Move} (hm : m.Fair) :
    ∃ t', (m.perform b).Rests n t' ∧ t'.signal = t.signal ∧ t'.ready = t.ready := by
  cases m with
  | setFile f => exact ⟨t, hb.spare (spares_setFile n f b), rfl, rfl⟩
  | setContent c => exact ⟨t, hb.spare (spares_setContent n c b), rfl, rfl⟩
  | install shadow => exact ⟨t, hb.spare (spares_install n shadow b), rfl, rfl⟩
  | changeToc change =>
    refine ⟨change t, ?_, (hm t).2, (hm t).1⟩
    rw [Move.perform, hb.toHas.toc?]
    exact hb.setToc _
  | runAll =>
    refine ⟨t, ⟨?_, fun _ he => nomatch he⟩, rfl, rfl⟩
    exact (hb.toHas.spare (spares_foldl hb.gone b)).clear
  | dropAll => exact ⟨t, ⟨hb.toHas.clear, fun _ he => nomatch he⟩, rfl, rfl⟩

/-! ## A whole run -/

/-- **A table at rest** stays so, whatever is played. -/
lemma Rests.played (hb : b.Rests n t) {ms : List Move} (hms : ∀ m ∈ ms, m.Fair) :
    ∃ t', (b.played ms).Rests n t' ∧ t'.signal = t.signal ∧ t'.ready = t.ready := by
  induction ms generalizing b t with
  | nil => exact ⟨t, hb, rfl, rfl⟩
  | cons m ms ih =>
    obtain ⟨hm, hms⟩ := List.forall_mem_cons.mp hms
    obtain ⟨t', hstep, hsignal, hready⟩ := hb.perform hm
    obtain ⟨t'', hrest, hsignal', hready'⟩ := ih hstep hms
    exact ⟨t'', hrest, hsignal'.trans hsignal, hready'.trans hready⟩

/-- What has become of the table of a task. -/
inductive Came (b : Bench) (n : Nat) (t : Toc) : (gone ran : Bool) → Prop
  | waits (waits : b.Waits n t) : Came b n t false false
  | dropped (rests : b.Rests n t) (due : t.Due) : Came b n t true false
  | ran (rests : b.Rests n t) (settled : t.Settled) : Came b n t true true

namespace Came

variable {gone ran : Bool}

lemma has (h : Came b n t gone ran) : b.Has n t := by
  cases h with
  | waits waits => exact waits.toHas
  | dropped rests => exact rests.toHas
  | ran rests => exact rests.toHas

/-- Those who wait are told exactly if the task ran. -/
lemma isComplete_eq (h : Came b n t gone ran) : t.signal.isComplete = ran := by
  cases h with
  | waits waits => rw [waits.due.signal]; rfl
  | dropped rests due => rw [due.signal]; rfl
  | ran rests settled => exact settled.complete

/-- They are told of success exactly if the table is ready. -/
lemma succeeded_iff (h : Came b n t gone ran) : t.signal = .succeeded ↔ t.ready = true := by
  cases h with
  | waits waits => exact waits.due.succeeded_iff
  | dropped rests due => exact due.succeeded_iff
  | ran rests settled => exact settled.succeeded

lemma rests (h : Came b n t true ran) : b.Rests n t := by
  cases h with
  | dropped rests => exact rests
  | ran rests => exact rests

end Came

/-- **A table that waits** comes to rest when its task is gone. -/
lemma Waits.played (hb : b.Waits n t) {ms : List Move} (hms : ∀ m ∈ ms, m.Fair) :
    ∃ t', Came (b.played ms) n t' (gone ms) (ran ms) := by
  induction ms generalizing b t with
  | nil => exact ⟨t, .waits hb⟩
  | cons m ms ih =>
    have hm := hms m List.mem_cons_self
    replace hms := fun a ha => hms a (List.mem_cons_of_mem m ha)
    cases m with
    | setFile f => exact ih (hb.spare (spares_setFile n f b)) hms
    | setContent c => exact ih (hb.spare (spares_setContent n c b)) hms
    | install shadow => exact ih (hb.spare (spares_install n shadow b)) hms
    | changeToc change =>
      have hstep : ((Move.changeToc change).perform b).Waits n (change t) := by
        rw [Move.perform, hb.toHas.toc?]
        exact hb.setToc (hb.due.congr (hm t).2 (hm t).1)
      exact ih hstep hms
    | runAll =>
      obtain ⟨t', hstep, hsettled⟩ := hb.runAll
      obtain ⟨t'', hrest, hsignal, hready⟩ := hstep.played hms
      exact ⟨t'', .ran hrest (hsettled.congr hsignal hready)⟩
    | dropAll =>
      obtain ⟨t', hrest, hsignal, hready⟩ := hb.dropAll.played hms
      exact ⟨t', .dropped hrest (hb.due.congr hsignal hready)⟩

/-! ## The table that is made -/

variable {f : RecordFile} {limit : Nat}

/-- A file without a table is mounted with an unfinished one. -/
lemma mount_of_due (hdue : (Volume.mount f).2 = some limit) :
    Volume.mount f = (⟨f, .unfinished⟩, some limit) := by
  rw [Volume.mount] at hdue ⊢
  split at hdue
  · cases hdue
  · cases hdue
    rfl

lemma due_unfinished : Toc.unfinished.Due := ⟨rfl, rfl⟩

/-- The bench with the table, and its task in nobody's hands. -/
def made (b : Bench) (f : RecordFile) : Bench :=
  { (b.takeToc .unfinished).setFile f with
    tocNumber := some b.tocs.length
    latest := some b.tocs.length }

lemma has_made (b : Bench) (f : RecordFile) : (b.made f).Has b.tocs.length .unfinished := by
  refine ⟨rfl, rfl, (spares_setFile _ f _).toc.trans ?_⟩
  show (b.forget.tocs ++ [.unfinished])[b.tocs.length]? = _
  rw [← b.length_forget]
  exact List.getElem?_concat_length

/-- The task of a table is run at once, or waits. -/
lemma makeToc_eq {k : Nat} (hk : b.fileNumber = some k) (hf : b.file? = some f)
    (hdue : (Volume.mount f).2 = some limit) (deferred : Bool) :
    b.makeToc deferred =
      if deferred then
        { b.made f with errands := (b.made f).errands ++ [⟨limit, k, b.tocs.length⟩] }
      else (b.made f).runErrand ⟨limit, k, b.tocs.length⟩ := by
  have htoc : ((b.takeToc .unfinished).setFile f).tocNumber = some b.tocs.length :=
    (spares_setFile 0 f _).tocNumber.trans (congrArg some b.length_forget)
  rw [makeToc, hk, hf]
  dsimp only
  rw [mount_of_due hdue]
  dsimp only
  rw [htoc]
  rfl

/-- **A table that has to be rebuilt is made.**  Its task is run at once or has yet to run. -/
lemma came_makeToc (hb : b.Tidy) (hf : b.file? = some f)
    (hdue : (Volume.mount f).2 = some limit) (deferred : Bool) :
    ∃ t, Came (b.makeToc deferred) b.tocs.length t (!deferred) (!deferred) := by
  obtain ⟨k, hk, hopened⟩ := Option.bind_eq_some_iff.mp hf
  obtain ⟨o, ho, _⟩ := Option.map_eq_some_iff.mp hopened
  have hspares := spares_setFile b.tocs.length f (b.takeToc .unfinished)
  have hhas := has_made b f
  have hfile : k < (b.made f).files.length :=
    hspares.files ▸ (List.getElem?_eq_some_iff.mp ho).1
  have hothers : ∀ e ∈ (b.made f).errands, e.toc ≠ b.tocs.length := fun e he =>
    Nat.ne_of_lt (hb e (hspares.errands ▸ he))
  rw [makeToc_eq hk hf hdue]
  cases deferred with
  | true =>
    exact ⟨_, .waits ⟨⟨hhas.tocNumber, hhas.latest, hhas.toc⟩, due_unfinished,
      _, _, rfl, hothers, rfl, hfile⟩⟩
  | false =>
    obtain ⟨t, hran, hsettled⟩ :=
      hhas.runErrand (e := ⟨limit, k, b.tocs.length⟩) due_unfinished rfl hfile
    have hkeeps := spares_runErrand (e := ⟨limit, k, b.tocs.length⟩)
      (Nat.ne_of_lt (Nat.lt_succ_self _)) (b.made f)
    exact ⟨t, .ran ⟨hran, hkeeps.errands ▸ hothers⟩ hsettled⟩

/-- **A table that has to be rebuilt, and whatever happens while it is kept.** -/
theorem came_played (hb : b.Tidy) (hf : b.file? = some f)
    (hdue : (Volume.mount f).2 = some limit) (deferred : Bool) {ms : List Move}
    (hms : ∀ m ∈ ms, m.Fair) :
    ∃ t, Came ((b.makeToc deferred).played ms) b.tocs.length t (!deferred || gone ms)
      (!deferred || ran ms) := by
  obtain ⟨t, hmade⟩ := came_makeToc hb hf hdue deferred
  cases deferred with
  | true =>
    cases hmade with
    | waits hwaits => exact hwaits.played hms
  | false =>
    cases hmade with
    | ran hrests hsettled =>
      obtain ⟨t', hrest, hsignal, hready⟩ := hrests.played hms
      exact ⟨t', .ran hrest (hsettled.congr hsignal hready)⟩

/-- A table that nobody has any more is given up. -/
lemma Rests.forget (hb : b.Rests n t) (hpending : t.signal.isComplete = false) :
    b.forget.signal? = some (.failed Completion.abandonedReason) := by
  have hlost : ({ b with tocNumber := none } : Bench).holds n = false := by
    rw [holds, Bool.or_eq_false_iff]
    refine ⟨rfl, List.any_eq_false.mpr fun e he => ?_⟩
    rw [beq_iff_eq]
    exact hb.gone e he
  have hlatest : b.forget.latest = some n := hb.latest
  have htoc : b.forget.tocs[n]? = some { t with signal := t.signal.abandon } := by
    rw [Bench.forget, Bench.abandonLost, List.getElem?_mapIdx]
    show b.tocs[n]?.map _ = _
    rw [hb.toc, Option.map_some, hlost]
    rfl
  have habandon : t.signal.abandon = .failed Completion.abandonedReason := by
    cases h : t.signal with
    | pending => rfl
    | succeeded => rw [h] at hpending; cases hpending
    | failed _ => rw [h] at hpending; cases hpending
  rw [Bench.signal?, hlatest, Option.bind_some, htoc]
  exact congrArg some habandon

/-- **Those who wait for a table are told exactly if its task was run**, whatever the file is,
whenever the task runs, and whatever else happens while the table is kept.  They are told of success
exactly if the table is ready.  Once the task is gone none of this changes any more; if the task was
dropped, they are told so when the table is let go of. -/
theorem complete_iff_ran (hb : b.Reached) (hf : b.file? = some f)
    (hdue : (Volume.mount f).2 = some limit) (deferred : Bool) {ms : List Move}
    (hms : ∀ m ∈ ms, m.Fair) :
    ∃ t, ((b.makeToc deferred).played ms).toc? = some t ∧
      ((b.makeToc deferred).played ms).signal? = some t.signal ∧
      t.signal.isComplete = (!deferred || ran ms) ∧
      (t.signal = .succeeded ↔ t.ready = true) ∧
      ((!deferred || gone ms) = true →
        (∀ later : List Move, (∀ m ∈ later, m.Fair) → ∃ t',
          ((b.makeToc deferred).played (ms ++ later)).toc? = some t' ∧
            ((b.makeToc deferred).played (ms ++ later)).signal? = some t.signal ∧
            t'.ready = t.ready) ∧
        (t.signal.isComplete = false → ((b.makeToc deferred).played ms).forget.signal? =
          some (.failed Completion.abandonedReason))) := by
  obtain ⟨t, hcame⟩ := came_played hb.tidy hf hdue deferred hms
  refine ⟨t, hcame.has.toc?, hcame.has.signal?, hcame.isComplete_eq, hcame.succeeded_iff, ?_⟩
  intro hgone
  rw [hgone] at hcame
  refine ⟨fun later hlater => ?_, hcame.rests.forget⟩
  obtain ⟨t', hrests, hsignal, hready⟩ := hcame.rests.played hlater
  rw [played, List.foldl_append]
  exact ⟨t', hrests.toHas.toc?, hsignal ▸ hrests.toHas.signal?, hready⟩

/-- A slot with an entity. -/
def slot : Bytes :=
  ({ key := .sample, version := 1, length := 1, capacity := 1, inUse := true,
     checksum := checksum [7] } : Header).encode ++ [7]

/-- A bench with a file of that slot. -/
def stocked : Bench :=
  (((Move.setContent (.ofBytes slot)).perform empty).openFile (.ok (.ofBytes slot))).2

/-- The table is used and the file changed before the task runs. -/
def busy : List Move :=
  [.changeToc (Toc.retire ⟨.reserved, 37, 36, true, 0⟩), .setContent (.ofBytes (slot ++ [0])),
    .runAll]

/-- Both are changed once more, after the task has run. -/
def idle : List Move := [.changeToc (Toc.markFree .sample), .setContent .empty, .dropAll]

lemma fair_busy : ∀ m ∈ busy, m.Fair := by
  simp only [busy, List.forall_mem_cons]
  exact ⟨fun _ => ⟨rfl, rfl⟩, trivial, trivial, fun _ hm => nomatch hm⟩

lemma fair_idle : ∀ m ∈ idle, m.Fair := by
  simp only [idle, List.forall_mem_cons]
  refine ⟨fun t => ?_, trivial, trivial, fun _ hm => nomatch hm⟩
  rw [Toc.markFree]
  split <;> exact ⟨rfl, rfl⟩

/-- Those who wait are told that a late scan has ended well, and nothing that is done later makes
them told otherwise.  If the scan is dropped they are told when the table is let go of. -/
theorem complete_iff_ran_deferred :
    (∃ t t' : Toc, ((stocked.makeToc true).played busy).toc? = some t ∧
      ((stocked.makeToc true).played busy).signal? = some t.signal ∧ t.stats.live = 1 ∧
      t.signal.isComplete = true ∧ (t.signal = .succeeded ↔ t.ready = true) ∧
      ((stocked.makeToc true).played (busy ++ idle)).toc? = some t' ∧
      ((stocked.makeToc true).played (busy ++ idle)).signal? = some t.signal ∧
      t'.ready = t.ready) ∧
    ∃ u : Toc, ((stocked.makeToc true).played [.dropAll]).toc? = some u ∧
      u.signal.isComplete = false ∧ ((stocked.makeToc true).played [.dropAll]).forget.signal? =
        some (.failed Completion.abandonedReason) := by
  have hreached : stocked.Reached := .openFile _ (.move _ .empty)
  have hfile : stocked.file? = some (.ofContent (.ofBytes slot)) := rfl
  have hdue : (Volume.mount (.ofContent (.ofBytes slot))).2 = some 37 := by decide +kernel
  have hdrop : ∀ m ∈ [Move.dropAll], m.Fair := List.forall_mem_singleton.mpr trivial
  obtain ⟨t, htoc, hsignal, hcomplete, hsucceeded, hgone⟩ :=
    complete_iff_ran hreached hfile hdue true fair_busy
  obtain ⟨t', htoc', hsignal', hready⟩ := (hgone rfl).1 idle fair_idle
  obtain ⟨u, hutoc, _, hpending, _, hlost⟩ := complete_iff_ran hreached hfile hdue true hdrop
  have hlive : ((stocked.makeToc true).played busy).toc?.map (·.stats.live) = some 1 := by
    decide +kernel
  rw [htoc] at hlive
  exact ⟨⟨t, t', htoc, hsignal, Option.some.inj hlive, hcomplete, hsucceeded, htoc', hsignal',
    hready⟩, u, hutoc, hpending, (hlost rfl).2 hpending⟩

/-- A bench with an empty file. -/
def fresh : Bench := (empty.openFile (.ok .empty)).2

/-- **A task that is dropped** leaves those waiting who keep the table. -/
theorem dropped_pending :
    ∃ t, (fresh.makeToc true).dropAll.toc? = some t ∧
      (fresh.makeToc true).dropAll.signal? = some .pending ∧
      (fresh.makeToc true).dropAll.errands = [] ∧ t.ready = false := by
  refine ⟨_, rfl, rfl, rfl, rfl⟩

end Bench

end SlotStore
