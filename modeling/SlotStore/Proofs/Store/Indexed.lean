import Mathlib.Tactic.Common
import SlotStore.Proofs.Store.Indexes

/-!
# Queries after a run

A store is used, indexes are attached to it while it has no entities or are rebuilt later, and
queries are made in between.  A query gives what its stages make of the live entities, whichever
entities an index lets it look at, unless a float among the values that the index was given is equal
to two integers: such a column has no order to search by.

* `Tracks` : indexes that follow the live entities;
* `IndexedRun` : runs with indexes;
* `IndexedRun.tracks` : what the indexes know after a run;
* `IndexedRun.query_eq_eval` : what a query gives;
* `IndexedRun.query_misses` : a query that misses an entity.
-/

namespace SlotStore

variable {α : Type} {c : Coding α} {h : List (Event α)} {s : Store}

/-- **Indexes that follow the live entities**, and were given no others than the listed ones. -/
def Tracks (c : Coding α) (given : List α) (live : Key → Option α) (xs : List FieldIndex) : Prop :=
  ∀ x ∈ xs, x.Follows (fun d => ∃ y ∈ given, c.document y = d) fun k => (live k).map c.document

/-! ## Runs -/

/-- The rules of a run under which queries are made: a store is used while it is open, entities pass
through the codec and are added under new keys, and a store is opened again on its own file. -/
structure QueryRules (c : Coding α) (h : List (Event α)) (s : Store) (op : Operation α) : Prop where
  opened : s.closed = false
  fresh : op.Fresh h
  codes : op.Codes c
  ways : ∀ config, op = .reopen config → s.Ways (drawn h)

/-- The entities that indexes were given before an event and by it.  A store without indexes begins
anew. -/
def givenBy (e : Event α) (s : Store) (given : Option (List α)) : Option (List α) :=
  if s.indexes.isEmpty then some [] else given.map (e.wrote ++ ·)

/-- **A run of a store with indexes** on a file that was empty at first, and the entities that the
indexes were given since they were new or rebuilt.  It is `none` while there is an index that was
attached to a store with entities and not rebuilt. -/
inductive IndexedRun (c : Coding α) : Option (List α) → List (Event α) → Store → Prop
  | opened {config : Config} {shadow : RecordFile.ShadowNode} {s : Store}
    (hopen : Store.openFile config (.ok .empty) shadow = .ok s) : IndexedRun c (some []) [] s
  | next {given : Option (List α)} {h : List (Event α)} {s : Store} {op : Operation α}
    (run : IndexedRun c given h s) (allowed : QueryRules c h s op) :
    IndexedRun c (givenBy (s.event c op) (s.perform c op).2 given) (s.event c op :: h)
      (s.perform c op).2
  | attachedEmpty {given : Option (List α)} {h : List (Event α)} {s s' : Store}
    (run : IndexedRun c given h s) (hempty : s.size = .ok 0) (paths : List FieldPath)
    (hattach : Store.attach (.ofPaths paths) s = .ok () s') : IndexedRun c given h s'
  | attached {given : Option (List α)} {h : List (Event α)} {s s' : Store}
    (run : IndexedRun c given h s) (x : FieldIndex) (hattach : Store.attach x s = .ok () s') :
    IndexedRun c none h s'
  | reindexed {given : Option (List α)} {h : List (Event α)} {s s' : Store} {n : Nat}
    (run : IndexedRun c given h s) (hopened : s.closed = false)
    (hreindex : Store.reindex c s = .ok n s') :
    IndexedRun c (some (Store.entitiesOf (ledger h) s.toc.activeEntries)) h s'

namespace Store

variable {held : Key → Option Bytes} {used : List Key} {n : Nat}

/-- The indexes do not matter to the entities. -/
lemma Stands.index (hs : s.Stands held used n) (indexes : List FieldIndex) :
    Stands { s with indexes } held used n := by
  cases hs with
  | serves hs => exact .serves (hs.written_ok hs.holds indexes)
  | parked hs => exact .parked ⟨⟨hs.shut.gate, hs.shut.closed⟩, hs.holds⟩

/-- A store whose size is zero has no entities. -/
lemma Stands.ledger_of_size (hs : s.Stands held used n) (hl : Spelled c (ledger h) held)
    (hempty : s.size = .ok 0) (k : Key) : ledger h k = none := by
  obtain ⟨ks, -, hsize, -, hmem⟩ := keys_eq hs.holds
  have hks : ks = [] := List.eq_nil_of_length_eq_zero (Except.ok.inj (hsize.symm.trans hempty))
  refine hl.of_none (Option.not_isSome_iff_eq_none.mp fun hk => ?_)
  rw [← hmem k, hks] at hk
  cases hk

end Store

/-! ## What the indexes know -/

variable {given : List α} {live : Key → Option α} {xs : List FieldIndex}

/-- A new index follows the entities if there are none. -/
lemma Tracks.attach (hxs : Tracks c given live xs) (hnone : ∀ k, live k = none)
    (paths : List FieldPath) : Tracks c given live (xs ++ [.ofPaths paths]) := by
  intro x hx
  rcases List.mem_append.mp hx with hx | hx
  · exact hxs x hx
  · have hempty : (fun k => (live k).map c.document) = fun _ => none :=
      funext fun k => by rw [hnone k]; rfl
    rw [List.mem_singleton.mp hx, hempty]
    exact .ofPaths paths _

/-- **Each event** leaves indexes that track the entities. -/
lemma Tracks.next (hxs : Tracks c given live xs) (e : Event α) :
    Tracks c (e.wrote ++ given) (e.leaves live) (e.indexes c xs) :=
  e.indexes_follow hxs (fun _ ⟨y, hy, hd⟩ => ⟨y, List.mem_append_right _ hy, hd⟩)
    fun y hy => ⟨y, List.mem_append_left _ hy, rfl⟩

/-- **After a run** the payloads of the store are those of the entities that the history leaves, and
the indexes follow these. -/
theorem IndexedRun.tracks {known : Option (List α)} (run : IndexedRun c known h s) :
    ∃ held, s.Stands held (added h) (drawn h) ∧ Spelled c (ledger h) held ∧
      ∀ given, known = some given → Tracks c given (ledger h) s.indexes := by
  induction run with
  | opened hopen =>
    refine ⟨_, .serves (Store.serves_opened hopen), fun _ => rfl, fun _ _ x hx => ?_⟩
    rw [Store.indexes_openFile hopen] at hx
    cases hx
  | @next known h s op run allowed ih =>
    obtain ⟨held, hs, hl, htracks⟩ := ih
    have hserves := hs.serves_of_opened allowed.opened
    obtain ⟨held', hout⟩ := hserves.perform op
      (fun k x hop => by subst hop; exact allowed.fresh) allowed.ways
    have hspelled := (hout.answers.conforms hl allowed.codes (s.draws c op)).2
    refine ⟨held', hout.stands, hspelled, fun given hgiven => ?_⟩
    rw [givenBy] at hgiven
    -- Without indexes there is nothing to follow; otherwise the event carries the tracking over.
    split at hgiven
    · rename_i hnone
      rw [List.isEmpty_iff.mp hnone]
      exact fun x hx => by cases hx
    · obtain ⟨before, rfl, rfl⟩ := Option.map_eq_some_iff.mp hgiven
      rw [hserves.perform_indexes op (s.draws c op)]
      exact (htracks before rfl).next _
  | @attachedEmpty known h s s' run hempty paths hattach ih =>
    obtain ⟨held, hs, hl, htracks⟩ := ih
    cases hattach
    exact ⟨held, hs.index _, hl, fun given hgiven =>
      (htracks given hgiven).attach (hs.ledger_of_size hl hempty) paths⟩
  | @attached known h s s' run x hattach ih =>
    obtain ⟨held, hs, hl, _⟩ := ih
    cases hattach
    exact ⟨held, hs.index _, hl, fun given hgiven => by cases hgiven⟩
  | @reindexed known h s s' n run hopened hreindex ih =>
    obtain ⟨held, hs, hl, _⟩ := ih
    have hserves := hs.serves_of_opened hopened
    obtain ⟨xs, hrebuilt, hxs⟩ := hserves.reindex hl
      (fun d => ∃ y ∈ Store.entitiesOf (ledger h) s.toc.activeEntries, c.document y = d)
      fun k x hx => ⟨x, (hserves.roll hl).mem_entitiesOf hx, rfl⟩
    cases hreindex.symm.trans hrebuilt
    exact ⟨held, hs.index xs, hl, fun given hgiven => Option.some.inj hgiven ▸ hxs⟩

/-- **A query gives what its stages make of the live entities in the order of the file**, with
indexes as without, if the values that an index compares are coherent and the stages before the
filter sort by orders. -/
theorem IndexedRun.query_eq_eval (run : IndexedRun c (some given) h s) (hopened : s.closed = false)
    (q : Query α) (hcoherent : ∀ path v found,
      Plan.covered s.indexes (Plan.equalitiesOf q.stages) = some (path, v, found) →
        q.Coherent c.document (· ∈ given) (fun x => ∃ k, ledger h k = some x) path v) :
    ∃ es, s.Roll (ledger h) es ∧
      s.toList c q = .ok (q.eval c.document (Store.entitiesOf (ledger h) es)) := by
  obtain ⟨held, hs, hl, htracks⟩ := run.tracks
  have hserves := hs.serves_of_opened hopened
  exact ⟨_, hserves.roll hl, hserves.toList_eq_eval hl (htracks given rfl) q hcoherent⟩

/-! ## Integers that a float rounds to -/

namespace Rounded

/-- Entities are documents. -/
def coding : Coding Document := Codec.documents .messagePack

/-- The float `2 ^ 53`. -/
def float : Document := .float ⟨0x4340000000000000⟩

/-- The integer after it, which a double rounds to it. -/
def int : Document := .int 9007199254740993

/-- A store with an index over the documents themselves. -/
def indexed : Store := { Store.fresh with indexes := [.ofPaths [⟨[]⟩]] }

/-- The float and the integer. -/
def pair : List (Event Document) × Store :=
  Store.advance coding (.add (.filled 2) int)
    (Store.advance coding (.add (.filled 1) float) ([], indexed))

/-- The integer between two equal floats. -/
def triple : List (Event Document) × Store := Store.advance coding (.add (.filled 3) float) pair

/-- The entities that equal an integer. -/
def query (n : Int) : Query Document :=
  ⟨[.filter (.compare .eq (.field ⟨[]⟩) (.literal (.int n)))], 0⟩

/-- The float is coded and read back. -/
lemma spells_float : coding.Spells float (MessagePack.writeDocument float) :=
  ⟨rfl, by decide +kernel, by rfl⟩

/-- The integer is coded and read back. -/
lemma spells_int : coding.Spells int (MessagePack.writeDocument int) :=
  ⟨rfl, by decide +kernel, by rfl⟩

lemma rules_add {h : List (Event Document)} {s : Store} {k : Key} {x : Document} {bs : Bytes}
    (hopened : s.closed = false) (hk : k.isReserved = false ∧ k ∉ added h)
    (hx : coding.Spells x bs) : QueryRules coding h s (.add k x) :=
  ⟨hopened, hk, ⟨_, hx⟩, fun _ hop => by cases hop⟩

/-- Two entities are added under an index. -/
lemma run_pair : IndexedRun coding (some [int, float]) pair.1 pair.2 := by
  have opened : IndexedRun coding _ [] _ := .opened Store.openFile_fresh
  have one := (opened.attachedEmpty rfl [⟨[]⟩] rfl).next
    (rules_add (k := .filled 1) rfl (by decide) spells_float)
  exact one.next (rules_add (k := .filled 2) (by decide +kernel) (by decide) spells_int)

/-- Three entities are added, the integer between two floats. -/
lemma run_triple : IndexedRun coding (some [float, int, float]) triple.1 triple.2 :=
  run_pair.next (rules_add (k := .filled 3) (by decide +kernel) (by decide) spells_float)

/-- The keys in the order of the file. -/
lemma keys_triple : triple.2.keys = .ok [.filled 1, .filled 2, .filled 3] := by
  have hkeys : triple.2.keys = .ok (triple.2.toc.activeEntries.map (·.key)) := rfl
  rw [hkeys, Toc.activeEntries_eq_reverse (t := triple.2.toc) (by decide +kernel)]
  rfl

/-- No float is equal to two of the integers. -/
lemma coherent_pair : Value.Coherent fun w => w = .int 9007199254740993 ∨
    FieldIndex.ValuesAt ⟨[]⟩ (fun d => ∃ y ∈ [int, float], coding.document y = d) w := by
  have hint : ∀ m, (Value.int m = .int 9007199254740993 ∨ FieldIndex.ValuesAt ⟨[]⟩
      (fun d => ∃ y ∈ [int, float], coding.document y = d) (.int m)) → m = 9007199254740993 := by
    rintro m (hm | ⟨d, ⟨y, hy, rfl⟩, hm⟩)
    · exact Value.int.inj hm
    · rcases List.mem_pair.mp hy with rfl | rfl
      · exact (Value.int.inj hm).symm
      · cases hm
  exact fun m n x hm hn _ _ _ => (hint m hm).trans (hint n hn).symm

end Rounded

open Rounded

/-- An index answers for an integer that a float rounds to. -/
theorem IndexedRun.query_eq_eval_rounded : ∃ given h s q, IndexedRun coding (some given) h s ∧
    s.closed = false ∧ (Plan.covered s.indexes (Plan.equalitiesOf q.stages)).isSome = true ∧
      ∃ es, s.Roll (ledger h) es ∧
        s.toList coding q = .ok (q.eval coding.document (Store.entitiesOf (ledger h) es)) := by
  have hopened : pair.2.closed = false := by decide +kernel
  refine ⟨_, _, _, query 9007199254740993, run_pair, hopened, by decide +kernel,
    run_pair.query_eq_eval hopened _ fun path v found hcovered => ?_⟩
  obtain ⟨hmem, _⟩ := Plan.covered_eq_some hcovered
  cases List.mem_singleton.mp hmem
  exact ⟨coherent_pair, fun stage hstage => by cases hstage⟩

/-- **A query may miss an entity.**  A column in which an integer stands between two floats that are
equal to its neighbour has no order, and the search finds the first float only. -/
theorem IndexedRun.query_misses : ∃ given h s q, IndexedRun coding (some given) h s ∧
    s.closed = false ∧ (s.toList coding q).toOption.map List.length = some 1 ∧
      ∀ es, s.Roll (ledger h) es →
        (q.eval coding.document (Store.entitiesOf (ledger h) es)).length = 2 := by
  have hopened : triple.2.closed = false := by decide +kernel
  refine ⟨_, _, _, query 9007199254740992, run_triple, hopened, by decide +kernel,
    fun es hroll => ?_⟩
  rw [Store.entitiesOf_eq, Except.ok.inj (hroll.keys.symm.trans keys_triple)]
  decide +kernel

end SlotStore
