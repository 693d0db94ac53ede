import Mathlib.Tactic.Common
import SlotStore.Proofs.Query.Narrow
import SlotStore.Proofs.Query.Rows
import SlotStore.Proofs.Store.Map
import SlotStore.Store.Queries

/-!
# Queries on an idle store

A query on an open store between two operations gives what its stages make of the live entities in
the order of the file.  An index that follows the documents of the entities makes no difference, as
long as the values that it is asked about are coherent.

* `Plan.liveEntries_eq` : the entries of some keys;
* `Store.Roll` : the live entries in the order of the file;
* `Query.Coherent` : what a query needs of the values that it compares;
* `Store.Serves.toList_eq_eval` : what a query gives.
-/

namespace SlotStore

/-! ## Entries of keys -/

namespace Plan

variable {t : Toc} {row : Row}

/-- Live entries are shown in the order of the file. -/
lemma activeEntries_sorted (hd : t.Describes row) :
    t.activeEntries.Pairwise fun a b => a.offset < b.offset := by
  have hentries : t.entries.items.Pairwise fun a b => a.offset ≠ b.offset :=
    (List.pairwise_append.mp hd.regions_distinct).1
  have hdistinct : t.activeEntries.Pairwise fun a b => a.offset ≠ b.offset :=
    ((Toc.perm_byOffset _).pairwise_iff fun h => Ne.symm h).mpr (hentries.filter _)
  exact ((Toc.pairwise_byOffset _).and hdistinct).imp fun h => Nat.lt_of_le_of_ne h.1 h.2

lemma nodup_eraseDups (keys : List Key) : keys.eraseDups.Nodup := by
  induction hlength : keys.length using Nat.strong_induction_on generalizing keys with
  | h n ih =>
    cases keys with
    | nil => exact List.nodup_nil
    | cons k keys =>
      have hshort : (keys.filter fun b => !b == k).length < n := by
        rw [← hlength]
        exact Nat.lt_succ_of_le (List.length_filter_le _ _)
      rw [List.eraseDups_cons]
      refine List.nodup_cons.mpr ⟨fun hk => ?_, ih _ hshort _ rfl⟩
      simpa using (List.mem_filter.mp (List.mem_eraseDups.mp hk)).2

/-- **The live entries of some keys** are found among all live entries. -/
theorem liveEntries_eq (hd : t.Describes row) (keys : List Key) :
    liveEntries t keys = t.activeEntries.filter fun e => e.key ∈ keys := by
  have hsorted := (activeEntries_sorted hd).filter fun e => e.key ∈ keys
  have hfound : ((keys.eraseDups.filterMap t.find?).filter fun e => !e.isFree).Nodup := by
    refine List.Pairwise.filter _ (List.Pairwise.filterMap _ ?_ (nodup_eraseDups keys))
    rintro k k' hne e he e' he' rfl
    exact hne ((Toc.key_of_find? he).symm.trans (Toc.key_of_find? he'))
  -- Both sides have the same entries, and offsets that differ leave them one order.
  have hperm : (t.activeEntries.filter fun e => e.key ∈ keys).Perm
      ((keys.eraseDups.filterMap t.find?).filter fun e => !e.isFree) := by
    refine (List.perm_ext_iff_of_nodup (hsorted.imp fun h hab => ?_) hfound).mpr fun e => ?_
    · rw [hab] at h
      exact Nat.lt_irrefl _ h
    · rw [List.mem_filter, List.mem_filter, hd.mem_activeEntries, List.mem_filterMap,
        decide_eq_true_eq, Bool.not_eq_true']
      constructor
      · rintro ⟨⟨hfind, hlive⟩, hmem⟩
        exact ⟨⟨e.key, List.mem_eraseDups.mpr hmem, hfind⟩, hlive⟩
      · rintro ⟨⟨k, hk, hfind⟩, hlive⟩
        obtain rfl := Toc.key_of_find? hfind
        exact ⟨⟨hfind, hlive⟩, List.mem_eraseDups.mp hk⟩
  exact Toc.byOffset_eq hperm hsorted

/-- An equality that an index answers. -/
lemma covered_eq_some {indexes : List FieldIndex} {equalities : List (FieldPath × Value)}
    {path : FieldPath} {v : Value} {found : List Key}
    (h : covered indexes equalities = some (path, v, found)) :
    (path, v) ∈ equalities ∧ ∃ x ∈ indexes, x.covers path = true ∧ found = x.lookup path v := by
  obtain ⟨⟨path', v'⟩, hmem, hindex⟩ := List.exists_of_findSome?_eq_some h
  obtain ⟨x, hx, heq⟩ := Option.map_eq_some_iff.mp hindex
  cases heq
  have hcovers := List.find?_some hx
  exact ⟨hmem, x, List.mem_of_find?_eq_some hx, hcovers, rfl⟩

end Plan

/-- **What a query needs of the values that it compares** where an index answers an equality: the
literal is coherent with the values at the path of all known entities, and the stages before the
filter sort by orders. -/
structure Query.Coherent {α : Type} (q : Query α) (document : α → Document) (known live : α → Prop)
    (path : FieldPath) (v : Value) : Prop where
  values : Value.Coherent fun w =>
    w = v ∨ FieldIndex.ValuesAt path (fun d => ∃ x, known x ∧ document x = d) w
  orders : ∀ stage ∈ Plan.before path v q.stages, stage.Orders document live

namespace Store

open Steps

variable {α : Type} {s : Store} {k : Key} {held : Key → Option Bytes} {live : Key → Option α}
  {used : List Key} {n : Nat} {c : Coding α}

/-! ## One entity -/

/-- **What a query decodes** is the payload that the key holds. -/
theorem Serves.decode?_held (hs : s.Serves held used n) (k : Key) :
    Store.decode? c s k = match held k with
      | none => .ok none
      | some payload => (c.decode payload).map some := by
  obtain ⟨row, hsound⟩ := hs.holds.sound
  have hgate : (Door.gate.attempt Key.reserved .shared s.cancelled s.gate).1 = .ok .entered := by
    rw [hs.idle.cancelled, hs.idle.gate, Gate.attempt_opened]
  have hlock : (Door.keyLocks.attempt k .shared false s.locks).1 = .ok .entered := by
    rw [hs.idle.locks, KeyLocks.attempt_empty]
  rw [Store.decode?, hgate]
  simp only [bind, Except.bind, hlock]
  cases hlive : s.live? k with
  | none =>
    rw [(hs.holds.held k).symm.trans ((live?_eq_none hsound).mp hlive)]
    cases hentry : s.toc.find? k with
    | none => rfl
    | some e =>
      have hfree : e.isFree = true := by
        rw [live?, hentry, Option.filter_eq_none_iff] at hlive
        simpa using hlive
      simp only [hfree]
      rfl
  | some e =>
    obtain ⟨hentry, hfree⟩ := mem_live?.mp hlive
    obtain ⟨h, payload, hread, hpayload, _⟩ := readEntry_live hsound hlive
    rw [(hs.holds.held k).symm.trans hpayload]
    simp only [hentry, hfree, hread]
    cases c.decode payload <;> rfl

/-- **An entity that a query decodes** is the one of its key. -/
theorem Serves.decode? (hs : s.Serves held used n) (hl : Spelled c live held) (k : Key) :
    Store.decode? c s k = .ok (live k) := by
  rw [hs.decode?_held]
  cases hk : held k with
  | none => rw [hl.of_none hk]
  | some payload =>
    obtain ⟨x, hx, hspells⟩ := hl.of_some hk
    simp only [hx, hspells.decode]
    rfl

/-! ## All entities -/

/-- **The live entries in the order of the file.** -/
structure Roll (s : Store) (live : Key → Option α) (es : List Entry) : Prop where
  sorted : es.Pairwise fun a b => a.offset < b.offset
  entry : ∀ e ∈ es, s.toc.find? e.key = some e
  keys : s.keys = .ok (es.map (·.key))
  lists : Lists live (es.map (·.key))

/-- The live entries are those of the keys that hold a payload. -/
lemma Serves.roll_of_isSome (hs : s.Serves held used n)
    (hlive : ∀ k, (live k).isSome = (held k).isSome) : s.Roll live s.toc.activeEntries := by
  obtain ⟨row, hsound⟩ := hs.holds.sound
  obtain ⟨ks, hkeys, -, hnodup, hmem⟩ := keys_eq hs.holds
  have hactive : s.keys = .ok (s.toc.activeEntries.map (·.key)) := by
    rw [keys, waitReady_of_succeeded hsound.signal]
    rfl
  cases hkeys.symm.trans hactive
  exact ⟨Plan.activeEntries_sorted hsound.described,
    fun e he => (hsound.described.mem_activeEntries.mp he).1, hactive, hnodup,
    fun k => by rw [hmem k, hlive k]⟩

/-- **A store that serves** lists its entities. -/
theorem Serves.roll (hs : s.Serves held used n) (hl : Spelled c live held) :
    s.Roll live s.toc.activeEntries := hs.roll_of_isSome hl.isSome

/-! ## What a query gives -/

/-- The entities of some entries. -/
def entitiesOf (live : Key → Option α) (es : List Entry) : List α :=
  es.filterMap fun e => live e.key

lemma entitiesOf_eq (live : Key → Option α) (es : List Entry) :
    entitiesOf live es = (es.map (·.key)).filterMap live := List.filterMap_map.symm

lemma mem_entitiesOf {es : List Entry} {x : α} (hx : x ∈ entitiesOf live es) :
    ∃ k, live k = some x := by
  obtain ⟨e, -, he⟩ := List.mem_filterMap.mp hx
  exact ⟨e.key, he⟩

/-- The live entities are those of the live entries. -/
lemma Roll.mem_entitiesOf {es : List Entry} (hr : s.Roll live es) {x : α} (hx : live k = some x) :
    x ∈ entitiesOf live es := by
  have hk : k ∈ es.map (·.key) := (hr.lists.2 k).mpr (by rw [hx]; rfl)
  obtain ⟨e, he, rfl⟩ := List.mem_map.mp hk
  exact List.mem_filterMap.mpr ⟨e, he, hx⟩

/-- Leaving keys out leaves their entities out. -/
lemma entitiesOf_filter {found : List Key} {keep : α → Bool}
    (h : ∀ k x, live k = some x → (k ∈ found ↔ keep x = true)) (es : List Entry) :
    entitiesOf live (es.filter fun e => e.key ∈ found) = (entitiesOf live es).filter keep := by
  rw [entitiesOf, entitiesOf, List.filterMap_filter, List.filter_filterMap]
  refine List.filterMap_congr fun e _ => ?_
  cases hlive : live e.key with
  | none => rw [ite_self, Option.filter_none]
  | some x =>
    by_cases hk : e.key ∈ found
    · rw [if_pos (decide_eq_true hk), Option.filter_some, if_pos ((h _ x hlive).mp hk)]
    · rw [if_neg (decide_eq_true_iff.not.mpr hk), Option.filter_some,
        if_neg fun hkeep => hk ((h _ x hlive).mpr hkeep)]

/-- The rows of a query on a store that is ready: what its stages make of the planned source. -/
lemma allRows_of_ready (hready : s.waitReady = .ok ()) (c : Coding α) (q : Query α) :
    s.allRows c q = .ok ((q.stages.foldl (fun rows stage => rows.apply (s.decode? c) c.document stage)
      (Rows.ofKeys (s.decode? c) (Plan.make s.toc s.indexes q).1.strategy.isEager
        (Plan.make s.toc s.indexes q).2)).all (s.decode? c)) := by
  rw [allRows, rows, plan, hready]
  rfl

/-- A query gives what its stages make of the entities that are planned. -/
lemma Serves.toList_eq (hs : s.Serves held used n) (hl : Spelled c live held) (q : Query α) :
    s.toList c q = .ok (q.stages.foldl (fun xs stage => stage.eval c.document xs)
      ((Plan.make s.toc s.indexes q).2.filterMap live)) := by
  have hsource : ∀ eager, (Rows.ofKeys (s.decode? c) eager (Plan.make s.toc s.indexes q).2).all
      (s.decode? c) = Rows.given ((Plan.make s.toc s.indexes q).2.filterMap live) :=
    Rows.all_ofKeys fun k _ => hs.decode? hl k
  rw [toList, allRows_of_ready (waitReady_of_succeeded hs.poised.signal),
    Rows.all_foldl (hsource _) q.stages]
  exact Rows.entities_given _

/-- **A query gives what its stages make of the live entities** in the order of the file, whether
an index narrows the source or not. -/
theorem Serves.toList_eq_eval (hs : s.Serves held used n) (hl : Spelled c live held)
    {known : α → Prop}
    (hindexes : ∀ x ∈ s.indexes, x.Follows (fun d => ∃ x, known x ∧ c.document x = d)
      fun k => (live k).map c.document) (q : Query α)
    (hcoherent : ∀ path v found,
      Plan.covered s.indexes (Plan.equalitiesOf q.stages) = some (path, v, found) →
        q.Coherent c.document known (fun x => ∃ k, live k = some x) path v) :
    s.toList c q = .ok (q.eval c.document (entitiesOf live s.toc.activeEntries)) := by
  obtain ⟨row, hsound⟩ := hs.holds.sound
  rw [hs.toList_eq hl, Query.eval]
  cases hcovered : Plan.covered s.indexes (Plan.equalitiesOf q.stages) with
  | none =>
    have hkeys : (Plan.make s.toc s.indexes q).2 = s.toc.activeEntries.map (·.key) := by
      rw [Plan.make, hcovered]
    rw [hkeys, List.filterMap_map]
    rfl
  | some answer =>
    obtain ⟨path, v, found⟩ := answer
    have hkeys : (Plan.make s.toc s.indexes q).2 =
        (Plan.liveEntries s.toc found).map (·.key) := by
      rw [Plan.make, hcovered]
    obtain ⟨hvalues, horders⟩ := hcoherent path v found hcovered
    obtain ⟨hmem, x, hx, hcovers, rfl⟩ := Plan.covered_eq_some hcovered
    -- The lookup finds the entities whose value ranks equal, which are more than the filter wants.
    have hranks : ∀ k y, live k = some y → (k ∈ x.lookup path v ↔
        ((path.valueOrNull (c.document y)).rankCompare v == .eq) = true) := by
      intro k y hy
      rw [(hindexes x hx).mem_lookup hcovers hvalues, hy, beq_iff_eq]
      constructor
      · rintro ⟨d, hd, hrank⟩
        cases hd
        exact hrank
      · exact fun hrank => ⟨_, rfl, hrank⟩
    have hsource : (Plan.make s.toc s.indexes q).2.filterMap live =
        (entitiesOf live s.toc.activeEntries).filter
          fun y => (path.valueOrNull (c.document y)).rankCompare v == .eq := by
      have hentries := Plan.liveEntries_eq hsound.described (x.lookup path v)
      rw [hkeys, List.filterMap_map]
      exact (congrArg (entitiesOf live) hentries).trans (entitiesOf_filter hranks _)
    rw [hsource]
    exact congrArg Except.ok (Plan.eval_narrow (fun y _ hrank => beq_iff_eq.mpr hrank) hmem horders
      fun y hy => mem_entitiesOf hy)

end Store

end SlotStore
