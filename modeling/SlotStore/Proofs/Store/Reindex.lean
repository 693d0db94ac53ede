import Mathlib.Tactic.Common
import SlotStore.Proofs.Index.Filled
import SlotStore.Proofs.Store.Indexed
import SlotStore.Proofs.Store.Life

/-!
# Rebuilding indexes

A rebuild clears all indexes and puts the live entities in, in the order of the file.  If it comes
to an entity that cannot be decoded it fails, and the indexes are left with the entities in front of
that one.  Nothing is assumed of the store, whose file may hold anything, or of its indexes.

* `Store.Walk` : the live entities up to the first that cannot be decoded;
* `Store.reindex_of_walk` : the rebuild as one equation;
* `Store.Refilled`, `Store.reindex_exact` : what the indexes hold afterwards, and when a rebuild
  that fails leaves all lookups as they were;
* `Life.reindex_loses` : a rebuild that fails and loses an entity that can be decoded.
-/

namespace SlotStore

open Steps

variable {α : Type}

namespace Store

variable {c : Coding α} {s s' : Store} {k : Key} {ks : List Key} {x : α} {xs : List (Key × α)}
  {e : Error} {r : Except Error Unit} {indexes : List FieldIndex}

/-! ## The walk over the entities -/

/-- **A walk over keys** that decodes the entity of each, up to the first that cannot be decoded. -/
inductive Walk (c : Coding α) (s : Store) : List Key → List (Key × α) → Except Error Unit → Prop
  | done : Walk c s [] [] (.ok ())
  | failed {k : Key} {ks : List Key} {e : Error} (hk : s.decode? c k = .error e) :
    Walk c s (k :: ks) [] (.error e)
  | next {k : Key} {ks : List Key} {x : α} {xs : List (Key × α)} {r : Except Error Unit}
    (hk : s.decode? c k = .ok (some x)) (hwalk : Walk c s ks xs r) :
    Walk c s (k :: ks) ((k, x) :: xs) r

/-- A key that is alive does not decode to nothing. -/
lemma decode?_ne_none {d : Entry} (hd : d ∈ s.toc.activeEntries) :
    s.decode? c d.key ≠ .ok none := by
  have hmem : d ∈ s.toc.entries.items ∧ d.isFree = false := by
    have hactive := (Toc.perm_byOffset _).mem_iff.mp hd
    rw [List.mem_filter] at hactive
    exact ⟨hactive.1, by simpa using (Bool.and_eq_true_iff.mp hactive.2).1⟩
  have hfind : s.toc.find? d.key = some d := (Keyed.mem_iff_get? _ _).mp hmem.1
  intro hnone
  simp only [decode?, hfind, hmem.2, bind, Except.bind, pure, Except.pure, Bool.false_eq_true,
    if_false] at hnone
  repeat' split at hnone
  all_goals cases hnone

/-- **Every list of keys can be walked**, up to the first that cannot be decoded. -/
lemma exists_walk (c : Coding α) (s : Store) (ks : List Key)
    (hlive : ∀ k ∈ ks, s.decode? c k ≠ .ok none) : ∃ xs r, Walk c s ks xs r := by
  induction ks with
  | nil => exact ⟨[], _, .done⟩
  | cons k ks ih =>
    obtain ⟨xs, r, hwalk⟩ := ih fun j hj => hlive j (List.mem_cons_of_mem k hj)
    cases hk : s.decode? c k with
    | error e => exact ⟨[], _, .failed hk⟩
    | ok found =>
      cases found with
      | none => exact absurd hk (hlive k List.mem_cons_self)
      | some x => exact ⟨(k, x) :: xs, r, .next hk hwalk⟩

namespace Walk

/-- Whatever was walked was decoded. -/
lemma decoded (h : Walk c s ks xs r) : ∀ p ∈ xs, s.decode? c p.1 = .ok (some p.2) := by
  induction h with
  | done => exact nofun
  | failed => exact nofun
  | next hk _ ih => exact List.forall_mem_cons.mpr ⟨hk, ih⟩

/-- A walk that comes to its end has decoded all entities. -/
lemma keys_of_ok (h : Walk c s ks xs r) (hr : r = .ok ()) : xs.map Prod.fst = ks := by
  induction h with
  | done => rfl
  | failed => cases hr
  | next _ _ ih => exact congrArg (_ :: ·) (ih hr)

/-- A walk that fails has decoded the entities in front of one that cannot be decoded. -/
lemma keys_of_error (h : Walk c s ks xs r) (hr : r = .error e) :
    ∃ k back, ks = xs.map Prod.fst ++ k :: back ∧ s.decode? c k = .error e := by
  induction h with
  | done => cases hr
  | @failed k ks e hk =>
    cases hr
    exact ⟨k, ks, rfl, hk⟩
  | next _ _ ih =>
    obtain ⟨k, back, rfl, hk⟩ := ih hr
    exact ⟨k, back, rfl, hk⟩

/-- The keys that were decoded are the first ones. -/
lemma keys_sublist (h : Walk c s ks xs r) : (xs.map Prod.fst).Sublist ks := by
  induction h with
  | done => exact .slnil
  | failed => exact List.nil_sublist _
  | next _ _ ih => exact ih.cons_cons _

end Walk

/-! ## The rebuild -/

/-- The documents of entities, as queries and indexes see them. -/
def shown (c : Coding α) (xs : List (Key × α)) : List (Key × Document) :=
  xs.map fun p => (p.1, c.document p.2)

lemma keys_shown (c : Coding α) (xs : List (Key × α)) :
    (shown c xs).map Prod.fst = xs.map Prod.fst := by
  simp [shown]

/-- Documents are put into an index. -/
def putAll (docs : List (Key × Document)) (x : FieldIndex) : FieldIndex :=
  docs.foldl (fun x p => x.upsert p.1 p.2) x

/-- An index that is cleared and filled is a new one. -/
lemma putAll_clear (docs : List (Key × Document)) (x : FieldIndex) :
    putAll docs x.clear = FieldIndex.filled x.paths docs := by
  rw [putAll, FieldIndex.filled, FieldIndex.after, FieldIndex.puts, List.foldl_map]
  rfl

lemma map_putAll_nil (indexes : List FieldIndex) : indexes.map (putAll []) = indexes :=
  List.map_id indexes

lemma map_putAll_cons (k : Key) (d : Document) (docs : List (Key × Document))
    (indexes : List FieldIndex) :
    (indexes.map (·.upsert k d)).map (putAll docs) = indexes.map (putAll ((k, d) :: docs)) :=
  List.map_map

/-- **Rebuilding puts in what was walked**, and counts it unless the walk failed. -/
lemma indexAll_of_walk (h : Walk c s ks xs r) (indexes : List FieldIndex) :
    indexAll c ks { s with indexes } =
      match r with
      | .ok () => .ok xs.length { s with indexes := indexes.map (putAll (shown c xs)) }
      | .error e => .error e { s with indexes := indexes.map (putAll (shown c xs)) } := by
  induction h generalizing indexes with
  | done =>
    rw [shown, List.map_nil, map_putAll_nil]
    rfl
  | @failed k ks e hk =>
    have hfails : orFail (decode? c { s with indexes } k) { s with indexes } =
        .error e { s with indexes } := by
      rw [show decode? c { s with indexes } k = .error e from hk]
      rfl
    rw [indexAll, get_bind, bind_of_error hfails, shown, List.map_nil, map_putAll_nil]
  | @next k ks x xs r hk _ ih =>
    have hdecodes : orFail (decode? c { s with indexes } k) { s with indexes } =
        .ok (some x) { s with indexes } := by
      rw [show decode? c { s with indexes } k = .ok (some x) from hk]
      rfl
    have hrest := ih (indexes.map (·.upsert k (c.document x)))
    rw [map_putAll_cons] at hrest
    rw [indexAll, get_bind, bind_of_ok hdecodes]
    dsimp only
    rw [modify_bind]
    cases r with
    | ok _ => exact bind_of_ok hrest
    | error e => exact bind_of_error hrest

/-- The store with its indexes filled with some entities. -/
def refilled (c : Coding α) (s : Store) (xs : List (Key × α)) : Store :=
  { s with indexes := s.indexes.map fun x => .filled x.paths (shown c xs) }

/-- **A rebuild** waits for the table, and then fills the indexes along the walk over the live
entities. -/
lemma reindex_of_walk (h : Walk c s (s.toc.activeEntries.map (·.key)) xs r) :
    reindex c s =
      match s.waitReady, r with
      | .error e, _ => .error e s
      | .ok (), .ok () => .ok xs.length (s.refilled c xs)
      | .ok (), .error e => .error e (s.refilled c xs) := by
  rw [reindex, get_bind]
  cases hwait : s.waitReady with
  | error e => rfl
  | ok _ =>
    have hready : orFail (Except.ok ()) s = .ok () s := rfl
    have hfill := indexAll_of_walk h (s.indexes.map (·.clear))
    have hfilled : (s.indexes.map (·.clear)).map (putAll (shown c xs)) =
        (s.refilled c xs).indexes := by
      rw [List.map_map]
      exact List.map_congr_left fun x _ => putAll_clear _ x
    rw [hfilled] at hfill
    rw [bind_of_ok hready, modify_bind, get_bind]
    cases r <;> exact hfill

/-! ## What the indexes hold afterwards -/

/-- All lookups on all indexes give what they gave before. -/
def SameLookups (s s' : Store) : Prop :=
  ∀ path v, s'.indexes.map (·.lookup path v) = s.indexes.map (·.lookup path v)

/-- **The indexes were filled again**, with some entities that decode, and with no others. -/
structure Refilled (c : Coding α) (s s' : Store) (xs : List (Key × α)) : Prop where
  decoded : ∀ p ∈ xs, s.decode? c p.1 = .ok (some p.2)
  /-- Nothing but the indexes has changed, and these are for the same paths. -/
  store : s' = { s with indexes := s'.indexes }
  paths : s'.indexes.map (·.paths) = s.indexes.map (·.paths)
  holds : ∀ x ∈ s'.indexes, x.Holds (shown c xs)
  /-- Lookups give what they gave before if each index gave what these entities make it give. -/
  same : SameLookups s s' ↔ ∀ x ∈ s.indexes, ∀ path v,
    x.lookup path v = (FieldIndex.filled x.paths (shown c xs)).lookup path v
  /-- An index that found any other entity has lost it. -/
  lost : ∀ x ∈ s.indexes, ∀ path v, ∀ k ∈ x.lookup path v, k ∉ xs.map Prod.fst →
    ¬ SameLookups s s'

/-- The indexes are those of the entities that were walked. -/
lemma refilled_refilled (hdecoded : ∀ p ∈ xs, s.decode? c p.1 = .ok (some p.2))
    (hdistinct : (xs.map Prod.fst).Nodup) : Refilled c s (s.refilled c xs) xs := by
  have hkeys : ((shown c xs).map Prod.fst).Nodup := keys_shown c xs ▸ hdistinct
  have hsame : SameLookups s (s.refilled c xs) ↔ ∀ x ∈ s.indexes, ∀ path v,
      x.lookup path v = (FieldIndex.filled x.paths (shown c xs)).lookup path v := by
    simp only [SameLookups, refilled, List.map_map, List.map_inj_left, Function.comp_apply]
    exact ⟨fun h x hx path v => (h path v x hx).symm, fun h path v x hx => (h x hx path v).symm⟩
  refine ⟨hdecoded, rfl, ?_, fun x hx => ?_, hsame, fun x hx path v k hk hother h => hother ?_⟩
  · rw [refilled, List.map_map]
    exact List.map_congr_left fun x _ => FieldIndex.paths_filled x.paths _
  · obtain ⟨old, _, rfl⟩ := List.mem_map.mp hx
    exact FieldIndex.holds_filled old.paths hkeys
  · have hfilled := FieldIndex.holds_filled x.paths hkeys
    rw [hsame.mp h x hx path v] at hk
    exact keys_shown c xs ▸ hfilled.found path v k hk

/-- **A rebuild that succeeds has filled the indexes with all live entities, and one that fails with
those in front of an entity that cannot be decoded.**  Only if it fails because of the table has
nothing changed.  Lookups give what they gave before exactly if each index gave before what it gives
after being filled; so they do not if any index had found the entity in question or a later one. -/
theorem reindex_exact (c : Coding α) (s : Store) :
    match reindex c s with
    | .ok n s' => ∃ xs, xs.map Prod.fst = s.toc.activeEntries.map (·.key) ∧ n = xs.length ∧
      Refilled c s s' xs
    | .error e s' => s.waitReady = .error e ∧ s' = s ∨
      s.waitReady = .ok () ∧ ∃ xs k back,
        s.toc.activeEntries.map (·.key) = xs.map Prod.fst ++ k :: back ∧
        s.decode? c k = .error e ∧ Refilled c s s' xs := by
  have hlive : ∀ k ∈ s.toc.activeEntries.map (·.key), s.decode? c k ≠ .ok none := by
    intro k hk
    obtain ⟨d, hd, rfl⟩ := List.mem_map.mp hk
    exact decode?_ne_none hd
  have hdistinct : (s.toc.activeEntries.map (·.key)).Nodup :=
    List.pairwise_map.mpr s.toc.activeEntries_distinct
  obtain ⟨xs, r, hwalk⟩ := exists_walk c s _ hlive
  have hrefilled : Refilled c s (s.refilled c xs) xs :=
    refilled_refilled hwalk.decoded (hdistinct.sublist hwalk.keys_sublist)
  rw [reindex_of_walk hwalk]
  cases hwait : s.waitReady with
  | error e => exact .inl ⟨rfl, rfl⟩
  | ok _ =>
    cases r with
    | ok _ => exact ⟨xs, hwalk.keys_of_ok rfl, rfl, hrefilled⟩
    | error e =>
      obtain ⟨k, back, hkeys, hk⟩ := hwalk.keys_of_error rfl
      exact .inr ⟨rfl, xs, k, back, hkeys, hk, hrefilled⟩

end Store

/-! ## A damaged entity in front of another -/

namespace Spoiled

open Rounded (coding)

/-- Two numbers with an index over them. -/
def before : Store :=
  let indexed := final (Store.attach (.ofPaths [⟨[]⟩]) Store.fresh)
  let one := (indexed.perform coding (.add (.filled 1) (.int 7))).2
  (one.perform coding (.add (.filled 2) (.int 8))).2

/-- The same store after the payload of the first number was overwritten. -/
def store : Store := { before.setContent (before.file.content.write 36 [9]) with shadow := .absent }

/-- One payload is damaged. -/
lemma life : Life coding store :=
  .altered (.performed (.performed (.attached (.opened Store.openFile_fresh) _) _) _) _ _

/-- The damaged entity comes first. -/
lemma keys : store.toc.activeEntries.map (·.key) = [.filled 1, .filled 2] := by
  rw [Toc.activeEntries_eq_reverse (t := store.toc) (by decide +kernel)]
  decide +kernel

/-- The walk ends at the first number. -/
lemma walk : Store.Walk coding store (store.toc.activeEntries.map (·.key)) []
    (.error (.corruption 0 .checksumMismatch)) := by
  rw [keys]
  exact .failed rfl

end Spoiled

open Spoiled Rounded in
/-- **A rebuild that fails loses an entity that can be decoded**: the index found it before, and
then finds nothing for its value. -/
theorem Life.reindex_loses : ∃ s e s', Life coding s ∧ Store.reindex coding s = .error e s' ∧
    s.indexes.map (·.lookup ⟨[]⟩ (.int 8)) = [[.filled 2]] ∧
      s'.indexes.map (·.lookup ⟨[]⟩ (.int 8)) = [[]] ∧
        s'.decode? coding (.filled 2) = .ok (some (.int 8)) := by
  refine ⟨store, _, _, life, Store.reindex_of_walk walk, ?_, ?_, ?_⟩
  · decide +kernel
  · decide +kernel
  · rfl

end SlotStore
