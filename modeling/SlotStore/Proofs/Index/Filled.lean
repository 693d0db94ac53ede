import Mathlib.Tactic.Common
import SlotStore.Proofs.Index.History

/-!
# Indexes that were filled

An index into which documents were put under distinct keys, and nothing else, holds exactly these:
it has a row for each of them, each column has one cell for each of them, with the value of its
field, and no lookup finds any other key.  Nothing is assumed of the values; only for the order of a
column, and so for what a lookup finds, they have to be coherent.

* `FieldIndex.filled` : an index into which documents were put;
* `FieldIndex.Holds`, `FieldIndex.holds_filled` : what it holds.
-/

namespace SlotStore

namespace FieldIndex

variable {x : FieldIndex} {paths : List FieldPath} {docs : List (Key × Document)} {k : Key}
  {d : Document} {path : FieldPath} {v : Value}

/-- The calls that put documents in. -/
def puts (docs : List (Key × Document)) : List Call := docs.map fun p => .upsert p.1 p.2

/-- An index over some paths into which documents were put. -/
def filled (paths : List FieldPath) (docs : List (Key × Document)) : FieldIndex :=
  after paths (puts docs)

/-- **An index holds exactly some documents.** -/
structure Holds (x : FieldIndex) (docs : List (Key × Document)) : Prop where
  size : x.size = docs.length
  rows : ∀ k row, x.rows.get? k = some row ↔
    ∃ d, (k, d) ∈ docs ∧ row = ⟨k, x.paths.map (·.valueOrNull d)⟩
  cells : ∀ c ∈ x.columns, c.cells.Perm (docs.map fun p => cellOf c.path p.1 p.2)
  /-- A lookup finds no other key, whatever the values are. -/
  found : ∀ path v k, k ∈ x.lookup path v → k ∈ docs.map Prod.fst
  /-- A lookup finds all keys of its value, in ascending order, if the values are coherent. -/
  lookup : ∀ path v, x.covers path = true →
    (Value.Coherent fun w => w = v ∨ ValuesAt path (fun d => ∃ k, (k, d) ∈ docs) w) →
    (x.lookup path v).Pairwise (fun a b => a.compare b = .lt) ∧
      ∀ k, k ∈ x.lookup path v ↔ ∃ d, (k, d) ∈ docs ∧ (path.valueOrNull d).rankCompare v = .eq

/-! ## Documents under distinct keys -/

lemma mem_puts : Call.upsert k d ∈ puts docs ↔ (k, d) ∈ docs := by
  simp [puts]

lemma puts_append (docs : List (Key × Document)) (k : Key) (d : Document) :
    puts (docs ++ [(k, d)]) = puts docs ++ [.upsert k d] := by
  simp [puts]

lemma filled_append (paths : List FieldPath) (docs : List (Key × Document)) (k : Key)
    (d : Document) : filled paths (docs ++ [(k, d)]) = (filled paths docs).upsert k d := by
  rw [filled, puts_append, after, List.foldl_append]
  rfl

/-- With distinct keys, the latest document of a key is the one that was put in. -/
lemma latest_puts (hdistinct : (docs.map Prod.fst).Nodup) :
    latest (puts docs) k = some d ↔ (k, d) ∈ docs := by
  induction docs using List.reverseRecOn with
  | nil => simp [latest, puts]
  | append_singleton docs last ih =>
    obtain ⟨j, e⟩ := last
    simp only [List.map_append, List.map_cons, List.map_nil, List.nodup_append] at hdistinct
    have hother : ∀ d, (j, d) ∉ docs := fun d hmem =>
      hdistinct.2.2 j (List.mem_map_of_mem hmem) j (List.mem_singleton_self j) rfl
    rw [puts_append, latest_append, Call.leaves]
    by_cases hk : k = j
    · subst hk
      simp [hother, eq_comm]
    · simp [hk, ih hdistinct.1]

/-- An index that is filled follows its documents. -/
lemma follows_filled (paths : List FieldPath) (docs : List (Key × Document)) :
    (filled paths docs).Follows (fun d => ∃ k, (k, d) ∈ docs) (latest (puts docs)) := by
  have hafter := (follows_after paths (puts docs)).1
  simp only [mem_puts] at hafter
  exact hafter

lemma paths_filled (paths : List FieldPath) (docs : List (Key × Document)) :
    (filled paths docs).paths = paths :=
  (follows_after paths (puts docs)).2

/-! ## Cells -/

/-- A cell that is inserted joins the others. -/
lemma Column.perm_insert (c : Column) (cell : Cell) :
    (c.insert cell).cells.Perm (cell :: c.cells) :=
  List.perm_insertIdx cell c.cells (Sorting.search_le _ _)

/-- A document under a new key is one cell more in each column. -/
lemma columns_upsert {known : Document → Prop} {all : Key → Option Document}
    (hx : x.Follows known all) (hk : all k = none) :
    (x.upsert k d).columns = x.columns.map fun c => c.insert (cellOf c.path k d) := by
  have hremove : x.remove k = x := by
    rw [FieldIndex.remove, hx.rows k, hk]
    rfl
  rw [hx.upsert_eq, hremove]

/-- **The columns of a filled index** hold one cell for each document. -/
lemma cells_filled (hdistinct : (docs.map Prod.fst).Nodup) :
    ∀ c ∈ (filled paths docs).columns, c.cells.Perm (docs.map fun p => cellOf c.path p.1 p.2) := by
  induction docs using List.reverseRecOn with
  | nil =>
    intro c hc
    obtain ⟨path, -, rfl⟩ := List.mem_map.mp hc
    exact .refl []
  | append_singleton docs last ih =>
    obtain ⟨j, e⟩ := last
    have hnew : j ∉ docs.map Prod.fst ∧ (docs.map Prod.fst).Nodup := by
      have hperm : (docs.map Prod.fst ++ [j]).Perm (j :: docs.map Prod.fst) :=
        List.perm_append_singleton j _
      rw [List.map_append] at hdistinct
      exact List.nodup_cons.mp (hperm.nodup_iff.mp hdistinct)
    have hnone : latest (puts docs) j = none := by
      refine Option.eq_none_iff_forall_ne_some.mpr fun d hd => hnew.1 ?_
      exact List.mem_map_of_mem ((latest_puts hnew.2).mp hd)
    intro c hc
    rw [filled_append, columns_upsert (follows_filled paths docs) hnone] at hc
    obtain ⟨old, hold, rfl⟩ := List.mem_map.mp hc
    have hinsert := old.perm_insert (cellOf old.path j e)
    have hcons := (ih hnew.2 old hold).cons (cellOf old.path j e)
    have hsnoc : (docs ++ [(j, e)]).map (fun p => cellOf old.path p.1 p.2) =
        docs.map (fun p => cellOf old.path p.1 p.2) ++ [cellOf old.path j e] := by simp
    exact (hinsert.trans hcons).trans (hsnoc ▸ (List.perm_append_singleton _ _).symm)

/-- A lookup finds keys of cells. -/
lemma mem_lookup_cells (hk : k ∈ x.lookup path v) :
    ∃ c ∈ x.columns, ∃ cell ∈ c.cells, cell.key = k := by
  rw [FieldIndex.lookup] at hk
  cases hfind : x.columns.find? (·.path = path) with
  | none =>
    rw [hfind] at hk
    cases hk
  | some c =>
    rw [hfind] at hk
    obtain ⟨cell, hcell, hkey⟩ := List.mem_map.mp hk
    exact ⟨c, List.mem_of_find?_eq_some hfind, cell,
      List.mem_of_mem_take (List.mem_of_mem_drop hcell), hkey⟩

/-! ## What is held -/

/-- **An index that was filled holds exactly the documents**, if their keys are distinct. -/
theorem holds_filled (paths : List FieldPath) (hdistinct : (docs.map Prod.fst).Nodup) :
    (filled paths docs).Holds docs where
  size := by
    obtain ⟨keys, hnodup, hkeys, hsize⟩ := (follows_filled paths docs).size_eq
    have hperm : keys.Perm (docs.map Prod.fst) := by
      refine (List.perm_ext_iff_of_nodup hnodup hdistinct).mpr fun k => ?_
      simp [hkeys, Option.isSome_iff_exists, latest_puts hdistinct]
    rw [hsize, hperm.length_eq, List.length_map]
  rows k row := by
    rw [(follows_filled paths docs).rows k, Option.map_eq_some_iff]
    simp only [latest_puts hdistinct, eq_comm]
  cells := cells_filled hdistinct
  found path v k hk := by
    obtain ⟨c, hc, cell, hcell, rfl⟩ := mem_lookup_cells hk
    obtain ⟨p, hp, rfl⟩ := List.mem_map.mp ((cells_filled hdistinct c hc).subset hcell)
    exact List.mem_map_of_mem hp
  lookup path v hcovers hcoherent := by
    have hx := follows_filled paths docs
    refine ⟨hx.lookup_sorted hcovers hcoherent, fun k => ?_⟩
    simp only [hx.mem_lookup hcovers hcoherent, latest_puts hdistinct]

end FieldIndex

end SlotStore
