import Mathlib.Tactic.Common
import SlotStore.Proofs.Index.Column

/-!
# Indexes that follow documents

An index follows documents under keys if it knows the values that each of them was put in with, and
if its columns list them.  A column does so as long as the values at its path are coherent, among
all documents that were ever put in: a search in a column that is out of order may miss a cell.

* `FieldIndex.Clear` : paths at which the values of documents are coherent;
* `FieldIndex.Follows` : indexes that follow documents;
* `FieldIndex.Follows.upsert`, `FieldIndex.Follows.remove` : what operations do;
* `FieldIndex.Follows.mem_lookup`, `FieldIndex.Follows.lookup_sorted` : what a lookup finds, and in
  which order;
* `FieldIndex.Follows.size_eq` : how many documents there are.
-/

namespace SlotStore

namespace FieldIndex

variable {x : FieldIndex} {known known' : Document → Prop} {docs : Key → Option Document} {k : Key}
  {d : Document} {path : FieldPath} {v : Value}

/-- The values of documents at a path. -/
def ValuesAt (path : FieldPath) (known : Document → Prop) (v : Value) : Prop :=
  ∃ d, known d ∧ path.valueOrNull d = v

/-- **A path at which the values of documents are coherent.** -/
def Clear (path : FieldPath) (known : Document → Prop) : Prop :=
  Value.Coherent (ValuesAt path known)

/-- **An index that follows documents**, all of them known. -/
structure Follows (x : FieldIndex) (known : Document → Prop) (docs : Key → Option Document) :
    Prop where
  knows : ∀ {k d}, docs k = some d → known d
  rows : ∀ k, x.rows.get? k = (docs k).map fun d => ⟨k, x.paths.map (·.valueOrNull d)⟩
  columns : ∀ c ∈ x.columns, Clear c.path known → c.Lists docs

namespace Follows

lemma mono (hx : x.Follows known docs) (hknown : ∀ d, known d → known' d) :
    x.Follows known' docs where
  knows h := hknown _ (hx.knows h)
  rows := hx.rows
  columns c hc hclear :=
    hx.columns c hc (hclear.mono fun _ ⟨d, hd, hv⟩ => ⟨d, hknown d hd, hv⟩)

/-- An index without entities. -/
lemma ofPaths (paths : List FieldPath) (known : Document → Prop) :
    (FieldIndex.ofPaths paths).Follows known fun _ => none where
  knows h := by cases h
  rows _ := rfl
  columns c hc _ := by
    obtain ⟨path, -, rfl⟩ := List.mem_map.mp hc
    exact Column.lists_empty path

/-- A cell holds the value of a known document. -/
lemma value_known (hx : x.Follows known docs) {c : Column} (hc : c.Lists docs) {cell : Cell}
    (hcell : cell ∈ c.cells) : ValuesAt c.path known cell.value := by
  obtain ⟨d, hd, hcell⟩ := (hc.mem cell).mp hcell
  exact ⟨d, hx.knows hd, congrArg Cell.value hcell.symm⟩

end Follows

lemma zipWith_paths (f : Column → Value → Column) (columns : List Column) (d : Document) :
    List.zipWith f columns ((columns.map (·.path)).map (·.valueOrNull d)) =
      columns.map fun c => f c (c.path.valueOrNull d) := by
  rw [List.map_map, List.zipWith_map_right, List.zipWith_self]
  rfl

lemma paths_map {f : Column → Column} (hf : ∀ c, (f c).path = c.path) (columns : List Column)
    (rows : Keyed Row.key) : FieldIndex.paths ⟨columns.map f, rows⟩ = columns.map (·.path) := by
  rw [paths, List.map_map]
  exact List.map_congr_left fun c _ => hf c

lemma Column.path_remove (c : Column) (cell : Cell) : (c.remove cell).path = c.path := by
  rw [remove]
  split <;> rfl

namespace Follows

/-! ## What operations do -/

/-- Removing a document takes its cell out of each column. -/
lemma remove_eq (hx : x.Follows known docs) (hk : docs k = some d) :
    x.remove k = ⟨x.columns.map fun c => c.remove (cellOf c.path k d), x.rows.erase k⟩ := by
  rw [FieldIndex.remove, hx.rows k, hk]
  exact congrArg (FieldIndex.mk · _) (zipWith_paths _ _ _)

lemma paths_remove (hx : x.Follows known docs) (k : Key) : (x.remove k).paths = x.paths := by
  cases hk : docs k with
  | none => rw [FieldIndex.remove, hx.rows k, hk]; rfl
  | some d =>
    rw [hx.remove_eq hk]
    exact paths_map (fun c => c.path_remove _) _ _

/-- **A document is taken out.** -/
theorem remove (hx : x.Follows known docs) (k : Key) :
    (x.remove k).Follows known fun j => if j = k then none else docs j := by
  cases hk : docs k with
  | none =>
    have hsame : (fun j => if j = k then none else docs j) = docs := by
      funext j
      split
      · rename_i hj
        rw [hj, hk]
      · rfl
    have hremove : x.remove k = x := by
      rw [FieldIndex.remove, hx.rows k, hk]
      rfl
    rw [hsame, hremove]
    exact hx
  | some d =>
    refine ⟨fun {j e} he => ?_, fun j => ?_, fun c hc hclear => ?_⟩
    · split at he
      · cases he
      · exact hx.knows he
    · rw [hx.paths_remove, hx.remove_eq hk]
      show (x.rows.erase k).get? j = _
      rw [Keyed.get?_erase]
      split
      · rfl
      · exact hx.rows j
    · rw [hx.remove_eq hk] at hc
      obtain ⟨old, hold, rfl⟩ := List.mem_map.mp hc
      rw [Column.path_remove] at hclear
      have hl := hx.columns old hold hclear
      exact hl.remove hclear (fun cell hcell => hx.value_known hl hcell) hk

/-- Putting a document in removes the one before, and adds a cell to each column. -/
lemma upsert_eq (hx : x.Follows known docs) (k : Key) (d : Document) :
    x.upsert k d = ⟨(x.remove k).columns.map fun c => c.insert (cellOf c.path k d),
      (x.remove k).rows.put ⟨k, x.paths.map (·.valueOrNull d)⟩⟩ := by
  rw [FieldIndex.upsert, ← hx.paths_remove k]
  exact congrArg (FieldIndex.mk · _) (zipWith_paths _ _ _)

lemma paths_upsert (hx : x.Follows known docs) (k : Key) (d : Document) :
    (x.upsert k d).paths = x.paths := by
  rw [hx.upsert_eq, ← hx.paths_remove k]
  exact paths_map (f := fun c => c.insert (cellOf c.path k d)) (fun _ => rfl) _ _

/-- **A document is put in** in place of what was there. -/
theorem upsert (hx : x.Follows known docs) (k : Key) (hd : known d) :
    (x.upsert k d).Follows known fun j => if j = k then some d else docs j := by
  have hr := hx.remove k
  have heq := hx.upsert_eq k d
  have hpaths := hx.paths_upsert k d
  refine ⟨fun {j e} he => ?_, fun j => ?_, fun c hc hclear => ?_⟩
  · split at he
    · cases he
      exact hd
    · exact hx.knows he
  · rw [hpaths, heq]
    show ((x.remove k).rows.put _).get? j = _
    rw [Keyed.get?_put, hr.rows j, hx.paths_remove]
    dsimp only
    split
    · rename_i hj
      rw [hj]
      rfl
    · rfl
  · rw [heq] at hc
    obtain ⟨old, hold, rfl⟩ := List.mem_map.mp hc
    have hl := hr.columns old hold hclear
    have hput := hl.insert (k := k) (d := d) hclear (fun cell hcell => hr.value_known hl hcell)
      ⟨d, hd, rfl⟩ (if_pos rfl)
    have hsame : (fun j => if j = k then some d else if j = k then none else docs j) =
        fun j => if j = k then some d else docs j := by
      funext j
      split <;> rfl
    rwa [hsame] at hput

/-! ## Lookups -/

/-- A lookup is answered by a column that lists the documents. -/
lemma lookup_eq (hx : x.Follows known docs) (hcovers : x.covers path = true)
    (hclear : Clear path known) : ∃ c : Column, c.path = path ∧ c.Lists docs ∧
      (∀ cell ∈ c.cells, ValuesAt path known cell.value) ∧ ∀ v, x.lookup path v = c.keysOf v := by
  cases hfind : x.columns.find? (·.path = path) with
  | none =>
    obtain ⟨c, hc, hpath⟩ := List.mem_map.mp (List.contains_iff_mem.mp hcovers)
    exact absurd (decide_eq_true hpath) (List.find?_eq_none.mp hfind c hc)
  | some c =>
    have hpath := List.find?_some hfind
    obtain rfl : c.path = path := of_decide_eq_true hpath
    have hl := hx.columns c (List.mem_of_find?_eq_some hfind) hclear
    refine ⟨c, rfl, hl, fun cell hcell => hx.value_known hl hcell, fun v => ?_⟩
    rw [lookup, hfind]

/-- **A lookup finds the documents whose value ranks equal** to the given one, as long as that value
is coherent with those of all documents. -/
theorem mem_lookup (hx : x.Follows known docs) (hcovers : x.covers path = true)
    (hv : Value.Coherent fun w => w = v ∨ ValuesAt path known w) :
    k ∈ x.lookup path v ↔ ∃ d, docs k = some d ∧ (path.valueOrNull d).rankCompare v = .eq := by
  obtain ⟨c, rfl, hl, hvalues, hlookup⟩ := hx.lookup_eq hcovers (hv.mono fun _ => Or.inr)
  rw [hlookup]
  exact hl.mem_keysOf hv (fun cell hcell => Or.inr (hvalues cell hcell)) (Or.inl rfl)

/-- **A lookup gives keys in ascending order**, each of them once. -/
theorem lookup_sorted (hx : x.Follows known docs) (hcovers : x.covers path = true)
    (hv : Value.Coherent fun w => w = v ∨ ValuesAt path known w) :
    (x.lookup path v).Pairwise fun a b => a.compare b = .lt := by
  obtain ⟨c, rfl, hl, hvalues, hlookup⟩ := hx.lookup_eq hcovers (hv.mono fun _ => Or.inr)
  rw [hlookup]
  exact hl.keysOf_sorted hv (fun cell hcell => Or.inr (hvalues cell hcell)) (Or.inl rfl)

/-- **The size of an index** is the number of keys with a document. -/
theorem size_eq (hx : x.Follows known docs) : ∃ keys : List Key, keys.Nodup ∧
    (∀ k, k ∈ keys ↔ (docs k).isSome = true) ∧ x.size = keys.length := by
  refine ⟨x.rows.items.map (·.key), ?_, fun k => ?_, (List.length_map _).symm⟩
  · exact List.pairwise_map.mpr x.rows.distinct
  · have hrow : k ∈ x.rows.items.map (·.key) ↔ (x.rows.get? k).isSome = true := by
      rw [Keyed.get?, List.find?_isSome, List.mem_map]
      simp
    rw [hrow, hx.rows k, Option.isSome_map]

end Follows

end FieldIndex

end SlotStore
