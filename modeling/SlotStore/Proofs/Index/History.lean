import SlotStore.Proofs.Index.Follows

/-!
# What an index answers after some calls

An index is called to put a document in under a key, to take a key out, or to take everything out.
A document is current if no later call is about its key.  After any calls a lookup gives the keys
of the current documents whose value at the path ranks equal to the given one.

* `FieldIndex.Call`, `FieldIndex.after` : calls, and the index after them;
* `FieldIndex.Current`, `FieldIndex.latest_eq_some` : current documents;
* `FieldIndex.Follows.foldl` : the index follows the current documents;
* `FieldIndex.lookup_exact` : lookups among numbers that doubles tell apart.
-/

namespace SlotStore

namespace FieldIndex

/-- A call on an index. -/
inductive Call
  | upsert (k : Key) (d : Document)
  | remove (k : Key)
  | clear

namespace Call

/-- What a call makes of an index. -/
def perform : Call → FieldIndex → FieldIndex
  | upsert k d, x => x.upsert k d
  | remove k, x => x.remove k
  | clear, x => x.clear

/-- The documents that a call leaves. -/
def leaves : Call → (Key → Option Document) → Key → Option Document
  | upsert k d, docs => fun j => if j = k then some d else docs j
  | remove k, docs => fun j => if j = k then none else docs j
  | clear, _ => fun _ => none

/-- Whether a call is about a key. -/
def Touches (k : Key) : Call → Prop
  | upsert j _ => k = j
  | remove j => k = j
  | clear => True

end Call

variable {x : FieldIndex} {known : Document → Prop} {docs : Key → Option Document} {k : Key}
  {d e : Document} {path : FieldPath} {v : Value} {call : Call} {calls : List Call}

/-- A new index over some paths after some calls. -/
def after (paths : List FieldPath) (calls : List Call) : FieldIndex :=
  calls.foldl (fun x call => call.perform x) (ofPaths paths)

/-! ## Current documents -/

/-- **A document is current** under a key: it was put in, and no later call is about the key. -/
def Current (calls : List Call) (k : Key) (d : Document) : Prop :=
  ∃ earlier later, calls = earlier ++ .upsert k d :: later ∧ ∀ call ∈ later, ¬ call.Touches k

/-- The documents after some calls. -/
def latest (calls : List Call) : Key → Option Document :=
  calls.foldl (fun docs call => call.leaves docs) fun _ => none

/-- What a further call leaves of the latest documents. -/
lemma latest_append (calls : List Call) (call : Call) :
    latest (calls ++ [call]) = call.leaves (latest calls) := by
  simp [latest]

/-- The last of some calls puts a document in, or it is not about the key. -/
lemma current_append : Current (calls ++ [call]) k d ↔
    call = .upsert k d ∨ ¬ call.Touches k ∧ Current calls k d := by
  constructor
  · rintro ⟨earlier, later, hsplit, hlater⟩
    rcases List.eq_nil_or_concat later with rfl | ⟨later, last, rfl⟩
    · simp only [List.append_singleton_inj] at hsplit
      exact Or.inl hsplit.2
    · rw [List.concat_eq_append, ← List.cons_append, ← List.append_assoc,
        List.append_singleton_inj] at hsplit
      rcases hsplit with ⟨rfl, rfl⟩
      simp only [List.concat_eq_append, List.forall_mem_append, List.forall_mem_singleton]
        at hlater
      exact Or.inr ⟨hlater.2, earlier, later, rfl, hlater.1⟩
  · rintro (rfl | ⟨htouches, earlier, later, rfl, hlater⟩)
    · exact ⟨calls, [], rfl, by simp⟩
    · refine ⟨earlier, later ++ [call], by simp, ?_⟩
      simp only [List.forall_mem_append, List.forall_mem_singleton]
      exact ⟨hlater, htouches⟩

/-- **The documents after some calls** are the current ones. -/
theorem latest_eq_some : latest calls k = some d ↔ Current calls k d := by
  induction calls using List.reverseRecOn with
  | nil => simp [latest, Current]
  | append_singleton calls call ih =>
    rw [latest_append, current_append, ← ih]
    cases call with
    | upsert j e =>
      by_cases hj : k = j
      · subst hj
        simp [Call.leaves, Call.Touches]
      · simp [Call.leaves, Call.Touches, hj, Ne.symm hj]
    | remove j =>
      by_cases hj : k = j
      · simp [Call.leaves, Call.Touches, hj]
      · simp [Call.leaves, Call.Touches, hj]
    | clear => simp [Call.leaves, Call.Touches]

/-- A key has one current document at most. -/
lemma Current.unique (hd : Current calls k d) (he : Current calls k e) : d = e := by
  rw [← latest_eq_some] at hd he
  exact Option.some.inj (hd.symm.trans he)

/-! ## Runs -/

lemma paths_ofPaths (paths : List FieldPath) : (ofPaths paths).paths = paths := by
  simp [ofPaths, FieldIndex.paths, Function.comp_def]

/-- **One call** of an index that follows documents. -/
theorem Follows.perform (hx : x.Follows known docs) (call : Call)
    (hcall : ∀ k d, call = .upsert k d → known d) :
    (call.perform x).Follows known (call.leaves docs) ∧ (call.perform x).paths = x.paths := by
  cases call with
  | upsert k d => exact ⟨hx.upsert k (hcall k d rfl), hx.paths_upsert k d⟩
  | remove k => exact ⟨hx.remove k, hx.paths_remove k⟩
  | clear => exact ⟨.ofPaths _ _, paths_ofPaths _⟩

/-- **Some calls** of an index that follows documents. -/
theorem Follows.foldl (hx : x.Follows known docs)
    (hcalls : ∀ k d, .upsert k d ∈ calls → known d) :
    (calls.foldl (fun x call => call.perform x) x).Follows known
        (calls.foldl (fun docs call => call.leaves docs) docs) ∧
      (calls.foldl (fun x call => call.perform x) x).paths = x.paths := by
  induction calls generalizing x docs with
  | nil => exact ⟨hx, rfl⟩
  | cons call calls ih =>
    simp only [List.mem_cons] at hcalls
    obtain ⟨hstep, hpaths⟩ := hx.perform call fun k d hcall => hcalls k d (.inl hcall.symm)
    obtain ⟨hrun, hsame⟩ := ih hstep fun k d hmem => hcalls k d (.inr hmem)
    exact ⟨hrun, hsame.trans hpaths⟩

/-- **An index follows its calls**, and keeps its paths. -/
lemma follows_after (paths : List FieldPath) (calls : List Call) :
    (after paths calls).Follows (fun d => ∃ k, .upsert k d ∈ calls) (latest calls) ∧
      (after paths calls).paths = paths := by
  have hnew := Follows.ofPaths paths fun d => ∃ k, .upsert k d ∈ calls
  obtain ⟨hrun, hpaths⟩ := hnew.foldl fun k d (hmem : .upsert k d ∈ calls) => ⟨k, hmem⟩
  exact ⟨hrun, hpaths.trans (paths_ofPaths paths)⟩

/-! ## Lookups -/

lemma nodup_of_ascending {keys : List Key} (h : keys.Pairwise fun a b => a.compare b = .lt) :
    keys.Nodup := by
  refine h.imp fun hlt heq => ?_
  rw [Key.compare_eq_eq.mpr heq] at hlt
  cases hlt

/-- **A lookup is exact.** -/
structure Exact (calls : List Call) (path : FieldPath) (v : Value) (found : List Key) : Prop where
  ascending : found.Pairwise fun a b => a.compare b = .lt
  once : found.Nodup
  /-- The keys found are those of current documents with such a value. -/
  mem : ∀ k, k ∈ found ↔ ∃ d, Current calls k d ∧ (path.valueOrNull d).rankCompare v = .eq
  /-- What was put in under a key earlier does not matter. -/
  replaced : ∀ k d, Current calls k d → (k ∈ found ↔ (path.valueOrNull d).rankCompare v = .eq)

/-- **Lookups are exact** after any calls, and the size is the number of keys with a current
document, as long as the integers among the values at the path are no larger than `2 ^ 53`. -/
theorem lookup_exact (paths : List FieldPath) (calls : List Call) (hpath : path ∈ paths)
    (hcalls : ∀ k d, .upsert k d ∈ calls → ∀ n, path.valueOrNull d = .int n → n.natAbs ≤ 2 ^ 53)
    (hv : ∀ n, v = .int n → n.natAbs ≤ 2 ^ 53) :
    Exact calls path v ((after paths calls).lookup path v) ∧
      ∃ keys : List Key, keys.Nodup ∧ (∀ k, k ∈ keys ↔ ∃ d, Current calls k d) ∧
        (after paths calls).size = keys.length := by
  obtain ⟨hfollows, hpaths⟩ := follows_after paths calls
  have hcovers : (after paths calls).covers path = true := by
    rw [covers, hpaths]
    exact List.contains_iff_mem.mpr hpath
  have hcoherent : Value.Coherent fun w =>
      w = v ∨ ValuesAt path (fun d => ∃ k, .upsert k d ∈ calls) w := by
    refine Value.coherent_of_le ?_
    rintro n (hn | ⟨d, ⟨k, hmem⟩, hn⟩)
    · exact hv n hn.symm
    · exact hcalls k d hmem n hn
  have hmem : ∀ k, k ∈ (after paths calls).lookup path v ↔
      ∃ d, Current calls k d ∧ (path.valueOrNull d).rankCompare v = .eq := by
    simp only [hfollows.mem_lookup hcovers hcoherent, latest_eq_some, implies_true]
  have hsorted := hfollows.lookup_sorted hcovers hcoherent
  refine ⟨⟨hsorted, nodup_of_ascending hsorted, hmem, fun k d hd => ?_⟩, ?_⟩
  · rw [hmem k]
    refine ⟨?_, fun h => ⟨d, hd, h⟩⟩
    rintro ⟨e, he, h⟩
    rwa [hd.unique he]
  · obtain ⟨keys, hnodup, hkeys, hsize⟩ := hfollows.size_eq
    refine ⟨keys, hnodup, fun k => ?_, hsize⟩
    simp only [hkeys, Option.isSome_iff_exists, latest_eq_some]

namespace Ages

def key (b : UInt8) : Key := (Key.ofBytes? (List.replicate 16 b)).getD .reserved

/-- A document with an age. -/
def aged (age : Document) : Document := .object [("age", age)]

/-- Ages of which an integer and a float are equal, and ages that are replaced, missing, taken out
and as large as they may be. -/
def story : List Call :=
  [.upsert (key 3) (aged (.float ⟨0x3FF0000000000000⟩)), .upsert (key 4) (aged (.int 1)),
    .clear, .upsert (key 2) (aged (.float ⟨0x3FF0000000000000⟩)), .upsert (key 1) (aged (.int 1)),
    .upsert (key 3) (aged (.int 1)), .upsert (key 3) (.object []),
    .upsert (key 4) (aged (.int 9007199254740992)), .upsert (key 5) (aged (.int 1)),
    .remove (key 5)]

lemma small (k : Key) (d : Document) (h : .upsert k d ∈ story) (n : Int)
    (hn : FieldPath.valueOrNull ⟨["age"]⟩ d = .int n) : n.natAbs ≤ 2 ^ 53 := by
  simp only [story, List.mem_cons, List.not_mem_nil, Call.upsert.injEq, reduceCtorEq, or_false,
    false_or] at h
  rcases h with ⟨-, rfl⟩ | ⟨-, rfl⟩ | ⟨-, rfl⟩ | ⟨-, rfl⟩ | ⟨-, rfl⟩ | ⟨-, rfl⟩ | ⟨-, rfl⟩ |
    ⟨-, rfl⟩ <;> cases hn <;> decide

end Ages

open Ages

/-- The integer and the float are found, each once. -/
theorem lookup_exact_ages : (after [⟨["age"]⟩] story).lookup ⟨["age"]⟩ (.int 1) = [key 1, key 2] ∧
    Exact story ⟨["age"]⟩ (.int 1) ((after [⟨["age"]⟩] story).lookup ⟨["age"]⟩ (.int 1)) ∧
      ∃ keys : List Key, keys.Nodup ∧ (∀ k, k ∈ keys ↔ ∃ d, Current story k d) ∧
        (after [⟨["age"]⟩] story).size = keys.length := by
  refine ⟨by decide +kernel, lookup_exact [⟨["age"]⟩] story List.mem_cons_self small ?_⟩
  rintro n ⟨⟩
  decide

end FieldIndex

end SlotStore
