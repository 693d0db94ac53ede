import Mathlib.Tactic.Common
import SlotStore.FieldPath

/-!
# Dotted paths

The parts of a text lie between its dots, and empty parts lead nowhere.  Two texts lead to the same
nodes of every document exactly if they differ only in empty parts, and of all such texts one is
printed.  A dot between two texts makes a path that goes on where the first one ends.

* `FieldPath.Spells`, `FieldPath.spells_iff` : a text and its parts;
* `FieldPath.Alike`, `FieldPath.parse_eq_iff` : parts and texts that differ only in empty parts;
* `FieldPath.parse_text`, `FieldPath.parse_dot` : printed paths, and texts with a dot between them;
* `FieldPath.eq_of_resolve?_eq` : different paths lead to different nodes of some document;
* `FieldPath.Dotted`, `FieldPath.dotted_paths` : how texts of paths compose, print and resolve.
-/

namespace SlotStore

namespace FieldPath

variable {s t : String} {parts parts' : List String} {p q : FieldPath}

/-! ## Parts -/

/-- **A text is spelled by parts** without dots that have single dots between them. -/
structure Spells (parts : List String) (s : String) : Prop where
  any : parts ≠ []
  undotted : ∀ part ∈ parts, '.' ∉ part.toList
  joined : ".".intercalate parts = s

/-- The parts of a text. -/
def partsOf (s : String) : List String := (splitDots s.toList).map String.ofList

/-- Splitting at dots is what the library calls so. -/
lemma splitDots_eq (cs : List Char) : splitDots cs = cs.splitOn '.' := by
  induction cs with
  | nil => rfl
  | cons c cs ih =>
    rw [splitDots, List.splitOn_cons_eq_if_modifyHead, ih]
    by_cases hdot : c = '.'
    · simp [hdot]
    · cases hsplit : cs.splitOn '.' with
      | nil => exact absurd hsplit (List.splitOn_ne_nil _ _)
      | cons part parts => simp [hdot]

/-- No part has a dot in it. -/
lemma dot_notMem_of_mem_splitDots {cs part : List Char} (hmem : part ∈ splitDots cs) :
    '.' ∉ part := by
  induction cs generalizing part with
  | nil =>
    rw [List.mem_singleton.mp hmem]
    exact List.not_mem_nil
  | cons c cs ih =>
    by_cases hdot : c = '.'
    · rw [splitDots, if_pos hdot] at hmem
      rcases List.mem_cons.mp hmem with rfl | hmem
      · exact List.not_mem_nil
      · exact ih hmem
    · rw [splitDots, if_neg hdot] at hmem
      cases hsplit : splitDots cs with
      | nil =>
        rw [hsplit] at hmem
        rw [List.mem_singleton.mp hmem]
        simpa using Ne.symm hdot
      | cons first rest =>
        rw [hsplit] at hmem ih
        rcases List.mem_cons.mp hmem with rfl | hmem
        · have hfirst := ih List.mem_cons_self
          simpa [hfirst] using Ne.symm hdot
        · exact ih (List.mem_cons_of_mem _ hmem)

/-- A text spells its own parts. -/
lemma spells_partsOf (s : String) : Spells (partsOf s) s where
  any := by
    rw [partsOf, splitDots_eq, Ne, List.map_eq_nil_iff]
    exact List.splitOn_ne_nil _ _
  undotted := by
    intro part hmem
    obtain ⟨cs, hcs, rfl⟩ := List.mem_map.mp hmem
    rw [String.toList_ofList]
    exact dot_notMem_of_mem_splitDots hcs
  joined := by
    apply String.toList_injective
    rw [String.toList_intercalate, partsOf, List.map_map, splitDots_eq]
    simp [Function.comp_def, List.intercalate_splitOn]

/-- **The parts of a text are unique.** -/
theorem spells_iff : Spells parts s ↔ partsOf s = parts := by
  constructor
  · rintro ⟨hany, hundotted, rfl⟩
    rw [partsOf, String.toList_intercalate, splitDots_eq]
    have hdots : ∀ cs ∈ parts.map String.toList, '.' ∉ cs := by simpa using hundotted
    have hsplit := List.splitOn_intercalate '.' hdots (by simpa using hany)
    rw [show ".".toList = ['.'] from rfl, hsplit, List.map_map]
    simp [Function.comp_def]
  · rintro rfl
    exact spells_partsOf s

/-- **The segments of a text** are its parts that are not empty. -/
lemma segments_parse (s : String) : (parse s).segments = (partsOf s).filter (· ≠ "") := by
  have hempty : ∀ cs : List Char, (!cs.isEmpty) = decide (String.ofList cs ≠ "") := by
    intro cs
    cases cs <;> simp
  rw [parse, partsOf, List.filter_map]
  simp only [hempty, Function.comp_def]

/-- **Two lists of parts differ only in empty parts.** -/
inductive Alike : List String → List String → Prop
  | nil : Alike [] []
  | same {ps qs : List String} (part : String) (h : Alike ps qs) : Alike (part :: ps) (part :: qs)
  | left {ps qs : List String} (h : Alike ps qs) : Alike ("" :: ps) qs
  | right {ps qs : List String} (h : Alike ps qs) : Alike ps ("" :: qs)

/-- Empty parts may be put in front. -/
lemma Alike.pad {empties : List String} (hempty : ∀ part ∈ empties, part = "")
    (h : Alike parts parts') : Alike parts (empties ++ parts') := by
  induction empties with
  | nil => exact h
  | cons part empties ih =>
    obtain ⟨rfl, hrest⟩ := List.forall_mem_cons.mp hempty
    exact (ih hrest).right

lemma alike_iff : Alike parts parts' ↔ parts.filter (· ≠ "") = parts'.filter (· ≠ "") := by
  constructor
  · intro h
    induction h with
    | nil => rfl
    | same part h ih => simp only [List.filter_cons, ih]
    | left h ih => simpa using ih
    | right h ih => simpa using ih
  · intro h
    induction parts generalizing parts' with
    | nil =>
      have hempty : ∀ part ∈ parts', part = "" := by simpa using h.symm
      simpa using Alike.nil.pad hempty
    | cons part parts ih =>
      by_cases hpart : part = ""
      · subst hpart
        exact (ih (by simpa using h)).left
      · -- The first part that is not empty is the same on both sides.
        rw [List.filter_cons_of_pos (by simpa using hpart)] at h
        obtain ⟨empties, rest, rfl, hempty, -, hrest⟩ := List.filter_eq_cons_iff.mp h.symm
        exact ((ih hrest.symm).same part).pad (by simpa using hempty)

/-! ## Texts and their paths -/

/-- **Two texts differ only in empty parts.** -/
def DifferInEmpty (s t : String) : Prop :=
  ∃ parts parts', Spells parts s ∧ Spells parts' t ∧ Alike parts parts'

/-- **Two texts give the same path** exactly if they differ only in empty parts. -/
theorem parse_eq_iff : parse s = parse t ↔ DifferInEmpty s t := by
  have hsegments : parse s = parse t ↔ (parse s).segments = (parse t).segments :=
    ⟨congrArg segments, fun h => congrArg FieldPath.mk h⟩
  rw [hsegments, segments_parse, segments_parse, ← alike_iff]
  constructor
  · intro h
    exact ⟨_, _, spells_partsOf s, spells_partsOf t, h⟩
  · rintro ⟨parts, parts', hs, ht, h⟩
    rwa [spells_iff.mp hs, spells_iff.mp ht]

example : DifferInEmpty ".tags..0" "tags.0" := parse_eq_iff.mp (by decide)

/-- The text of a path has a dot between each two segments. -/
lemma text_eq (p : FieldPath) : p.text = ".".intercalate p.segments := by
  apply String.toList_injective
  rw [text, String.toList_ofList, String.toList_intercalate]
  rfl

/-- **A path that was printed is read again** if its segments are not empty and have no dots. -/
theorem parse_text (hundotted : ∀ segment ∈ p.segments, '.' ∉ segment.toList)
    (hempty : "" ∉ p.segments) : parse p.text = p := by
  obtain ⟨segments⟩ := p
  have hkeep : segments.filter (· ≠ "") = segments := by
    rw [List.filter_eq_self]
    intro segment hmem
    exact decide_eq_true (ne_of_mem_of_not_mem hmem hempty)
  have hsegments : (parse (text ⟨segments⟩)).segments = segments := by
    cases segments with
    | nil => rfl
    | cons first rest =>
      have hspells : Spells (first :: rest) (text ⟨first :: rest⟩) :=
        ⟨List.cons_ne_nil _ _, hundotted, (text_eq _).symm⟩
      rw [segments_parse, spells_iff.mp hspells, hkeep]
  exact congrArg FieldPath.mk hsegments

/-- **A dot between two texts** puts their paths one behind the other. -/
lemma parse_dot (s t : String) :
    (parse (s ++ "." ++ t)).segments = (parse s).segments ++ (parse t).segments := by
  have hparts : partsOf (s ++ "." ++ t) = partsOf s ++ partsOf t := by
    rw [partsOf, partsOf, partsOf, splitDots_eq, splitDots_eq, splitDots_eq, ← List.map_append,
      ← List.splitOn_append_cons_self]
    simp
  simp only [segments_parse, hparts, List.filter_append]

/-! ## Nodes -/

/-- A chain of objects with one member each, named by the segments, and null at its end. -/
def chain : List String → Document
  | [] => .null
  | segment :: segments => .object [(segment, chain segments)]

/-- Walking down a chain of objects ends at its leaf. -/
lemma walk?_chain (segments : List String) : walk? segments (chain segments) = some .null := by
  induction segments with
  | nil => rfl
  | cons segment segments ih => simp [chain, walk?, child?, Document.member?, ih]

/-- Only one path leads to the end of a chain. -/
lemma eq_of_walk?_chain {segments segments' : List String}
    (h : walk? segments' (chain segments) = some .null) : segments' = segments := by
  induction segments generalizing segments' with
  | nil =>
    cases segments' with
    | nil => rfl
    | cons segment rest => simp [chain, walk?, child?] at h
  | cons segment segments ih =>
    cases segments' with
    | nil => simp [chain, walk?] at h
    | cons segment' rest =>
      by_cases hname : segment = segment'
      · subst hname
        have hrest : walk? rest (chain segments) = some .null := by
          simpa [chain, walk?, child?, Document.member?] using h
        rw [ih hrest]
      · simp [chain, walk?, child?, Document.member?, hname] at h

/-- **Paths that lead to the same nodes** of all documents are the same. -/
theorem eq_of_resolve?_eq (h : ∀ doc, p.resolve? doc = q.resolve? doc) : p = q := by
  have hend : q.resolve? (chain p.segments) = some .null := by
    rw [← h]
    exact walk?_chain p.segments
  exact congrArg FieldPath.mk (eq_of_walk?_chain hend).symm

/-! ## Dotted texts -/

/-- **Texts of paths.** -/
structure Dotted (s t : String) : Prop where
  /-- A path that was read and printed is read again. -/
  reread : parse (parse s).text = parse s
  /-- With a dot between the texts, the second path goes on where the first one ends, if it does. -/
  composed : ∀ doc, (parse (s ++ "." ++ t)).resolve? doc =
    ((parse s).resolve? doc).bind (parse t).resolve?
  /-- The texts lead to the same nodes of all documents exactly if they differ only in empty
  parts. -/
  resolved : (∀ doc, (parse s).resolve? doc = (parse t).resolve? doc) ↔ DifferInEmpty s t
  /-- Then, and only then, their paths are printed alike. -/
  printed : (parse s).text = (parse t).text ↔ DifferInEmpty s t

theorem parse_text_parse (s : String) : parse (parse s).text = parse s := by
  apply parse_text
  · intro segment hmem
    rw [segments_parse] at hmem
    exact (spells_partsOf s).undotted segment (List.mem_filter.mp hmem).1
  · simp [segments_parse]

/-- **Dotted texts compose, and print in one way.** -/
theorem dotted_paths (s t : String) : Dotted s t where
  reread := parse_text_parse s
  composed doc := by
    rw [resolve?, parse_dot, walk?_append]
    rfl
  resolved := by
    rw [← parse_eq_iff]
    exact ⟨eq_of_resolve?_eq, fun h doc => h ▸ rfl⟩
  printed := by
    rw [← parse_eq_iff]
    constructor
    · intro h
      rw [← parse_text_parse s, h, parse_text_parse]
    · exact congrArg text

end FieldPath

end SlotStore
