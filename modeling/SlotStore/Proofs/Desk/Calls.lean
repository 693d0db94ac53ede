import Mathlib.Tactic.Common
import SlotStore.Proofs.Record.Stable

/-!
# Calls on a record file

Callers of a record file reserve slots, begin payloads and commit them later, write whole payloads,
mark slots unused and seal the file, in any order and with any arguments.  A desk is a record file
with the payloads that were begun, and what the callers did since the file was last sealed.

* `Call`, `Desk.act`, `Desk.perform` : the calls, and what each does;
* `Desk.Run` : calls one after another on an empty file;
* `Desk.Run.kept` : after a change no tail is left, but for payloads that were begun before it.
-/

namespace SlotStore

open Steps

/-- A call on a record file.  Payloads that were begun are counted from zero. -/
inductive Call
  | reserve (size : Nat)
  | begin (start length capacity : Nat) (stamp : Stamp)
  | feed (i : Nat) (piece : Bytes)
  | commit (i : Nat)
  | write (start : Nat) (stamp : Stamp) (payload : Bytes) (capacity : Nat)
  | mark (start : Nat)
  | sealWith (stamp : Stamp) (payload : Bytes)

/-- A payload on its way into a slot, and whether the file was sealed since it was begun. -/
structure Pending where
  writer : Writer
  early : Bool

/-- **A record file in the hands of its callers.** -/
structure Desk where
  file : RecordFile
  pending : List Pending
  /-- The offsets and sizes of the slots that were handed out. -/
  slots : List (Nat × Nat)
  /-- Whether a slot was reserved, committed or marked since the file was last sealed, or the file
  never was. -/
  changed : Bool
  /-- Whether a payload that was begun before the file was last sealed was committed since. -/
  late : Bool
  /-- Whether each slot that was written or marked was one that had been handed out, and was written
  with its own capacity. -/
  orderly : Bool

namespace Desk

/-- An empty file. -/
def fresh : Desk := ⟨.ofContent .empty, [], [], true, false, true⟩

/-- Whether a call names a slot as it was handed out. -/
def inOrder (d : Desk) : Call → Bool
  | .begin start _ capacity _ | .write start _ _ capacity =>
    (start, Header.size + capacity) ∈ d.slots
  | .mark start => d.slots.any (·.1 = start)
  | _ => true

/-- What a call does.  A payload is gone after its commit, also when that fails. -/
def act (d : Desk) : Call → Desk
  | .reserve size =>
    match RecordFile.reserve size d.file with
    | .ok start f => { d with file := f, slots := d.slots ++ [(start, size)], changed := true }
    | .error _ f => { d with file := f }
  | .begin start length capacity stamp =>
    match RecordFile.beginWrite start length capacity stamp d.file with
    | .ok w f => { d with file := f, pending := d.pending ++ [⟨w, false⟩] }
    | .error _ f => { d with file := f }
  | .feed i piece =>
    match d.pending[i]? with
    | some p => { d with pending := d.pending.set i { p with writer := (p.writer.write piece).2 } }
    | none => d
  | .commit i =>
    match d.pending[i]? with
    | some p =>
      match RecordFile.commit p.writer d.file with
      | .ok _ f =>
        { d with
          file := f
          pending := d.pending.eraseIdx i
          changed := true
          late := d.late || p.early }
      | .error _ f => { d with file := f, pending := d.pending.eraseIdx i }
    | none => d
  | .write start stamp payload capacity =>
    match RecordFile.writePayload start stamp payload capacity d.file with
    | .ok _ f => { d with file := f, changed := true }
    | .error _ f => { d with file := f }
  | .mark start =>
    match RecordFile.markUnused start d.file with
    | .ok _ f => { d with file := f, changed := true }
    | .error _ f => { d with file := f }
  | .sealWith stamp payload =>
    match RecordFile.sealWith stamp payload d.file with
    | .ok _ f =>
      { d with
        file := f
        pending := d.pending.map fun p => { p with early := true }
        changed := false
        late := false }
    | .error _ f => { d with file := f }

/-- What a call does, and whether all calls were in order. -/
def perform (d : Desk) (call : Call) : Desk :=
  { d.act call with orderly := d.orderly && d.inOrder call }

/-- **Calls one after another** on an empty file, the last one first. -/
inductive Run : List Call → Desk → Prop
  | opened : Run [] fresh
  | next {calls : List Call} {d : Desk} (run : Run calls d) (call : Call) :
      Run (call :: calls) (d.perform call)

variable {d : Desk} {f : RecordFile} {calls : List Call}

/-! ## Tails -/

/-- **What every call keeps.**  There is no tail while a payload is on its way that was begun since
the file was last sealed, and none after a change unless that was a commit of an earlier payload. -/
structure Kept (d : Desk) : Prop where
  below : d.file.content.size < positionLimit
  begun : ∀ p ∈ d.pending, p.early = false → d.file.sealedAt = none
  cut : d.changed = true → d.late = false → d.file.sealedAt = none
  /-- Nothing was put behind a tail. -/
  level : d.late = false → ∀ start, d.file.sealedAt = some start → d.file.cursor ≤ start
  inside : d.file.Inside

namespace Kept

/-- A file without a tail keeps all of it, whatever is on its way. -/
lemma of_unsealed (hb : d.file.content.size < positionLimit) (hu : d.file.sealedAt = none) :
    d.Kept :=
  have hnone : ∀ start, ¬ d.file.sealedAt = some start := by simp [hu]
  ⟨hb, fun _ _ _ => hu, fun _ _ => hu, fun _ start hs => absurd hs (hnone start),
    fun start hs => absurd hs (hnone start)⟩

/-- A call that changes nothing but the file, and of it neither tail nor cursor but to cut the tail
off. -/
lemma withFile (hd : d.Kept) (hb : f.content.size < positionLimit)
    (hsteady : RecordFile.Steady d.file f) : { d with file := f }.Kept := by
  rcases hsteady with hu | ⟨htail, hcursor, hsize⟩
  · exact of_unsealed hb hu
  · refine ⟨hb, fun p hp he => htail.trans (hd.begun p hp he),
      fun hc hl => htail.trans (hd.cut hc hl), fun hl start hs => ?_, fun start hs => ?_⟩
    · exact Nat.le_trans (Nat.le_of_eq hcursor) (hd.level hl start (htail.symm.trans hs))
    · exact Nat.le_trans (hd.inside start (htail.symm.trans hs)) hsize

/-- An operation that cuts the tail off when it succeeds, and puts none on when it fails. -/
lemma cuts {α : Type} {act : FileM α} (hd : d.Kept)
    (hbelow : Maintains (fun f => f.content.size < positionLimit) act)
    (hcuts : RecordFile.Cuts act) :
    (∀ x f, act d.file = .ok x f → f.content.size < positionLimit ∧ f.sealedAt = none) ∧
      ∀ e f, act d.file = .error e f → { d with file := f }.Kept := by
  constructor
  · intro x f h
    exact ⟨hbelow.of_ok h hd.below, hcuts.ok h⟩
  · intro e f h
    exact hd.withFile (hbelow.of_error h hd.below) (hcuts.error h)

lemma erase (hd : d.Kept) (i : Nat) : { d with pending := d.pending.eraseIdx i }.Kept :=
  ⟨hd.below, fun p hp => hd.begun p (List.mem_of_mem_eraseIdx hp), hd.cut, hd.level, hd.inside⟩

lemma feed (hd : d.Kept) (i : Nat) (piece : Bytes) : (d.act (.feed i piece)).Kept := by
  rw [Desk.act]
  split
  · rename_i p h
    refine ⟨hd.below, fun q hq he => ?_, hd.cut, hd.level, hd.inside⟩
    rcases List.mem_or_eq_of_mem_set hq with hq | rfl
    · exact hd.begun q hq he
    · exact hd.begun p (List.mem_of_getElem? h) he
  · exact hd

/-- A commit cuts no tail off, so it counts whether its payload was begun before the tail was put
on. -/
lemma commit (hd : d.Kept) (i : Nat) : (d.act (.commit i)).Kept := by
  rw [Desk.act]
  split
  · rename_i p hp
    have below := RecordFile.stable_below.commit p.writer
    split
    · rename_i h
      have hu := (RecordFile.stable_unsealed.commit p.writer).of_ok h
      have hkept : ∀ {late}, (late || p.early) = false → d.file.sealedAt = none := by
        intro late hl
        exact hd.begun p (List.mem_of_getElem? hp) (Bool.or_eq_false_iff.mp hl).2
      refine ⟨below.of_ok h hd.below, ?_, fun _ hl => hu (hkept hl), fun hl start hs => ?_,
        (RecordFile.inside_commit p.writer).of_ok h hd.inside⟩
      · intro q hq he
        exact hu (hd.begun q (List.mem_of_mem_eraseIdx hq) he)
      · cases (hu (hkept hl)).symm.trans hs
    · rename_i h
      exact (hd.withFile (below.of_error h hd.below) (RecordFile.steady_of_commit_error h)).erase i
  · exact hd

/-- Whatever was begun before is begun early once the file is sealed. -/
lemma sealWith (hd : d.Kept) (stamp : Stamp) (payload : Bytes) :
    (d.act (.sealWith stamp payload)).Kept := by
  rw [Desk.act]
  have hsize := RecordFile.stable_below.sealWith (fun _ _ h => h) stamp payload
  split
  · rename_i h
    obtain ⟨hshort, hroom, hcut⟩ := RecordFile.sealWith_eq_ok h
    rw [← d.file.cursor_untailed] at hroom
    refine ⟨hsize.of_ok h hd.below, ?_, ?_, fun _ start hs => ?_, fun start hs => ?_⟩
    · intro q hq he
      obtain ⟨p, _, rfl⟩ := List.mem_map.mp hq
      cases he
    · intro hc
      cases hc
    · cases h.symm.trans (RecordFile.sealWith_eq hshort hcut hroom)
      exact Nat.le_of_eq (Option.some.inj hs)
    · cases h.symm.trans (RecordFile.sealWith_eq hshort hcut hroom)
      cases Option.some.inj hs
      exact RecordFile.cursor_le_size_withTail _ stamp payload
  · rename_i h
    exact hd.withFile (hsize.of_error h hd.below) (RecordFile.steady_of_sealWith_error h)

/-- **Every call keeps it.** -/
lemma act (hd : d.Kept) (call : Call) : (d.act call).Kept := by
  have below := RecordFile.stable_below
  cases call with
  | reserve size =>
    obtain ⟨hok, herror⟩ := hd.cuts (below.reserve size) (RecordFile.cuts_reserve size)
    rw [Desk.act]
    split
    · rename_i h
      exact of_unsealed (hok _ _ h).1 (hok _ _ h).2
    · rename_i h
      exact herror _ _ h
  | begin start length capacity stamp =>
    obtain ⟨hok, herror⟩ := hd.cuts (below.beginWrite _ _ _ _)
      (RecordFile.cuts_beginWrite start length capacity stamp)
    rw [Desk.act]
    split
    · rename_i h
      exact of_unsealed (hok _ _ h).1 (hok _ _ h).2
    · rename_i h
      exact herror _ _ h
  | feed i piece => exact hd.feed i piece
  | commit i => exact hd.commit i
  | write start stamp payload capacity =>
    obtain ⟨hok, herror⟩ := hd.cuts (below.writePayload _ _ _ _)
      (RecordFile.cuts_writePayload start stamp payload capacity)
    rw [Desk.act]
    split
    · rename_i h
      exact of_unsealed (hok _ _ h).1 (hok _ _ h).2
    · rename_i h
      exact herror _ _ h
  | mark start =>
    obtain ⟨hok, herror⟩ := hd.cuts (below.markUnused _) (RecordFile.cuts_markUnused start)
    rw [Desk.act]
    split
    · rename_i h
      exact of_unsealed (hok _ _ h).1 (hok _ _ h).2
    · rename_i h
      exact herror _ _ h
  | sealWith stamp payload => exact hd.sealWith stamp payload

end Kept

/-- **After a change no tail is left**, whatever the callers do, unless the change was a commit of a
payload that was begun before the file was sealed. -/
theorem Run.kept (run : Run calls d) : d.Kept := by
  induction run with
  | opened => exact .of_unsealed (by decide) rfl
  | next _ call ih =>
    obtain ⟨hbelow, hbegun, hcut, hlevel, hinside⟩ := ih.act call
    exact ⟨hbelow, hbegun, hcut, hlevel, hinside⟩

end Desk

end SlotStore
