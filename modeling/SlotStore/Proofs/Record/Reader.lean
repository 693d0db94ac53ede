import Mathlib.Tactic.Common
import SlotStore.Proofs.Record.File
import SlotStore.Record.Reader

/-!
# Payloads read forward

A reader is asked for bytes and for moves in any order.  What a call gives depends only on the
payload and on the position: bytes come from the position on, a move leads to its target or is
refused, and the position never goes back.  So no byte of a payload is given twice, and without
moves none is passed over.

* `Reader.Call`, `Reader.after`, `Reader.answers` : calls, and what comes of them;
* `Reader.Serves`, `Reader.serves_perform` : one call at a position of a payload;
* `Reader.sublist_remaining`, `Reader.prefix_remaining`, `Reader.delivered_append_remaining` : what
  many calls give of what was left;
* `RecordFile.length_lt_of_readBounded` : payloads of records are short;
* `Reader.Forward`, `Reader.delivers_in_order` : a payload is delivered once and in order.
-/

namespace SlotStore

namespace Reader

/-! ## Calls -/

/-- What a reader is asked for. -/
inductive Call
  | read (n : Nat)
  | readExact (n : Nat)
  | skip (n : Nat)
  | seek (target : Nat)

/-- The bytes that a call gives, none for a move, or why it was refused. -/
abbrev Answer := Except Error Bytes

/-- The bytes that were given. -/
def Answer.bytes : Answer → Bytes
  | .ok bs => bs
  | .error _ => []

namespace Call

/-- What a call gives, and the reader after it. -/
def perform : Call → Reader → Answer × Reader
  | read n, r => (.ok (r.read n).1, (r.read n).2)
  | readExact n, r => r.readExact n
  | skip n, r => ((r.skip n).1.map fun _ => [], (r.skip n).2)
  | seek target, r => ((r.seek target).1.map fun _ => [], (r.seek target).2)

/-- Whether a call asks for bytes. -/
def Reads : Call → Prop
  | read _ => True
  | readExact _ => True
  | skip _ => False
  | seek _ => False

end Call

/-- The reader after some calls. -/
def after (calls : List Call) (r : Reader) : Reader :=
  calls.foldl (fun r call => (call.perform r).2) r

/-- What some calls give, one after another. -/
def answers : List Call → Reader → List Answer
  | [], _ => []
  | call :: calls, r => (call.perform r).1 :: answers calls (call.perform r).2

variable {payload : Bytes} {p q n target : Nat} {call : Call} {calls : List Call} {a : Answer}
  {r : Reader}

/-! ## One call -/

/-- **What a call does** at a position of a payload: what it gives, and the position after it. -/
inductive Serves (payload : Bytes) (p : Nat) : Call → Answer → Nat → Prop
  | read (n : Nat) :
    Serves payload p (.read n) (.ok (payload.extract p (p + min n (payload.length - p))))
      (p + min n (payload.length - p))
  | whole {n : Nat} (henough : p + n ≤ payload.length) :
    Serves payload p (.readExact n) (.ok (payload.extract p (p + n))) (p + n)
  /-- Too few bytes are left.  They are lost. -/
  | short {n : Nat} (hfew : payload.length < p + n) :
    Serves payload p (.readExact n) (.error (.file .unexpectedEnd)) payload.length
  | skip {n : Nat} (henough : p + n ≤ payload.length) :
    Serves payload p (.skip n) (.ok []) (p + n)
  | overskip {n : Nat} (hfew : payload.length < p + n) :
    Serves payload p (.skip n)
      (.error (.range (.seekPastEnd (min (p + n) maxWord) payload.length))) p
  | seek {target : Nat} (hahead : p ≤ target) (hwithin : target ≤ payload.length) :
    Serves payload p (.seek target) (.ok []) target
  | behind {target : Nat} (hbehind : target < p) :
    Serves payload p (.seek target) (.error (.range (.backwardSeek p target))) p
  | beyond {target : Nat} (hbeyond : payload.length < target) :
    Serves payload p (.seek target) (.error (.range (.seekPastEnd target payload.length))) p

namespace Serves

/-- The position goes forward and stays within the payload. -/
lemma bounds (h : Serves payload p call a q) (hp : p ≤ payload.length) :
    p ≤ q ∧ q ≤ payload.length := by
  cases h <;> omega

/-- What is given lies between the two positions. -/
lemma sublist (h : Serves payload p call a q) : a.bytes.Sublist (payload.extract p q) := by
  cases h with
  | read n => exact List.Sublist.refl _
  | whole henough => exact List.Sublist.refl _
  | _ => exact List.nil_sublist _

/-- A call for bytes that succeeds gives all between the two positions. -/
lemma bytes_eq (h : Serves payload p call a q) (hreads : call.Reads) (hok : a.isOk = true) :
    a.bytes = payload.extract p q := by
  cases h with
  | read n => rfl
  | whole henough => rfl
  | short hfew => cases hok
  | _ => cases hreads

/-- A call for bytes that fails has come to the end of the payload. -/
lemma at_end (h : Serves payload p call a q) (hreads : call.Reads) (hfails : a.isOk = false) :
    q = payload.length ∧ a.bytes = [] := by
  cases h with
  | read n => cases hfails
  | whole henough => cases hfails
  | short hfew => exact ⟨rfl, rfl⟩
  | _ => cases hreads

end Serves

/-! ### The calls one by one -/

/-- **A read gives the next bytes**, as many as there are. -/
lemma read_bytes (n : Nat) (r : Reader) :
    (r.read n).1 =
      r.payload.extract r.position (r.position + min n (r.payload.length - r.position)) := by
  show (r.payload.drop r.position).take n = (r.payload.drop r.position).take _
  rw [Nat.add_sub_cancel_left, ← List.length_drop, ← List.take_eq_take_min]

/-- A read moves the position behind the bytes that it gives. -/
lemma read_position (n : Nat) (r : Reader) :
    (r.read n).2.position = r.position + min n (r.payload.length - r.position) := rfl

/-- An exact read of what is there is a read. -/
lemma readExact_whole (h : r.position + n ≤ r.payload.length) :
    r.readExact n = (.ok (r.read n).1, (r.read n).2) := by
  have hlength : (r.read n).1.length = n := by
    simp [Reader.read, remaining]
    omega
  simp [readExact, hlength]

/-- An exact read of more fails, and has read what there was. -/
lemma readExact_short (h : r.payload.length < r.position + n) :
    r.readExact n = (.error (.file .unexpectedEnd), (r.read n).2) := by
  have hwithin := r.position_le
  have hlength : (r.read n).1.length ≠ n := by
    simp [Reader.read, remaining]
    omega
  simp [readExact, hlength]

/-- Going back is refused. -/
lemma seek_behind (h : target < r.position) :
    r.seek target = (.error (.range (.backwardSeek r.position target)), r) := by
  rw [seek, if_pos h]

/-- Going forward inside the payload moves the position. -/
lemma seek_within (h : r.position ≤ target) (hwithin : target ≤ r.payload.length) :
    r.seek target = (.ok (), ⟨r.payload, target, hwithin⟩) := by
  rw [seek, if_neg (Nat.not_lt.mpr h), dif_pos hwithin]

/-- Going past the end is refused. -/
lemma seek_beyond (h : r.payload.length < target) :
    r.seek target = (.error (.range (.seekPastEnd target r.payload.length)), r) := by
  have hahead : ¬ target < r.position := by
    have hwithin := r.position_le
    omega
  rw [seek, if_neg hahead, dif_neg (Nat.not_le.mpr h)]

/-- **One call** at the position of a reader. -/
theorem serves_perform (hshort : r.payload.length < maxWord) (call : Call) :
    Serves r.payload r.position call (call.perform r).1 (call.perform r).2.position := by
  have hwithin := r.position_le
  cases call with
  | read n =>
    rw [Call.perform, read_bytes, read_position]
    exact .read n
  | readExact n =>
    rw [Call.perform]
    rcases Nat.lt_or_ge r.payload.length (r.position + n) with hfew | henough
    · have hend : r.position + min n (r.payload.length - r.position) = r.payload.length := by
        rw [Nat.min_eq_right (by omega), Nat.add_sub_cancel' hwithin]
      rw [readExact_short hfew, read_position, hend]
      exact .short hfew
    · have hmin : min n (r.payload.length - r.position) = n := Nat.min_eq_left (by omega)
      rw [readExact_whole henough, read_bytes, read_position, hmin]
      exact .whole henough
  | skip n =>
    rw [Call.perform, skip]
    rcases Nat.lt_or_ge r.payload.length (r.position + n) with hfew | henough
    · -- Where the sum stops, at the largest word, the payload has ended too.
      rw [seek_beyond (by omega)]
      exact .overskip hfew
    · have hmin : min (r.position + n) maxWord = r.position + n := by omega
      rw [hmin, seek_within (Nat.le_add_right _ _) henough]
      exact .skip henough
  | seek target =>
    rw [Call.perform]
    rcases Nat.lt_or_ge target r.position with hbehind | hahead
    · rw [seek_behind hbehind]
      exact .behind hbehind
    · rcases Nat.lt_or_ge r.payload.length target with hbeyond | hwithin
      · rw [seek_beyond hbeyond]
        exact .beyond hbeyond
      · rw [seek_within hahead hwithin]
        exact .seek hahead hwithin

lemma payload_seek (target : Nat) (r : Reader) : (r.seek target).2.payload = r.payload := by
  unfold seek
  split
  · rfl
  · split <;> rfl

/-- A reader keeps its payload. -/
lemma payload_perform (call : Call) (r : Reader) : (call.perform r).2.payload = r.payload := by
  cases call with
  | read n => rfl
  | readExact n => rfl
  | skip n => exact payload_seek _ r
  | seek target => exact payload_seek target r

/-! ## Many calls -/

/-- The bytes that some calls gave, one behind the other. -/
def delivered (calls : List Call) (r : Reader) : Bytes := (answers calls r).flatMap Answer.bytes

lemma delivered_cons (call : Call) (calls : List Call) (r : Reader) :
    delivered (call :: calls) r =
      (call.perform r).1.bytes ++ delivered calls (call.perform r).2 := rfl

lemma extract_append_drop (payload : Bytes) (h : p ≤ q) :
    payload.extract p q ++ payload.drop q = payload.drop p := by
  have hdrop : payload.drop q = (payload.drop p).drop (q - p) := by
    rw [List.drop_drop, Nat.add_sub_cancel' h]
  rw [hdrop]
  exact List.take_append_drop (q - p) (payload.drop p)

/-- What is left before a call is what lies between the two positions, and what is left after it. -/
lemma remaining_perform (hshort : r.payload.length < maxWord) (call : Call) :
    r.payload.extract r.position (call.perform r).2.position ++ (call.perform r).2.remaining =
      r.remaining := by
  have hbounds := (serves_perform hshort call).bounds r.position_le
  rw [remaining, payload_perform]
  exact extract_append_drop r.payload hbounds.1

lemma payload_after (calls : List Call) (r : Reader) : (after calls r).payload = r.payload := by
  induction calls generalizing r with
  | nil => rfl
  | cons call calls ih => exact (ih _).trans (payload_perform call r)

/-- **The position never decreases.** -/
lemma position_le_after (hshort : r.payload.length < maxWord) (calls : List Call) :
    r.position ≤ (after calls r).position := by
  induction calls generalizing r with
  | nil => exact Nat.le_refl _
  | cons call calls ih =>
    have hstep := (serves_perform hshort call).bounds r.position_le
    exact Nat.le_trans hstep.1 (ih (by rwa [payload_perform]))

/-- **No byte is given twice**, and none out of order. -/
theorem sublist_remaining (hshort : r.payload.length < maxWord) (calls : List Call) :
    (delivered calls r).Sublist r.remaining := by
  induction calls generalizing r with
  | nil => exact List.nil_sublist _
  | cons call calls ih =>
    rw [delivered_cons, ← remaining_perform hshort call]
    exact (serves_perform hshort call).sublist.append (ih (by rwa [payload_perform]))

/-- **Without moves nothing is passed over**: what is given is the beginning of what was left.
After a call that finds too few bytes nothing more is given. -/
theorem prefix_remaining (hshort : r.payload.length < maxWord)
    (hreads : ∀ call ∈ calls, call.Reads) : delivered calls r <+: r.remaining := by
  induction calls generalizing r with
  | nil => exact List.nil_prefix
  | cons call calls ih =>
    obtain ⟨hcall, hcalls⟩ := List.forall_mem_cons.mp hreads
    have hrest := ih (r := (call.perform r).2) (by rwa [payload_perform]) hcalls
    have hserves := serves_perform hshort call
    rw [delivered_cons]
    cases hok : (call.perform r).1.isOk with
    | true =>
      rw [hserves.bytes_eq hcall hok, ← remaining_perform hshort call]
      exact (List.prefix_append_right_inj _).mpr hrest
    | false =>
      obtain ⟨hend, hnone⟩ := hserves.at_end hcall hok
      rw [remaining, payload_perform, hend, List.drop_length, List.prefix_nil] at hrest
      rw [hnone, hrest]
      exact List.nil_prefix

/-- **Where no call fails either**, what was given and what is left make up all. -/
theorem delivered_append_remaining (hshort : r.payload.length < maxWord)
    (hreads : ∀ call ∈ calls, call.Reads) (hok : ∀ a ∈ answers calls r, a.isOk = true) :
    delivered calls r ++ (after calls r).remaining = r.remaining := by
  induction calls generalizing r with
  | nil => rfl
  | cons call calls ih =>
    obtain ⟨hcall, hcalls⟩ := List.forall_mem_cons.mp hreads
    obtain ⟨hfirst, hothers⟩ := List.forall_mem_cons.mp hok
    have hrest := ih (r := (call.perform r).2) (by rwa [payload_perform]) hcalls hothers
    rw [delivered_cons, (serves_perform hshort call).bytes_eq hcall hfirst, List.append_assoc,
      ← remaining_perform hshort call, ← hrest]
    rfl

end Reader

/-! ## Payloads of records -/

namespace RecordFile

variable {f : RecordFile} {start limit : Nat} {h : Header} {payload : Bytes}

/-- **The payload of a record** is short: its length is in the header. -/
lemma length_lt_of_readBounded (hread : f.readBounded start limit = .ok (h, payload)) :
    payload.length < Reader.maxWord := by
  obtain ⟨-, -, hpayload, -⟩ := of_readBounded hread
  rw [hpayload, payloadAt, Content.length_slice]
  exact Nat.lt_trans h.length.toNat_lt (by decide)

end RecordFile

namespace Reader

variable {payload : Bytes} {calls : List Call}

/-! ## From the beginning -/

/-- The reader of a payload after some calls. -/
def reached (payload : Bytes) (calls : List Call) : Reader := after calls (ofPayload payload)

lemma reached_append (payload : Bytes) (calls more : List Call) :
    reached payload (calls ++ more) = after more (reached payload calls) :=
  List.foldl_append

/-- **A payload is delivered forward**, whatever its reader is asked for. -/
structure Forward (payload : Bytes) (calls : List Call) : Prop where
  /-- The position never passes the end. -/
  within : (reached payload calls).position ≤ payload.length
  /-- It never decreases. -/
  ordered : ∀ more,
    (reached payload calls).position ≤ (reached payload (calls ++ more)).position
  /-- What is left is what follows the position. -/
  left : (reached payload calls).remaining = payload.drop (reached payload calls).position
  /-- Each call gives the bytes from there on, or moves exactly where it should, or is refused. -/
  served : ∀ call, Serves payload (reached payload calls).position call
    (call.perform (reached payload calls)).1 (reached payload (calls ++ [call])).position
  /-- No byte is given twice or out of order. -/
  once : (delivered calls (ofPayload payload)).Sublist payload
  /-- Without moves a beginning of the payload is given. -/
  unbroken : (∀ call ∈ calls, call.Reads) → delivered calls (ofPayload payload) <+: payload
  /-- If no call failed either, what is left is all the rest. -/
  complete : (∀ call ∈ calls, call.Reads) →
    (∀ a ∈ answers calls (ofPayload payload), a.isOk = true) →
      delivered calls (ofPayload payload) ++ (reached payload calls).remaining = payload

/-- **A payload is delivered once and in order.**  In memory it is always shorter than the largest
word. -/
theorem delivers_in_order (hshort : payload.length < maxWord) (calls : List Call) :
    Forward payload calls := by
  have hpayload : (reached payload calls).payload = payload := payload_after calls _
  have hshort' : (reached payload calls).payload.length < maxWord := by rwa [hpayload]
  refine ⟨?within, ?ordered, ?left, ?served, sublist_remaining hshort calls,
    prefix_remaining hshort, delivered_append_remaining hshort⟩
  case within =>
    have hwithin := (reached payload calls).position_le
    rwa [hpayload] at hwithin
  case ordered =>
    intro more
    rw [reached_append]
    exact position_le_after hshort' more
  case left => rw [remaining, hpayload]
  case served =>
    intro call
    rw [reached_append]
    have hserves := serves_perform hshort' call
    rwa [hpayload] at hserves

/-- A record of four bytes.  One is skipped and two are read.  Moving back is refused, and so is
moving on by the largest word.  Then two bytes are asked for where one is left, and this one is
lost. -/
theorem delivers_in_order_refused :
    ∃ f h, RecordFile.writePayload 0 default [5, 6, 7, 8] 4 (.ofContent .empty) = .ok h f ∧
      f.read 0 = .ok (h, [5, 6, 7, 8]) ∧
      Forward [5, 6, 7, 8]
        [.skip 1, .readExact 2, .seek 0, .skip maxWord, .readExact 2, .read 3] ∧
      answers [.skip 1, .readExact 2, .seek 0, .skip maxWord, .readExact 2, .read 3]
          (ofPayload [5, 6, 7, 8]) =
        [.ok [], .ok [6, 7], .error (.range (.backwardSeek 3 0)),
          .error (.range (.seekPastEnd maxWord 4)), .error (.file .unexpectedEnd), .ok []] := by
  obtain ⟨f, h, hwrite, hread⟩ :
      ∃ f h, RecordFile.writePayload 0 default [5, 6, 7, 8] 4 (.ofContent .empty) = .ok h f ∧
        f.read 0 = .ok (h, [5, 6, 7, 8]) :=
    ⟨_, _, RecordFile.writePayload_eq (by decide) (by decide) (by decide) rfl (by decide),
      by decide +kernel⟩
  exact ⟨f, h, hwrite, hread,
    delivers_in_order (RecordFile.length_lt_of_readBounded hread) _, by decide +kernel⟩

end Reader

end SlotStore
