import Mathlib.Tactic.Common
import SlotStore.Proofs.Desk.Calls

/-!
# Payloads that come in pieces

A payload is announced with its length and handed over in pieces of any lengths, empty ones
included.  A piece that is longer than what is still expected is refused as a whole, and pieces
after it may be taken again.  Only a commit writes to the file, and it writes all or nothing.

* `Writer.bytesTaken`, `Writer.Whole` : what became of the pieces;
* `Writer.Fed`, `Writer.fed_writeAll` : what pieces make of a payload on its way;
* `Writer.Fed.complete_iff_whole`, `Writer.writeAll_of_noneRefused` : when it is complete, and what
  it holds then;
* `RecordFile.SameData`, `RecordFile.TailClear`, `RecordFile.sameData_untailed_iff` : the data in
  front of the cursor, and when beginning a payload leaves them as they are;
* `RecordFile.AllOrNothing`, `RecordFile.pieces_all_or_nothing` : what a payload that comes in
  pieces does to the file;
* `RecordFile.dropped_disturbs` : a payload that was begun before a tail is not safe behind it.
-/

namespace SlotStore

open Steps

/-! ## Pieces -/

namespace Writer

variable {w last : Writer} {piece : Bytes} {pieces : List Bytes}

/-- What became of each piece: how many bytes were taken or why it was refused, and how many were
expected after it. -/
abbrev Taken := List (Except Error Nat × Nat)

variable {taken : Taken}

/-- The bytes that were taken of all pieces. -/
def bytesTaken : Taken → Nat
  | [] => 0
  | (.ok n, _) :: rest => n + bytesTaken rest
  | (.error _, _) :: rest => bytesTaken rest

/-- No piece was refused. -/
def NoneRefused (taken : Taken) : Prop := ∀ piece ∈ taken, ∃ n, piece.1 = .ok n

/-- **A payload came as it was announced**: no piece was refused, and the bytes that were taken
total the announced length. -/
def Whole (length : Nat) (taken : Taken) : Prop := NoneRefused taken ∧ bytesTaken taken = length

/-- A piece that is expected is taken. -/
lemma write_of_le (h : piece.length ≤ w.remaining) :
    w.write piece = (.ok piece.length, { w with gathered := w.gathered ++ piece }) :=
  if_neg (Nat.not_lt.mpr h)

/-- A longer one is refused, and the payload is marked. -/
lemma write_of_lt (h : w.remaining < piece.length) :
    w.write piece = (.error (.file .payloadOverrun), { w with overflowed := true }) :=
  if_pos h

lemma writeAll_cons (w : Writer) (piece : Bytes) (pieces : List Bytes) :
    w.writeAll (piece :: pieces) =
      (((w.write piece).1, (w.write piece).2.remaining) :: ((w.write piece).2.writeAll pieces).1,
        ((w.write piece).2.writeAll pieces).2) := rfl

/-- **What pieces make of a payload on its way.**  Never more than the announced length is gathered,
and what is gathered are the bytes that were taken. -/
structure Fed (w : Writer) (taken : Taken) (last : Writer) : Prop where
  within : last.gathered.length ≤ w.length
  gathered : last.gathered.length = w.gathered.length + bytesTaken taken
  overflowed : last.overflowed = false ↔ w.overflowed = false ∧ NoneRefused taken
  length : last.length = w.length

/-- **Pieces one after another.** -/
theorem fed_writeAll (hw : w.gathered.length ≤ w.length) (pieces : List Bytes) :
    w.Fed (w.writeAll pieces).1 (w.writeAll pieces).2 := by
  induction pieces generalizing w with
  | nil => exact ⟨hw, rfl, by simp [writeAll, NoneRefused], rfl⟩
  | cons piece pieces ih =>
    rw [writeAll_cons]
    by_cases h : piece.length ≤ w.remaining
    · rw [write_of_le h]
      have hlen : (w.gathered ++ piece).length ≤ w.length := by
        rw [remaining] at h
        rw [List.length_append]
        omega
      have hrest := ih (w := { w with gathered := w.gathered ++ piece }) hlen
      refine ⟨hrest.within, ?_, ?_, hrest.length⟩
      · simp only [hrest.gathered, bytesTaken, List.length_append]
        omega
      · rw [hrest.overflowed]
        simp [NoneRefused]
    · -- The refused piece adds nothing, and the payload cannot be committed any more.
      rw [write_of_lt (Nat.not_le.mp h)]
      have hrest := ih (w := { w with overflowed := true }) hw
      refine ⟨hrest.within, hrest.gathered, ?_, hrest.length⟩
      rw [hrest.overflowed]
      simp [NoneRefused]

/-- **What is still expected** makes up the announced length together with what was taken. -/
lemma Fed.remaining_add (h : w.Fed taken last) (hw : w.gathered = []) :
    last.remaining + bytesTaken taken = w.length := by
  have hwithin := h.within
  have hgathered := h.gathered
  rw [hw, List.length_nil] at hgathered
  rw [remaining, h.length]
  omega

/-- **A payload is complete** exactly if it came as it was announced. -/
lemma Fed.complete_iff_whole (h : w.Fed taken last) (hw : w.gathered = [])
    (ho : w.overflowed = false) : last.Complete ↔ Whole w.length taken := by
  have hgathered := h.gathered
  rw [hw, List.length_nil, Nat.zero_add] at hgathered
  rw [Complete, Whole, h.overflowed, hgathered, h.length]
  simp [ho]

/-- **Pieces that are all taken** are gathered one behind the other. -/
theorem writeAll_of_noneRefused (h : NoneRefused (w.writeAll pieces).1) :
    (w.writeAll pieces).2 = { w with gathered := w.gathered ++ pieces.flatten } := by
  induction pieces generalizing w with
  | nil => simp [writeAll]
  | cons piece pieces ih =>
    rw [writeAll_cons] at h ⊢
    obtain ⟨⟨n, hn⟩, hrest⟩ := List.forall_mem_cons.mp h
    by_cases hle : piece.length ≤ w.remaining
    · rw [write_of_le hle] at hrest ⊢
      rw [ih hrest]
      simp
    · rw [write_of_lt (Nat.not_le.mp hle)] at hn
      cases hn

end Writer

/-! ## The file -/

namespace RecordFile

variable {f f₀ : RecordFile} {w : Writer} {h : Header} {start length capacity : Nat} {stamp : Stamp}
  {pieces : List Bytes}

/-- **The data of a file are those of another.**  The cursor stands where it does there, and in
front of it the file reaches as far and holds the same bytes. -/
structure SameData (f g : RecordFile) : Prop where
  cursor : g.cursor = f.cursor
  reach : min g.content.size f.cursor = min f.content.size f.cursor
  bytes : f.content.Agrees g.content 0 f.cursor

/-- **The tail is clear of the data**: in front of the cursor the file reaches up to the tail, and
not beyond its beginning. -/
def TailClear (f : RecordFile) : Prop :=
  ∀ start, f.sealedAt = some start → min start f.cursor = min f.content.size f.cursor

/-- **Cutting the tail off leaves the data** exactly if the tail is clear of them. -/
theorem sameData_untailed_iff : f.SameData f.untailed ↔ f.TailClear := by
  cases hs : f.sealedAt with
  | none =>
    rw [untailed_of_none hs]
    exact iff_of_true ⟨rfl, rfl, fun _ _ _ => rfl⟩ (by simp [TailClear, hs])
  | some start =>
    rw [untailed_of_some hs]
    constructor
    · intro hsame stop hstop
      cases hs.symm.trans hstop
      have hreach := hsame.reach
      rwa [Content.size_resize] at hreach
    · intro hclear
      have hreach := hclear start hs
      refine ⟨rfl, by rwa [Content.size_resize], fun i _ hi => ?_⟩
      rw [Content.byte_resize]
      split
      · rfl
      · exact f.content.byte_eq_zero i (by omega)

/-- **Unless a payload is committed behind a tail that it was begun before**, the tail is clear of
the data. -/
lemma tailClear_of_run {calls : List Call} {d : Desk} (run : Desk.Run calls d)
    (hlate : d.late = false) : d.file.TailClear := by
  intro start hs
  have hlevel := run.kept.level hlate start hs
  have hinside := run.kept.inside start hs
  omega

/-- **What pieces make of a payload that was just begun.** -/
lemma fed_of_begin (hbegin : beginWrite start length capacity stamp f = .ok w f₀)
    (pieces : List Bytes) :
    w.Fed (w.writeAll pieces).1 (w.writeAll pieces).2 ∧ w.gathered = [] ∧ w.overflowed = false ∧
      w.length = length := by
  obtain ⟨rfl, -⟩ := beginWrite_eq_ok hbegin
  exact ⟨Writer.fed_writeAll (Nat.zero_le _) pieces, rfl, rfl, rfl⟩

/-- The pieces of a payload that came as it was announced are as long as that together. -/
lemma length_flatten_of_whole (hbegin : beginWrite start length capacity stamp f = .ok w f₀)
    (hwhole : Writer.Whole length (w.writeAll pieces).1) : pieces.flatten.length = length := by
  obtain ⟨hfed, hnil, -, -⟩ := fed_of_begin hbegin pieces
  have hgathered := hfed.gathered
  rw [Writer.writeAll_of_noneRefused hwhole.1, hwhole.2, hnil] at hgathered
  simpa using hgathered

/-- **A payload that came as it was announced** is committed as if it had been written at once. -/
lemma commit_of_whole (hbegin : beginWrite start length capacity stamp f = .ok w f₀)
    (hwhole : Writer.Whole length (w.writeAll pieces).1) :
    commit (w.writeAll pieces).2 f₀ = writePayload start stamp pieces.flatten capacity f := by
  have hlen := length_flatten_of_whole hbegin hwhole
  have hle : pieces.flatten.length ≤ w.remaining := by
    obtain ⟨-, hnil, -, hlength⟩ := fed_of_begin hbegin []
    simp [Writer.remaining, hnil, hlength, hlen]
  rw [Writer.writeAll_of_noneRefused hwhole.1, writePayload, hlen, bind_of_ok hbegin,
    Writer.write_of_le hle]
  rfl

/-- **A payload that did not come as it was announced** is refused, and the file stays. -/
lemma commit_of_not_whole (hbegin : beginWrite start length capacity stamp f = .ok w f₀)
    (hlacks : ¬ Writer.Whole length (w.writeAll pieces).1) :
    commit (w.writeAll pieces).2 f₀ =
      .error (.range (.payloadIncomplete length (Writer.bytesTaken (w.writeAll pieces).1))) f₀ := by
  obtain ⟨hfed, hnil, ho, hlength⟩ := fed_of_begin hbegin pieces
  have hgathered := hfed.gathered
  rw [hnil, List.length_nil, Nat.zero_add] at hgathered
  rw [← hlength, ← hfed.complete_iff_whole hnil ho] at hlacks
  rw [commit_incomplete hlacks, hgathered, hfed.length, hlength]

/-- **A payload that comes in pieces is all or nothing**, from the file it is announced for to the
one that is left. -/
structure AllOrNothing (f : RecordFile) (start length capacity : Nat) (stamp : Stamp) (w : Writer)
    (f₀ : RecordFile) (pieces : List Bytes) : Prop where
  /-- The slot begins below the cursor or at it, and the payload fits. -/
  announced : start ≤ f.cursor ∧ length ≤ capacity ∧ capacity < lengthLimit
  /-- After any of the pieces, no more was gathered than announced, and what is still expected makes
  up the announced length together with what was taken. -/
  counted : ∀ n, (w.writeAll (pieces.take n)).2.gathered.length ≤ length ∧
    (w.writeAll (pieces.take n)).2.remaining + Writer.bytesTaken (w.writeAll (pieces.take n)).1 =
      length
  /-- A commit succeeds exactly if the payload came as it was announced.  Past the last position of
  a file no slot is written. -/
  succeeds : start + (Header.size + capacity) < positionLimit →
    ((∃ h g, commit (w.writeAll pieces).2 f₀ = .ok h g) ↔
      Writer.Whole length (w.writeAll pieces).1)
  /-- What is committed then is what writing the pieces at once gives and leaves. -/
  written : Writer.Whole length (w.writeAll pieces).1 →
    commit (w.writeAll pieces).2 f₀ = writePayload start stamp pieces.flatten capacity f
  /-- Otherwise a commit changes nothing. -/
  refused : ¬ Writer.Whole length (w.writeAll pieces).1 →
    commit (w.writeAll pieces).2 f₀ =
      .error (.range (.payloadIncomplete length (Writer.bytesTaken (w.writeAll pieces).1))) f₀
  /-- Neither does giving the payload up. -/
  dropped : writePieces start length capacity stamp pieces false f =
    .ok ⟨length, (w.writeAll pieces).1, none⟩ f₀
  /-- Announcing it cut the tail off, and did nothing else. -/
  begun : f₀ = f.untailed
  /-- This left the data as they were exactly if the tail was clear of them. -/
  undisturbed : f.SameData f₀ ↔ f.TailClear
  /-- So it is whatever was done to the file before, unless a payload was committed behind a tail
  that it was begun before. -/
  safe : ∀ calls d, Desk.Run calls d → d.file = f → d.late = false → f.SameData f₀

/-- **All or nothing, however the payload is cut into pieces.** -/
theorem pieces_all_or_nothing (hbegin : beginWrite start length capacity stamp f = .ok w f₀)
    (pieces : List Bytes) : AllOrNothing f start length capacity stamp w f₀ pieces := by
  obtain ⟨-, hdrop, hfit, hcap, hstart⟩ := beginWrite_eq_ok hbegin
  have hbegun := dropTail_eq_ok hdrop
  refine ⟨⟨hstart, hfit, hcap⟩, ?counted, ?succeeds, commit_of_whole hbegin,
    commit_of_not_whole hbegin, ?dropped, hbegun, ?undisturbed, ?safe⟩
  case counted =>
    intro n
    obtain ⟨hfed, hnil, -, hlength⟩ := fed_of_begin hbegin (pieces.take n)
    rw [← hlength]
    exact ⟨hfed.within, hfed.remaining_add hnil⟩
  case succeeds =>
    intro hroom
    constructor
    · rintro ⟨h, g, hok⟩
      by_contra hlacks
      rw [commit_of_not_whole hbegin hlacks] at hok
      cases hok
    · intro hwhole
      have hlen := length_flatten_of_whole hbegin hwhole
      rw [commit_of_whole hbegin hwhole,
        writePayload_eq (hlen ▸ hfit) hcap hstart hdrop hroom]
      exact ⟨_, _, rfl⟩
  case dropped =>
    rw [writePieces, bind_of_ok hbegin]
    rfl
  case undisturbed =>
    rw [hbegun]
    exact sameData_untailed_iff
  case safe =>
    rintro calls d run rfl hlate
    rw [hbegun]
    exact sameData_untailed_iff.mpr (tailClear_of_run run hlate)

/-- A payload of three bytes behind four others, in front of a tail.  It is whole when it comes as a
byte, nothing and two bytes.  It is not when three bytes follow the first one, although the two
after them are taken. -/
theorem pieces_all_or_nothing_split :
    ∃ w f₀, beginWrite 4 3 5 default ⟨Content.empty.write 0 [1, 2, 3, 4, 5], 4, some 4⟩ = .ok w f₀ ∧
      (AllOrNothing ⟨Content.empty.write 0 [1, 2, 3, 4, 5], 4, some 4⟩ 4 3 5 default w f₀
          [[1], [], [2, 3]] ∧
        Writer.Whole 3 (w.writeAll [[1], [], [2, 3]]).1) ∧
      AllOrNothing ⟨Content.empty.write 0 [1, 2, 3, 4, 5], 4, some 4⟩ 4 3 5 default w f₀
          [[1], [2, 3, 4], [5, 6]] ∧
        ¬ Writer.Whole 3 (w.writeAll [[1], [2, 3, 4], [5, 6]]).1 ∧
        Writer.bytesTaken (w.writeAll [[1], [2, 3, 4], [5, 6]]).1 = 3 := by
  have hbegin : beginWrite 4 3 5 default ⟨Content.empty.write 0 [1, 2, 3, 4, 5], 4, some 4⟩ =
    .ok _ _ := rfl
  refine ⟨_, _, hbegin, ⟨pieces_all_or_nothing hbegin _, ?_⟩, pieces_all_or_nothing hbegin _, ?_,
    rfl⟩
  · simp [Writer.Whole, Writer.NoneRefused, Writer.bytesTaken, Writer.writeAll, Writer.write,
      Writer.remaining]
  · simp [Writer.Whole, Writer.NoneRefused, Writer.writeAll, Writer.write, Writer.remaining]

/-- The same announcement of a byte at the cursor, dropped without a piece. -/
def dropped (f : RecordFile) : EStateM.Result Error RecordFile PieceReport :=
  writePieces f.cursor 1 1 ⟨.sample, 2⟩ [] false f

/-- **A payload that is dropped may disturb the data.**  A payload was begun, the file sealed, and
the payload committed behind the tail: it can be read, but it counts as tail, and whoever begins the
next payload cuts it off.  And of a file that was cut in front of its tail behind its back, the
missing bytes come back as zeros. -/
theorem dropped_disturbs :
    (∃ d, Desk.Run [.commit 0, .feed 0 [7], .sealWith ⟨.reserved, 0⟩ [9], .begin 0 1 1 ⟨.sample, 1⟩]
        d ∧ d.file.cursor = 37 ∧ d.file.sealedAt = some 0 ∧
      (d.file.read 0).toOption.map Prod.snd = some [7] ∧
      ∃ f₀, dropped d.file = .ok ⟨1, [], none⟩ f₀ ∧ f₀.content.size = 0 ∧ ¬ d.file.SameData f₀) ∧
    ∃ d, Desk.Run [.sealWith ⟨.reserved, 0⟩ [9], .write 0 ⟨.sample, 1⟩ [7] 1, .reserve 37] d ∧
      ∃ f f₀, f = { d.file with content := d.file.content.resize 10 } ∧
        dropped f = .ok ⟨1, [], none⟩ f₀ ∧ f₀.content.size = 37 ∧ ¬ f.SameData f₀ := by
  refine ⟨⟨_, (((Desk.Run.opened.next _).next _).next _).next _, by decide +kernel,
    by decide +kernel, by decide +kernel, _, rfl, by decide +kernel, fun h => ?_⟩,
    _, ((Desk.Run.opened.next _).next _).next _, _, _, rfl, rfl, by decide +kernel, fun h => ?_⟩
  · exact absurd h.reach (by decide +kernel)
  · exact absurd h.reach (by decide +kernel)

end RecordFile

end SlotStore
