import Mathlib.Tactic.Common
import SlotStore.Proofs.Store.Idle

/-!
# Reading from a store

What an idle store answers is what its volume holds, and the store stays as it is.

* `Store.Poised.get?_live`, `Store.Poised.get?_absent`, `Store.Poised.contains` : the entity of a
  key as the table shows it;
* `Store.Serves.get?`, `Store.Serves.contains` : the same in terms of payloads;
* `Store.keys_eq` : the live keys and their number.
-/

namespace SlotStore.Store

open Steps

variable {α : Type} {s : Store} {k : Key} {e : Entry} {held : Key → Option Bytes} {row : Row}
  {used : List Key} {drawn : Nat} {c : Coding α}

/-! ## Live entries -/

/-- A live entry is one that is not free. -/
lemma mem_live? : s.live? k = some e ↔ s.toc.find? k = some e ∧ e.isFree = false := by
  rw [live?, Option.filter_eq_some_iff, Bool.not_eq_true']

/-- The payload of a live entry can be read, and is what the volume holds. -/
lemma readEntry_live (hs : s.volume.Sound row used drawn) (he : s.live? k = some e) :
    ∃ h payload, Volume.readEntry s.file e = .ok (h, payload) ∧ s.volume.payload? k = some payload ∧
      h.inUse = true ∧ h.key = k ∧ (e.offset, h) ∈ row ∧ e = .ofHeader e.offset h := by
  obtain ⟨hk, hlive⟩ := mem_live?.mp he
  obtain ⟨h, payload, hentry, hu, hkey, hm, hof, _⟩ := hs.readEntry hk hlive
  refine ⟨h, payload, hentry, ?_, hu, hkey, hm, hof⟩
  rw [Volume.payload?_of_live hk hlive, hentry]
  rfl

/-- A key without a live entry has no payload. -/
lemma live?_eq_none (hs : s.volume.Sound row used drawn) :
    s.live? k = none ↔ s.volume.payload? k = none := by
  constructor
  · intro hnone
    show (s.live? k).bind _ = none
    rw [hnone, Option.bind_none]
  · intro hnone
    refine Option.eq_none_iff_forall_ne_some.mpr fun e he => ?_
    obtain ⟨h, payload, _, hpayload, _⟩ := readEntry_live hs he
    rw [hnone] at hpayload
    cases hpayload

/-! ## One key -/

namespace Poised

/-- An entity that is alive is found and held. -/
lemma find_held (hp : s.Poised) (mode : LockMode) (he : s.live? k = some e) :
    find k mode ⟨none, some false⟩ s = .ok (.held e) (s.holding k mode) := by
  rw [find_idle hp.idle hp.ready hp.reserved, he]

/-- An entity that is not alive is absent. -/
lemma find_absent (hp : s.Poised) (mode : LockMode) (he : s.live? k = none) :
    find k mode ⟨none, some false⟩ s = .ok .absent s := by
  rw [find_idle hp.idle hp.ready hp.reserved, he]

/-- A key without a live entry has no entity. -/
theorem get?_absent (hp : s.Poised) (he : s.live? k = none) : Store.get? c k s = .ok none s := by
  have hhold : hold k .shared payloadOf ⟨none, some false⟩ s = .ok (some none) s := by
    rw [hold, bind_of_ok (hp.find_absent .shared he)]
    rfl
  rw [Store.get?, patiently_idle hp.idle, getWithin, bind_of_ok hhold]
  rfl

/-- **The entity of a live entry** is decoded from the payload of its slot. -/
theorem get?_live (hp : s.Poised) (he : s.live? k = some e) :
    Store.get? c k s = match (Volume.readEntry s.file e).bind fun r => c.decode r.2 with
      | .ok x => .ok (some x) s
      | .error err => .error err s := by
  have hfinish : finish k .shared (s.holding k .shared) = s :=
    (finish_holding rfl rfl).trans hp.idle.rested
  rw [Store.get?, patiently_idle hp.idle, getWithin]
  cases hentry : Volume.readEntry s.file e with
  | error err =>
    have hread : payloadOf e (s.holding k .shared) = .error err (s.holding k .shared) := by
      have hfail : orFail (Volume.readEntry (s.holding k .shared).file e) (s.holding k .shared) =
          .error err (s.holding k .shared) := by
        rw [show (s.holding k .shared).file = s.file from rfl, hentry]
        rfl
      rw [payloadOf, get_bind, bind_of_error hfail]
    have hhold : hold k .shared payloadOf ⟨none, some false⟩ s = .error err s := by
      rw [hold, bind_of_ok (hp.find_held .shared he)]
      dsimp only
      rw [recovering, bind_of_error hread]
      exact congrArg (EStateM.Result.error err) hfinish
    rw [bind_of_error hhold]
    rfl
  | ok r =>
    obtain ⟨h, payload⟩ := r
    have hread : payloadOf e (s.holding k .shared) = .ok payload (s.holding k .shared) := by
      have hpure : orFail (Volume.readEntry (s.holding k .shared).file e) (s.holding k .shared) =
          .ok (h, payload) (s.holding k .shared) := by
        rw [show (s.holding k .shared).file = s.file from rfl, hentry]
        rfl
      rw [payloadOf, get_bind, bind_of_ok hpure]
      rfl
    have hhold : hold k .shared payloadOf ⟨none, some false⟩ s =
        .ok (some (some (e, payload))) (s.holding k .shared) := by
      rw [hold, bind_of_ok (hp.find_held .shared he)]
      exact recovering_of_ok ((bind_of_ok hread).trans rfl)
    rw [bind_of_ok hhold]
    dsimp only [Except.bind]
    rw [ensuring_eq]
    cases c.decode payload with
    | ok x => exact congrArg (EStateM.Result.ok (some x)) hfinish
    | error err => exact congrArg (EStateM.Result.error err) hfinish

/-- **Whether a key has an entity** is whether it has a live entry. -/
theorem contains (hp : s.Poised) : Store.contains k s = .ok (s.live? k).isSome s := by
  have hlookup : lookup k (s.inside .shared).unbounded (s.inside .shared) =
      .ok (some (s.live? k)) (s.inside .shared) := lookup_ready hp.ready hp.reserved
  have hleave := hp.idle.leaveGate_inside .shared
  rw [Store.contains, throughGate_idle hp.idle, get_bind, bind_of_ok hlookup]
  cases s.live? k with
  | none => exact congrArg (EStateM.Result.ok false) hleave
  | some e => exact congrArg (EStateM.Result.ok true) hleave

end Poised

/-- **The entity of a key** is what the volume holds under it. -/
theorem Serves.get? (hv : s.Serves held used drawn) :
    Store.get? c k s = match held k with
      | none => .ok none s
      | some payload => match c.decode payload with
        | .ok x => .ok (some x) s
        | .error e => .error e s := by
  obtain ⟨row, hs⟩ := hv.holds.sound
  rw [← hv.holds.held k]
  cases he : s.live? k with
  | none =>
    rw [(live?_eq_none hs).mp he]
    exact hv.poised.get?_absent he
  | some e =>
    obtain ⟨h, payload, hentry, hpayload, _⟩ := readEntry_live hs he
    rw [hpayload, hv.poised.get?_live he, hentry]
    rfl

/-- **Whether a key has an entity** is whether the volume holds something under it. -/
theorem Serves.contains (hv : s.Serves held used drawn) :
    Store.contains k s = .ok (held k).isSome s := by
  obtain ⟨row, hs⟩ := hv.holds.sound
  have hsame : (s.live? k).isSome = (s.volume.payload? k).isSome := by
    rw [Bool.eq_iff_iff, Option.isSome_iff_ne_none, Option.isSome_iff_ne_none, ne_eq, ne_eq,
      live?_eq_none hs]
  rw [hv.poised.contains, hsame, hv.holds.held k]

/-! ## All keys -/

/-- A table that is told to be ready keeps nobody waiting. -/
lemma waitReady_of_succeeded (h : s.toc.signal = .succeeded) : s.waitReady = .ok () := by
  rw [waitReady, h]
  rfl

/-- A table that is ready is ready behind the gate. -/
lemma waitReady_inside (h : s.toc.signal = .succeeded) (mode : LockMode) :
    orFail (s.inside mode).waitReady (s.inside mode) = .ok () (s.inside mode) := by
  rw [waitReady_of_succeeded (s := s.inside mode) h]
  rfl

/-- **The live keys** are listed once each, and counted. -/
theorem keys_eq (hv : s.volume.Holds held used drawn) :
    ∃ ks, s.keys = .ok ks ∧ s.size = .ok ks.length ∧ ks.Nodup ∧
      ∀ k, k ∈ ks ↔ (held k).isSome = true := by
  obtain ⟨row, hs⟩ := hv.sound
  have hready : s.waitReady = .ok () := waitReady_of_succeeded hs.signal
  refine ⟨s.toc.activeEntries.map (·.key), ?_, ?_, ?_, fun k => ?_⟩
  · rw [keys, hready]
    rfl
  · have hlive : s.toc.stats.live = s.toc.activeEntries.length := hs.described.stats_live
    rw [size, hready, List.length_map, ← hlive]
    rfl
  · exact List.pairwise_map.mpr s.toc.activeEntries_distinct
  · have hlive : k ∈ s.toc.activeEntries.map (·.key) ↔ ∃ e, s.live? k = some e := by
      rw [List.mem_map]
      constructor
      · rintro ⟨e, he, rfl⟩
        exact ⟨e, mem_live?.mpr (hs.described.mem_activeEntries.mp he)⟩
      · rintro ⟨e, he⟩
        obtain ⟨hk, hfree⟩ := mem_live?.mp he
        have hkey : e.key = k := Keyed.key_of_get? hk
        exact ⟨e, hs.described.mem_activeEntries.mpr ⟨hkey.symm ▸ hk, hfree⟩, hkey⟩
    rw [hlive, ← Option.isSome_iff_exists, ← hv.held k, Option.isSome_iff_ne_none,
      Option.isSome_iff_ne_none, ne_eq, ne_eq, live?_eq_none hs]

end SlotStore.Store
