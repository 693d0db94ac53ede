import Mathlib.Tactic.Common
import SlotStore.Proofs.Store.Run

/-!
# A store behaves as a map

The history of a run tells what a map would hold after it.  As long as every entity that is written
can be encoded and decoded again, and a store is closed only to be opened again on its sealed file,
each operation of a store answers what such a map would.

* `ledger` : what a history leaves under each key;
* `Conforms` : an answer that a map of entities could give;
* `Run.spells` : the payloads of a store are those of the entities;
* `Run.behaves_as_map` : the main result.
-/

namespace SlotStore

open Volume

variable {α : Type}

/-! ## The map of a history -/

/-- The key that an operation is to change the entity of, and the entity it is to have. -/
def Operation.write? : Operation α → Option (Key × Option α)
  | .add k x => some (k, some x)
  | .update k x => some (k, some x)
  | .delete k => some (k, none)
  | _ => none

/-- What an event leaves under each key: only writes that succeeded change anything. -/
def Event.leaves (e : Event α) (live : Key → Option α) (j : Key) : Option α :=
  match e.op.write?, e.answer with
  | some (k, x), .done => if j = k then x else live j
  | _, _ => live j

/-- **What a history leaves under each key**: the entity of the last write that succeeded. -/
def ledger (h : List (Event α)) : Key → Option α := h.foldr Event.leaves fun _ => none

/-- An operation leaves the entities of the keys that it does not write. -/
def Operation.Spares (op : Operation α) (k : Key) : Prop := ∀ x, op.write? ≠ some (k, x)

/-- An event leaves the entities of the keys that it does not write, and all of them if it
failed. -/
lemma Event.leaves_of_other (e : Event α) (live : Key → Option α) {k : Key}
    (h : e.op.Spares k ∨ ∃ err, e.answer = .failed err) : e.leaves live k = live k := by
  rw [Event.leaves]
  split
  · rename_i k' x hwrite hdone
    rcases h with h | ⟨err, h⟩
    · exact if_neg fun hk : k = k' => h x (hk ▸ hwrite)
    · cases hdone.symm.trans h
  · rfl

/-! ## Entities and payloads -/

/-- A payload that an entity is encoded as and decoded from. -/
structure Coding.Spells (c : Coding α) (x : α) (payload : Bytes) : Prop where
  encode : c.encode x = .ok payload
  short : payload.length < lengthLimit
  decode : c.decode payload = .ok x

/-- Every key has the payload of its entity. -/
def Spelled (c : Coding α) (live : Key → Option α) (held : Key → Option Bytes) : Prop :=
  ∀ k, match live k with
    | none => held k = none
    | some x => ∃ payload, held k = some payload ∧ c.Spells x payload

section Spelled

variable {c : Coding α} {live : Key → Option α} {held : Key → Option Bytes} {k : Key} {x : α}
  {payload : Bytes}

/-- A key without a payload has no entity. -/
lemma Spelled.of_none (hl : Spelled c live held) (hk : held k = none) : live k = none := by
  have hspelled := hl k
  cases hx : live k with
  | none => rfl
  | some x =>
    simp only [hx, hk] at hspelled
    obtain ⟨_, h, _⟩ := hspelled
    cases h

/-- A key with a payload has the entity that is coded in it. -/
lemma Spelled.of_some (hl : Spelled c live held) (hk : held k = some payload) :
    ∃ x, live k = some x ∧ c.Spells x payload := by
  have hspelled := hl k
  cases hx : live k with
  | none =>
    simp only [hx, hk] at hspelled
    cases hspelled
  | some x =>
    simp only [hx] at hspelled
    obtain ⟨payload', h, hx'⟩ := hspelled
    cases hk.symm.trans h
    exact ⟨x, rfl, hx'⟩

lemma Spelled.of_ne_none (hl : Spelled c live held) (hk : held k ≠ none) :
    ∃ x, live k = some x := by
  obtain ⟨payload, hpayload⟩ := Option.ne_none_iff_exists'.mp hk
  obtain ⟨x, hx, _⟩ := hl.of_some hpayload
  exact ⟨x, hx⟩

/-- Keys with entities are those with payloads. -/
lemma Spelled.isSome (hl : Spelled c live held) (k : Key) : (live k).isSome = (held k).isSome := by
  cases hk : held k with
  | none => rw [hl.of_none hk]; rfl
  | some payload =>
    obtain ⟨x, hx, _⟩ := hl.of_some hk
    rw [hx]
    rfl

/-- One more entity with its payload. -/
lemma Spelled.put (hl : Spelled c live held) (hx : c.Spells x payload) :
    Spelled c (fun j => if j = k then some x else live j)
      fun j => if j = k then some payload else held j := by
  intro j
  by_cases hj : j = k
  · simp only [hj, if_true]
    exact ⟨payload, rfl, hx⟩
  · simp only [if_neg hj]
    exact hl j

lemma Spelled.erase (hl : Spelled c live held) :
    Spelled c (fun j => if j = k then none else live j)
      fun j => if j = k then none else held j := by
  intro j
  by_cases hj : j = k
  · simp only [hj, if_true]
  · simp only [if_neg hj]
    exact hl j

end Spelled

/-! ## Answers of a map -/

/-- The file would have to reach past the last position to take an entity. -/
def Store.Full (c : Coding α) (s : Store) (x : α) : Prop :=
  ∃ payload, c.encode x = .ok payload ∧
    positionLimit ≤ s.file.cursor + (Header.size + payload.length)

/-- **An answer that a map of entities could give.**  Where the file or its tail is to be written it
may also be that there is no room. -/
def Conforms (c : Coding α) (s : Store) (live : Key → Option α) (a : Answer α) :
    Operation α → Prop
  | .add _ x => a = .done ∨ s.Full c x ∧ a = .failed (.file .invalidPosition)
  | .get k => a = .entity (live k)
  | .update k x =>
    match live k with
    | none => a = .failed (.entityNotFound k)
    | some _ => a = .done ∨ s.Full c x ∧ a = .failed (.file .invalidPosition)
  | .delete k =>
    match live k with
    | none => a = .failed (.entityNotFound k)
    | some _ => a = .done
  | .contains k => a = .truth (live k).isSome
  | .size => ∃ ks, Lists live ks ∧ a = .count ks.length
  | .keys => ∃ ks, Lists live ks ∧ a = .keys ks
  | .shrink => a = .done ∨ s.shadow = .directory ∧ a = .failed (.file .isDirectory)
  | .checkpoint => a = .done ∨ NoSeal s.volume ∧ ∃ e, a = .failed e
  | .reopen config =>
    a = .done ∨ ∃ e, a = .failed e ∧ (config.validate = .error e ∨ NoSeal s.volume)

/-- The entities that an operation writes pass through the codec. -/
def Operation.Codes (c : Coding α) : Operation α → Prop
  | .add _ x => ∃ payload, c.Spells x payload
  | .update _ x => ∃ payload, c.Spells x payload
  | _ => True

section Answers

variable {c : Coding α} {s : Store} {live : Key → Option α} {held held' : Key → Option Bytes}
  {op : Operation α} {a : Answer α}

/-- The keys of the payloads are those of the entities. -/
lemma Lists.spelled {ks : List Key} (hl : Spelled c live held) (hks : Lists held ks) :
    Lists live ks :=
  ⟨hks.1, fun k => by rw [hks.2 k, hl.isSome k]⟩

/-- A payload that is short finds no room only at the end of the file. -/
lemma full_of_noRoom {x : α} {payload payload' : Bytes} {e : Error} (hx : c.Spells x payload')
    (henc : c.encode x = .ok payload) (hroom : NoRoom s.volume payload e) :
    s.Full c x ∧ Answer.failed (α := α) e = .failed (.file .invalidPosition) := by
  cases henc.symm.trans hx.encode
  cases hroom with
  | length hlength => exact absurd hx.short (Nat.not_lt.mpr hlength)
  | position hposition => exact ⟨⟨payload, henc, hposition⟩, rfl⟩

/-- **What an operation comes to in terms of entities**, given what it comes to in terms of
payloads. -/
theorem Answers.conforms (ha : Answers c s held op a held') (hl : Spelled c live held)
    (hcodes : op.Codes c) (draws : Nat) :
    Conforms c s live a op ∧ Spelled c (Event.leaves ⟨op, a, draws⟩ live) held' := by
  cases ha with
  | added hx =>
    obtain ⟨payload, hspells⟩ := hcodes
    cases hx.symm.trans hspells.encode
    exact ⟨Or.inl rfl, hl.put hspells⟩
  | addFull hx hroom =>
    obtain ⟨payload, hspells⟩ := hcodes
    exact ⟨Or.inr (full_of_noRoom hspells hx hroom), hl⟩
  | addRefused hx =>
    obtain ⟨payload, hspells⟩ := hcodes
    cases hx.symm.trans hspells.encode
  | got hk hx =>
    obtain ⟨x', hlive, hspells⟩ := hl.of_some hk
    cases hx.symm.trans hspells.decode
    exact ⟨congrArg Answer.entity hlive.symm, hl⟩
  | garbled hk hx =>
    obtain ⟨x', _, hspells⟩ := hl.of_some hk
    cases hx.symm.trans hspells.decode
  | missed hk => exact ⟨congrArg Answer.entity (hl.of_none hk).symm, hl⟩
  | updated hk hx =>
    obtain ⟨payload, hspells⟩ := hcodes
    obtain ⟨old, hlive⟩ := hl.of_ne_none hk
    cases hx.symm.trans hspells.encode
    refine ⟨?_, hl.put hspells⟩
    simp only [Conforms, hlive]
    exact Or.inl trivial
  | updateFull hk hx hroom =>
    obtain ⟨payload, hspells⟩ := hcodes
    obtain ⟨old, hlive⟩ := hl.of_ne_none hk
    refine ⟨?_, hl⟩
    simp only [Conforms, hlive]
    exact Or.inr (full_of_noRoom hspells hx hroom)
  | updateRefused hk hx =>
    obtain ⟨payload, hspells⟩ := hcodes
    cases hx.symm.trans hspells.encode
  | updateAbsent hk =>
    refine ⟨?_, hl⟩
    simp only [Conforms, hl.of_none hk]
  | deleted hk =>
    obtain ⟨old, hlive⟩ := hl.of_ne_none hk
    refine ⟨?_, hl.erase⟩
    simp only [Conforms, hlive]
  | deleteAbsent hk =>
    refine ⟨?_, hl⟩
    simp only [Conforms, hl.of_none hk]
  | contained => exact ⟨congrArg Answer.truth (hl.isSome _).symm, hl⟩
  | counted hks => exact ⟨⟨_, hks.spelled hl, rfl⟩, hl⟩
  | listed hks => exact ⟨⟨_, hks.spelled hl, rfl⟩, hl⟩
  | shrunk => exact ⟨Or.inl rfl, hl⟩
  | blocked hshadow => exact ⟨Or.inr ⟨hshadow, rfl⟩, hl⟩
  | sealed => exact ⟨Or.inl rfl, hl⟩
  | unsealed hseal => exact ⟨Or.inr ⟨hseal, _, rfl⟩, hl⟩
  | reopened => exact ⟨Or.inl rfl, hl⟩
  | unopened h => exact ⟨Or.inr ⟨_, rfl, h⟩, hl⟩

end Answers

/-! ## Runs -/

/-- The rules of a run under which a store is to behave as a map: a store is used while it is open,
entities pass through the codec and are added under new keys, and a store that is closed leaves its
table in the file. -/
structure MapRules (c : Coding α) (h : List (Event α)) (s : Store) (op : Operation α) : Prop where
  opened : s.closed = false
  fresh : op.Fresh h
  codes : op.Codes c
  persists : ∀ config, op = .reopen config → s.config.persistOnClose = true

section Runs

variable {c : Coding α} {h : List (Event α)} {s : Store} {held : Key → Option Bytes}
  {op : Operation α}

/-- An open store serves. -/
lemma Store.Stands.serves_of_opened {used : List Key} {n : Nat} (hs : s.Stands held used n)
    (hopened : s.closed = false) : s.Serves held used n := by
  cases hs with
  | serves h => exact h
  | parked h =>
    rw [h.shut.closed] at hopened
    cases hopened

/-- **One step** of such a run. -/
theorem Store.Serves.outcome (hs : s.Serves held (added h) (drawn h))
    (allowed : MapRules c h s op) :
    ∃ held', Store.Outcome c s held op held' (op.adds ++ added h) (drawn h + s.draws c op)
      (s.perform c op) := by
  refine hs.perform op (fun k x hop => ?_) fun config hop s' hclose => Or.inl ?_
  · subst hop
    exact allowed.fresh
  · obtain ⟨t, ⟨ht, hsealed⟩ | ⟨e, ht, _⟩, _⟩ := hs.close
    · cases hclose.symm.trans ht
      exact hsealed (allowed.persists config hop)
    · cases hclose.symm.trans ht

/-- **The payloads of a store are those of the entities** that the history leaves. -/
theorem Run.spelled (run : Run c (MapRules c) h s) :
    ∃ held, s.Stands held (added h) (drawn h) ∧ Spelled c (ledger h) held := by
  induction run with
  | opened hopen => exact ⟨_, .serves (Store.serves_opened hopen), fun _ => rfl⟩
  | @next h s op run allowed ih =>
    obtain ⟨held, hs, hl⟩ := ih
    obtain ⟨held', hout⟩ := (hs.serves_of_opened allowed.opened).outcome allowed
    refine ⟨held', ?_, (hout.answers.conforms hl allowed.codes _).2⟩
    rw [drawn_cons]
    exact hout.stands

/-- Each answer of a run is one that a map could give, and the store is open after it unless it
could not be opened again. -/
theorem Run.conforms (run : Run c (MapRules c) h s) (allowed : MapRules c h s op) :
    Conforms c s (ledger h) (s.perform c op).1 op ∧
      ((∀ config, op ≠ .reopen config) ∨ (s.perform c op).1 = .done →
        (s.perform c op).2.closed = false) := by
  obtain ⟨held, hs, hl⟩ := run.spelled
  obtain ⟨held', hout⟩ := (hs.serves_of_opened allowed.opened).outcome allowed
  exact ⟨(hout.answers.conforms hl allowed.codes 0).1, hout.opened⟩

/-- **A reader is told what the ledger says.** -/
lemma Run.answer_get (run : Run c (MapRules c) h s) (hopened : s.closed = false) (k : Key) :
    (s.perform c (.get k)).1 = .entity (ledger h k) :=
  have hrules : MapRules c h s (.get k) := ⟨hopened, trivial, trivial, fun _ hop => by cases hop⟩
  (run.conforms hrules).1

/-- **A store behaves as a map.**  After any run each operation answers what a map of the entities
that the history leaves would answer, the store stays open unless it cannot be opened again, and a
key that the operation does not write, or any key if it fails, keeps its entity. -/
theorem Run.behaves_as_map (run : Run c (MapRules c) h s) (allowed : MapRules c h s op) :
    Conforms c s (ledger h) (s.perform c op).1 op ∧
      ((∀ config, op ≠ .reopen config) ∨ (s.perform c op).1 = .done →
        (s.perform c op).2.closed = false) ∧
      ((s.perform c op).2.closed = false →
        ∀ k, op.Spares k ∨ (∃ e, (s.perform c op).1 = .failed e) →
          ((s.perform c op).2.perform c (.get k)).1 = (s.perform c (.get k)).1) := by
  obtain ⟨hconforms, hopen⟩ := run.conforms allowed
  refine ⟨hconforms, hopen, fun hopened k hk => ?_⟩
  rw [(Run.next run allowed).answer_get hopened k, run.answer_get allowed.opened k]
  exact congrArg Answer.entity (Event.leaves_of_other _ _ hk)

end Runs

/-- An entity is got from a store that was opened again after the entity was added. -/
theorem Run.behaves_as_map_reopened : ∃ h s, Run .plain (MapRules .plain) h s ∧
    MapRules .plain h s (.get .sample) ∧
      (s.perform .plain (.get .sample)).1 = .entity (some [7]) := by
  have hspells : Coding.plain.Spells [7] [7] := ⟨rfl, by decide, rfl⟩
  have hadd : MapRules .plain [] .fresh (.add .sample [7]) :=
    ⟨rfl, ⟨by decide, by decide⟩, ⟨_, hspells⟩, fun _ hop => by cases hop⟩
  have hreopen : ∀ h s, s.closed = false → s.config.persistOnClose = true →
      MapRules .plain h s (.reopen .testing) :=
    fun _ _ hopened hpersists => ⟨hopened, trivial, trivial, fun _ _ => hpersists⟩
  have hget : ∀ h s, s.closed = false → MapRules .plain h s (.get .sample) :=
    fun _ _ hopened => ⟨hopened, trivial, trivial, fun _ hop => by cases hop⟩
  have opened : Run .plain (MapRules .plain) [] .fresh := .opened Store.openFile_fresh
  have added := opened.next hadd
  have reopened := added.next (hreopen _ _ rfl rfl)
  exact ⟨_, _, reopened, hget _ _ (by decide +kernel),
    (reopened.behaves_as_map (hget _ _ (by decide +kernel))).1⟩

end SlotStore
