import Mathlib.Tactic.Common
import SlotStore.Proofs.Query.Turns
import SlotStore.Proofs.Store.Deleted
import SlotStore.Proofs.Store.Indexed

/-!
# Queries that run while a store changes

A query whose source is decoded row by row holds the keys that were alive when it was planned.
Between two rows the store is changed at will: slots move, are given to other keys and are compacted
away.  Each key is looked up again when its turn comes, so a row is what the key holds at that time.

* `Usage`, `Usage.stands` : runs of a store with any indexes, and the payloads it holds after them;
* `Browsing` : a query and changes of the store that take turns;
* `Tour`, `Streamed` : what the query gives along the way;
* `Usage.streams` : the main result;
* `Run.streams_corrupt` : a store that was opened with a table from a payload.
-/

namespace SlotStore

variable {α : Type} {c : Coding α}

/-! ## Entities as they were encoded -/

/-- What the codec reads of an entity that it wrote. -/
def Coding.reread (c : Coding α) (x : α) : Except Error α := (c.encode x).bind c.decode

/-- What a key holds, as the codec reads it. -/
def Coding.valueIn (c : Coding α) (live : Key → Option α) (k : Key) : Except Error (Option α) :=
  match live k with
  | none => .ok none
  | some x => (c.reread x).map some

/-- **Every key has the payload that its entity was encoded as.** -/
def Encoded (c : Coding α) (live : Key → Option α) (held : Key → Option Bytes) : Prop :=
  ∀ k, (live k).map c.encode = (held k).map .ok

section Encoded

variable {live : Key → Option α} {held held' : Key → Option Bytes} {k : Key} {x : α}
  {payload : Bytes} {s : Store} {op : Operation α} {a : Answer α}

lemma Encoded.isSome (hl : Encoded c live held) (k : Key) : (live k).isSome = (held k).isSome := by
  simpa using congrArg Option.isSome (hl k)

lemma Encoded.put (hl : Encoded c live held) (hx : c.encode x = .ok payload) :
    Encoded c (fun j => if j = k then some x else live j)
      fun j => if j = k then some payload else held j := by
  intro j
  by_cases hj : j = k
  · simp [hj, hx]
  · simpa [hj] using hl j

lemma Encoded.erase (hl : Encoded c live held) :
    Encoded c (fun j => if j = k then none else live j)
      fun j => if j = k then none else held j := by
  intro j
  by_cases hj : j = k
  · simp [hj]
  · simpa [hj] using hl j

/-- What a key holds is read from its payload. -/
lemma Encoded.valueIn (hl : Encoded c live held) (k : Key) :
    c.valueIn live k = match held k with
      | none => .ok none
      | some payload => (c.decode payload).map some := by
  have hk := hl k
  rw [Coding.valueIn]
  cases hlive : live k with
  | none =>
    rw [hlive] at hk
    rw [Option.map_eq_none_iff.mp hk.symm]
  | some x =>
    rw [hlive] at hk
    obtain ⟨payload, hpayload, hx⟩ := Option.map_eq_some_iff.mp hk.symm
    simp only [hpayload, Coding.reread, ← hx]
    rfl

/-- **What an operation leaves** under each key is what it encoded. -/
theorem Answers.encoded (ha : Answers c s held op a held') (hl : Encoded c live held)
    (draws : Nat) : Encoded c (Event.leaves ⟨op, a, draws⟩ live) held' := by
  cases ha with
  | added hx => exact hl.put hx
  | updated _ hx => exact hl.put hx
  | deleted _ => exact hl.erase
  | _ => exact hl

end Encoded

/-! ## Runs with any indexes -/

/-- **A run of a store** on a file that was empty at first: entities are added under new keys, and
the store is opened again on its own file.  Its indexes are of no concern. -/
inductive Usage (c : Coding α) : List (Event α) → Store → Prop
  | opened {config : Config} {shadow : RecordFile.ShadowNode} {s : Store}
    (hopen : Store.openFile config (.ok .empty) shadow = .ok s) : Usage c [] s
  | next {h : List (Event α)} {s : Store} (usage : Usage c h s) (op : Operation α)
    (fresh : op.Fresh h) (ways : ∀ config, op = .reopen config → s.Ways (drawn h)) :
    Usage c (s.event c op :: h) (s.perform c op).2
  | indexed {h : List (Event α)} {s : Store} (usage : Usage c h s) (indexes : List FieldIndex) :
    Usage c h { s with indexes }

section Usage

variable {h : List (Event α)} {s : Store} {op : Operation α} {held : Key → Option Bytes}
  {used : List Key} {n : Nat}

/-- Nothing is written to a store that is closed. -/
lemma Store.Shut.leaves (hs : s.Shut) (live : Key → Option α) :
    (s.event c op).leaves live = live := by
  have hfailed {r : EStateM.Result Error Store Unit} (hr : r = .error .closed s) :
      (Store.tell (fun _ => (.done : Answer α)) r).1 = .failed .closed :=
    congrArg Prod.fst (Store.tell_error hr)
  funext k
  cases op with
  | add j x => exact Event.leaves_of_other _ _ (.inr ⟨_, hfailed (Store.throughGate_shut hs)⟩)
  | update j x => exact Event.leaves_of_other _ _ (.inr ⟨_, hfailed hs.update⟩)
  | delete j => exact Event.leaves_of_other _ _ (.inr ⟨_, hfailed hs.delete⟩)
  | _ => exact Event.leaves_of_other _ _ (.inl fun _ hwrite => by cases hwrite)

/-- After an operation each key has the payload that its entity was encoded as. -/
lemma Encoded.perform (hl : Encoded c (ledger h) held)
    (hs : s.Stands held (added h) (drawn h)) (op : Operation α) (fresh : op.Fresh h)
    (ways : ∀ config, op = .reopen config → s.Ways (drawn h)) :
    ∃ held', (s.perform c op).2.Stands held' (added (s.event c op :: h))
      (drawn (s.event c op :: h)) ∧ Encoded c (ledger (s.event c op :: h)) held' := by
  cases hs with
  | serves hs =>
    obtain ⟨held', hout⟩ := hs.perform op (fun k x hop => by subst hop; exact fresh) ways
    exact ⟨held', hout.stands, hout.answers.encoded hl _⟩
  | parked hs =>
    have hkept : (s.event c op).leaves (ledger h) = ledger h := hs.shut.leaves (ledger h)
    exact ⟨held, hs.perform op ways, by rw [ledger, List.foldr_cons]; exact hkept ▸ hl⟩

/-- **The payloads of a store** are what the entities of the history were encoded as. -/
theorem Usage.stands (usage : Usage c h s) :
    ∃ held, s.Stands held (added h) (drawn h) ∧ Encoded c (ledger h) held := by
  induction usage with
  | opened hopen => exact ⟨_, .serves (Store.serves_opened hopen), fun _ => rfl⟩
  | next _ op fresh ways ih =>
    obtain ⟨held, hs, hl⟩ := ih
    exact hl.perform hs op fresh ways
  | indexed _ indexes ih =>
    obtain ⟨held, hs, hl⟩ := ih
    exact ⟨held, hs.index indexes, hl⟩

end Usage

/-! ## A query and changes that take turns -/

/-- What was given at a call for a row, and what had happened to the store by then. -/
abbrev Asked (α : Type) := List (Event α) × Option (Except Error α)

/-- **A query that is under way and changes of the store take turns.**  The last call for a row
comes first; the store is not opened again in between. -/
inductive Browsing (c : Coding α) (h₀ : List (Event α)) (s₀ : Store) (rows₀ : Rows α) :
    List (Event α) → Store → Rows α → List (Asked α) → Prop
  | planned : Browsing c h₀ s₀ rows₀ h₀ s₀ rows₀ []
  | next {h : List (Event α)} {s : Store} {rows : Rows α} {calls : List (Asked α)}
    (browsing : Browsing c h₀ s₀ rows₀ h s rows calls) :
    Browsing c h₀ s₀ rows₀ h s (s.nextRow c rows).2 ((h, (s.nextRow c rows).1) :: calls)
  | changed {h : List (Event α)} {s : Store} {rows : Rows α} {calls : List (Asked α)}
    (browsing : Browsing c h₀ s₀ rows₀ h s rows calls) (op : Operation α) (fresh : op.Fresh h)
    (stays : ∀ config, op ≠ .reopen config) :
    Browsing c h₀ s₀ rows₀ (s.event c op :: h) (s.perform c op).2 rows calls

/-- **The way of a query through the planned keys**: each call goes on where the one before stopped,
and meets what the keys hold at the time. -/
inductive Tour (c : Coding α) (accepts : α → Bool) (ks : List Key) :
    List (Asked α) → List Key → Prop
  | planned : Tour c accepts ks [] ks
  | next {calls : List (Asked α)} {left left' : List Key} {h : List (Event α)}
    {row : Option (Except Error α)} (tour : Tour c accepts ks calls left)
    (turn : Rows.Turn (c.valueIn (ledger h)) accepts left row left') :
    Tour c accepts ks ((h, row) :: calls) left'

section Tour

variable {accepts : α → Bool} {ks left : List Key} {calls : List (Asked α)}

/-- A row that was given: for which key, and what had happened to the store by then. -/
structure Given (α : Type) where
  key : Key
  history : List (Event α)
  row : Except Error α

/-- The rows among some calls, the first of them first. -/
def rowsOf (calls : List (Asked α)) : List (List (Event α) × Except Error α) :=
  calls.reverse.filterMap fun call => call.2.map (call.1, ·)

lemma rowsOf_cons_none (h : List (Event α)) (calls : List (Asked α)) :
    rowsOf ((h, none) :: calls) = rowsOf calls := by
  simp [rowsOf]

lemma rowsOf_cons_some (h : List (Event α)) (r : Except Error α) (calls : List (Asked α)) :
    rowsOf ((h, some r) :: calls) = rowsOf calls ++ [(h, r)] := by
  simp [rowsOf]

/-- **What a query gives** along its way. -/
structure Streamed (c : Coding α) (accepts : α → Bool) (ks : List Key) (calls : List (Asked α))
    (left : List Key) : Prop where
  tour : Tour c accepts ks calls left
  /-- The rows are those of planned keys in their order, each once, and none of those left.  A row
  is what the key held at that time, and the filters accept it. -/
  rows : ∃ given : List (Given α), given.map (fun g => (g.history, g.row)) = rowsOf calls ∧
    (given.map Given.key ++ left).Sublist ks ∧ (given.map Given.key).Nodup ∧
    ∀ g ∈ given, c.valueIn (ledger g.history) g.key = g.row.map some ∧
      ∀ x, g.row = .ok x → accepts x = true
  /-- The query ends only when no key is left. -/
  ended : ∀ h, (h, none) ∈ calls → left = []
  /-- Nothing is an error but an entity that the codec cannot read back. -/
  errors : ∀ h e, (h, some (.error e)) ∈ calls →
    ∃ k ∈ ks, ∃ x, ledger h k = some x ∧ c.reread x = .error e

namespace Tour

variable {h : List (Event α)} {e : Error} {r : Except Error α}

lemma suffix (tour : Tour c accepts ks calls left) : left <:+ ks := by
  induction tour with
  | planned => exact List.suffix_rfl
  | next _ turn ih => exact turn.suffix.trans ih

/-- A tour that was told the end has no key left. -/
lemma ended (tour : Tour c accepts ks calls left) (hmem : (h, none) ∈ calls) : left = [] := by
  induction tour with
  | planned => cases hmem
  | next _ turn ih =>
    rcases List.mem_cons.mp hmem with hlast | hbefore
    · exact turn.left_of_none (congrArg Prod.snd hlast).symm
    · have hnone := turn.suffix
      rw [ih hbefore] at hnone
      exact List.suffix_nil.mp hnone

/-- Each row is that of a planned key, at the time of the call. -/
lemma exists_given (tour : Tour c accepts ks calls left) : ∃ given : List (Given α),
    given.map (fun g => (g.history, g.row)) = rowsOf calls ∧
      (given.map Given.key ++ left).Sublist ks ∧
      ∀ g ∈ given, c.valueIn (ledger g.history) g.key = g.row.map some ∧
        ∀ x, g.row = .ok x → accepts x = true := by
  induction tour with
  | planned => exact ⟨[], rfl, .refl _, nofun⟩
  | @next calls left left' h row _ turn ih =>
    obtain ⟨given, hrows, hsublist, hgiven⟩ := ih
    cases row with
    | none =>
      refine ⟨given, by rw [rowsOf_cons_none, hrows], ?_, hgiven⟩
      exact ((turn.suffix.sublist).append_left _).trans hsublist
    | some r =>
      obtain ⟨passed, k, rfl, hk, haccepts, -⟩ := turn.exists_key rfl
      refine ⟨given ++ [⟨k, h, r⟩], by simp [rowsOf_cons_some, hrows], ?_, ?_⟩
      · have hpassed : (k :: left').Sublist (passed ++ k :: left') := List.sublist_append_right _ _
        simpa using (hpassed.append_left (given.map Given.key)).trans hsublist
      · exact List.forall_mem_append.mpr
          ⟨hgiven, List.forall_mem_singleton.mpr ⟨hk, haccepts⟩⟩

/-- An error in a tour is that of an entity that is not read back. -/
lemma error_of_mem (tour : Tour c accepts ks calls left) (hmem : (h, some (.error e)) ∈ calls) :
    ∃ k ∈ ks, ∃ x, ledger h k = some x ∧ c.reread x = .error e := by
  induction tour with
  | planned => cases hmem
  | @next calls left left' h' row tour turn ih =>
    rcases List.mem_cons.mp hmem with hlast | hbefore
    · obtain ⟨rfl, hrow⟩ := Prod.mk.inj hlast
      obtain ⟨passed, k, rfl, hk, -⟩ := turn.exists_key hrow.symm
      refine ⟨k, tour.suffix.subset (List.mem_append_right _ List.mem_cons_self), ?_⟩
      rw [Coding.valueIn] at hk
      cases hlive : ledger h k with
      | none =>
        rw [hlive] at hk
        cases hk
      | some x =>
        rw [hlive] at hk
        cases hx : c.reread x with
        | ok y =>
          simp only [hx] at hk
          cases hk
        | error e' =>
          simp only [hx] at hk
          cases hk
          exact ⟨x, rfl, hx⟩
    · exact ih hbefore

/-- **A tour streams** the rows of its keys, each once. -/
lemma streamed (tour : Tour c accepts ks calls left) (hks : ks.Nodup) :
    Streamed c accepts ks calls left := by
  obtain ⟨given, hrows, hsublist, hgiven⟩ := tour.exists_given
  have hkeys : (given.map Given.key).Sublist ks :=
    (List.sublist_append_left _ left).trans hsublist
  exact ⟨tour, ⟨given, hrows, hsublist, hks.sublist hkeys, hgiven⟩, fun _ => tour.ended,
    fun _ _ => tour.error_of_mem⟩

end Tour

end Tour

/-! ## The way of a streaming query -/

section Streams

variable {h₀ h : List (Event α)} {s₀ s : Store} {held : Key → Option Bytes} {rows : Rows α}
  {tests : List (α → Bool)} {ks keys : List Key} {calls : List (Asked α)} {q : Query α}
  {plan : Plan} {n : Nat} {used : List Key}

/-- **Turn by turn** the store goes on to serve, and the query goes on where it stopped. -/
lemma Browsing.tour (browsing : Browsing c h₀ s₀ (Rows.browsing tests ks) h s rows calls)
    (hs : s₀.Serves held (added h₀) (drawn h₀)) (hl : Encoded c (ledger h₀) held) :
    ∃ held left, s.Serves held (added h) (drawn h) ∧ Encoded c (ledger h) held ∧
      rows = Rows.browsing tests left ∧
        Tour c (fun x => tests.all fun test => test x) ks calls left := by
  induction browsing with
  | planned => exact ⟨held, ks, hs, hl, rfl, .planned⟩
  | @next h s rows calls _ ih =>
    obtain ⟨held, left, hs, hl, rfl, tour⟩ := ih
    obtain ⟨row, left', hnext, hturn⟩ := Rows.next_browsing (s.decode? c) tests left
    have hvalue : s.decode? c = c.valueIn (ledger h) :=
      funext fun k => (hs.decode?_held k).trans (hl.valueIn k).symm
    rw [hvalue] at hturn
    rw [Store.nextRow, hnext]
    exact ⟨held, left', hs, hl, rfl, .next tour hturn⟩
  | @changed h s rows calls _ op fresh stays ih =>
    obtain ⟨held, left, hs, hl, hrows, tour⟩ := ih
    obtain ⟨held', hout⟩ := hs.perform (c := c) op (fun k x hop => by subst hop; exact fresh)
      fun config hop => absurd hop (stays config)
    have hopened := hout.opened (.inl stays)
    exact ⟨held', left, hout.stands.serves_of_opened hopened, hout.answers.encoded hl _, hrows,
      tour⟩

/-- A query that decodes row by row is planned over all live entities. -/
lemma Store.plan_streaming (hplan : s.plan q = .ok (plan, keys))
    (hstreaming : plan.strategy = .streaming n) : keys = s.toc.activeEntries.map (·.key) := by
  have hmake : Plan.make s.toc s.indexes q = (plan, keys) := by
    rw [Store.plan] at hplan
    cases hready : s.waitReady with
    | error e =>
      rw [hready] at hplan
      cases hplan
    | ok _ =>
      rw [hready] at hplan
      exact Except.ok.inj hplan
  rw [Plan.make] at hmake
  split at hmake
  · cases hmake
    cases hstreaming
  · exact (congrArg Prod.snd hmake).symm

/-- **A streaming query survives changes between its rows.**  It goes through the keys that were
alive when it was planned, in the order of the file at that moment, each once: those that are gone
when their turn comes are passed over, and for the others it gives what they hold at that time, if
the filters accept it.  The only errors are entities that the codec itself cannot read back. -/
theorem Usage.streams (usage : Usage c h₀ s₀) (hopened : s₀.closed = false)
    (hfilters : ∀ stage ∈ q.stages, stage.isFilter = true)
    (hplan : s₀.plan q = .ok (plan, keys)) (hstreaming : plan.strategy = .streaming n) :
    ∃ es rows₀, s₀.Roll (ledger h₀) es ∧ keys = es.map (·.key) ∧ s₀.rows c q = .ok rows₀ ∧
      ∀ h s rows calls, Browsing c h₀ s₀ rows₀ h s rows calls →
        s.closed = false ∧ ∃ left, Streamed c (q.accepts c.document) keys calls left := by
  obtain ⟨held, hstands, hl⟩ := usage.stands
  have hs := hstands.serves_of_opened hopened
  have hroll := hs.roll_of_isSome hl.isSome
  have hkeys := Store.plan_streaming hplan hstreaming
  let tests := q.stages.map fun stage x => stage.accepts c.document x
  have hrows : s₀.rows c q = .ok (Rows.browsing tests keys) := by
    have hsource : Rows.ofKeys (s₀.decode? c) plan.strategy.isEager keys =
        Rows.browsing [] keys := by
      rw [hstreaming]
      rfl
    rw [Store.rows, hplan]
    exact congrArg Except.ok (hsource ▸ Rows.run_filters hfilters keys)
  have haccepts : (fun x => tests.all fun test => test x) = q.accepts c.document := by
    funext x
    exact List.all_map
  refine ⟨_, _, hroll, hkeys, hrows, fun h s rows calls browsing => ?_⟩
  obtain ⟨_, left, hs', -, -, tour⟩ := browsing.tour hs hl
  rw [haccepts] at tour
  exact ⟨hs'.idle.closed, left, tour.streamed (hkeys ▸ hroll.lists.1)⟩

end Streams

namespace Resumed

/-- A store with one entity. -/
def stored : List (Event Bytes) × Store := Store.advance .plain (.add .sample [7]) ([], .fresh)

/-- The entities but one. -/
def query : Query Bytes := ⟨[.filterWith fun x => x != [7]], 0⟩

/-- Its rows, before any was given. -/
def rows : Rows Bytes := ⟨[.stored .sample], [.keep fun x => x != [7]]⟩

/-- The entity was moved to another slot and then to the front of a compact file, and another was
added. -/
def moved : List (Event Bytes) × Store :=
  let updated := Store.advance .plain (.update .sample [7, 8]) stored
  let shrunk := Store.advance .plain .shrink updated
  Store.advance .plain (.add Crashed.other [9]) shrunk

/-- The entity was deleted. -/
def deleted : List (Event Bytes) × Store := Store.advance .plain (.delete .sample) moved

/-- What is left of the rows after the first one. -/
def rest : Rows Bytes := (moved.2.nextRow .plain rows).2

/-- The calls for rows, one before the entity was deleted and one after it. -/
def calls : List (Asked Bytes) :=
  [(deleted.1, (deleted.2.nextRow .plain rest).1), (moved.1, (moved.2.nextRow .plain rows).1)]

lemma usage : Usage .plain stored.1 stored.2 :=
  .next (.opened Store.openFile_fresh) (.add .sample [7]) ⟨by decide, by decide⟩ nofun

lemma plan_eq : stored.2.plan query = .ok (⟨.streaming 1, [], ["filter <fn>"]⟩, [.sample]) := by
  have hkeys : stored.2.toc.activeEntries.map (·.key) = [.sample] := by
    rw [Toc.activeEntries_eq_reverse (t := stored.2.toc) (by decide +kernel)]
    rfl
  exact congrArg Except.ok (Plan.make_streaming (q := query) hkeys (by decide))

lemma rows_eq : stored.2.rows .plain query = .ok rows := by
  rw [Store.rows, plan_eq]
  rfl

lemma browsing : Browsing .plain stored.1 stored.2 rows deleted.1 deleted.2
    (deleted.2.nextRow .plain rest).2 calls := by
  have begun : Browsing .plain stored.1 stored.2 rows stored.1 stored.2 rows [] := .planned
  have updated := begun.changed (.update .sample [7, 8]) trivial nofun
  have shrunk := updated.changed .shrink trivial nofun
  have more := shrunk.changed (.add Crashed.other [9])
    ⟨by decide, by decide +kernel⟩ nofun
  exact (more.next.changed (.delete .sample) trivial nofun).next

end Resumed

open Resumed in
/-- The row is what the key held after it was moved. -/
theorem Usage.streams_resumed : ∃ h₀ s₀ q plan keys n, Usage .plain h₀ s₀ ∧ s₀.closed = false ∧
    (∀ stage ∈ q.stages, stage.isFilter = true) ∧ s₀.plan q = .ok (plan, keys) ∧
      plan.strategy = .streaming n ∧ ∃ calls left,
        Streamed .plain (q.accepts Coding.plain.document) keys calls left ∧
          calls.map (fun call => call.2.map Except.toOption) = [none, some (some [7, 8])] := by
  have hfilters : ∀ stage ∈ query.stages, stage.isFilter = true := by decide
  obtain ⟨es, rows₀, -, -, hrows, hall⟩ := usage.streams rfl hfilters plan_eq rfl
  cases rows_eq.symm.trans hrows
  obtain ⟨-, left, hstreamed⟩ := hall _ _ _ _ browsing
  exact ⟨_, _, _, _, _, _, usage, rfl, hfilters, plan_eq, rfl, _, left, hstreamed,
    by decide +kernel⟩

/-! ## A table from a payload -/

namespace Misled

/-- Where the payload of the second slot begins. -/
def start : Nat := Header.size + 1 + Header.size

/-- A table that shows the first slot under a key that was never added. -/
def table : Snapshot where
  format := Snapshot.currentFormat
  dataEnd := start
  nextVersion := 2
  entries := [⟨.filled 3, 0, Header.size + 1, false, 1⟩]
  retired := []

/-- The tail of a file with that table. -/
def payload : Bytes := RecordFile.tail start ⟨.reserved, 1⟩ table.write

/-- The tail is the payload of the last entity, and the store is opened again. -/
def reopened : List (Event Bytes) × Store :=
  let opened := Store.advance .plain (.reopen .scanning) ([], .fresh)
  let first := Store.advance .plain (.add .sample [7]) opened
  let second := Store.advance .plain (.add Crashed.other payload) first
  Store.advance .plain (.reopen .scanning) second

lemma run : Run .plain (fun h _ op => op.Fresh h) reopened.1 reopened.2 := by
  have hreopen : ∀ h, (Operation.reopen (α := Bytes) .scanning).Fresh h := fun _ => trivial
  have hsample : ∀ h, .sample ∉ added h → (Operation.add .sample ([7] : Bytes)).Fresh h :=
    fun _ h => ⟨by decide, h⟩
  have hother : ∀ h, Crashed.other ∉ added h → (Operation.add Crashed.other payload).Fresh h :=
    fun _ h => ⟨by decide, h⟩
  have fresh : Run (α := Bytes) .plain (fun h _ op => op.Fresh h) [] .fresh :=
    .opened Store.openFile_fresh
  have opened := fresh.next (hreopen _)
  have first := opened.next (hsample _ (by decide))
  have second := first.next (hother _ (by decide))
  exact second.next (hreopen _)

/-- All entities. -/
def query : Query Bytes := ⟨[], 0⟩

/-- Its rows, before any was given. -/
def rows : Rows Bytes := ⟨[.stored (.filled 3)], []⟩

lemma plan_eq : reopened.2.plan query = .ok (⟨.streaming 1, [], []⟩, [.filled 3]) := by
  have hkeys : reopened.2.toc.activeEntries.map (·.key) = [.filled 3] := by
    rw [Toc.activeEntries_eq_reverse (t := reopened.2.toc) (by decide +kernel)]
    decide +kernel
  have hwait : reopened.2.waitReady = .ok () :=
    Store.waitReady_of_succeeded (by decide +kernel)
  have hindexes : reopened.2.indexes = [] := List.isEmpty_iff.mp (by decide +kernel)
  rw [Store.plan, hwait, hindexes]
  exact congrArg Except.ok (Plan.make_streaming (q := query) hkeys (by decide))

lemma rows_eq : reopened.2.rows .plain query = .ok rows := by
  rw [Store.rows, plan_eq]
  rfl

end Misled

open Misled in
/-- **The table may be one that somebody put into a payload.**  Then a query is planned for a key
that nobody added, and reports corruption. -/
theorem Run.streams_corrupt : ∃ h s q plan keys n rows offset detail,
    Run .plain (fun h _ op => op.Fresh h) h s ∧ s.closed = false ∧ s.plan q = .ok (plan, keys) ∧
      plan.strategy = .streaming n ∧ (∀ k ∈ keys, k ∉ added h) ∧ s.rows .plain q = .ok rows ∧
        (s.nextRow .plain rows).1 = some (.error (.corruption offset detail)) := by
  have hnew : ∀ k ∈ [Key.filled 3], k ∉ added reopened.1 := by decide +kernel
  exact ⟨_, _, query, _, _, _, rows, 0, .foreignSlot (.filled 3) .sample, run,
    by decide +kernel, plan_eq, rfl, hnew, rows_eq, by decide +kernel⟩

end SlotStore
