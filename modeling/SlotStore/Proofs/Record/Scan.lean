import Mathlib.Tactic.Common
import SlotStore.Proofs.Record.Tiled
import SlotStore.Record.Scan

/-!
# What a scan visits

Whatever is in a file, the scan of a range visits slots that lie back to back, and ends where the
range does, at bytes that hold no whole slot, at bytes that are no header, or at a slot that the
visitor refuses.  Hence a file whose slots fill it up to some bytes that hold no whole slot is
scanned slot by slot up to those.

* `ScanSummary.across`, `ScanSummary.ofRow` : the summary of a scan that went over a row;
* `Content.Leftover`, `Content.Ragged` : bytes that hold no whole slot;
* `RecordFile.scanFrom_row` : a scan goes over a row and on from its end;
* `RecordFile.Ends`, `RecordFile.ScansTo` : how a scan ends, and what it visited before;
* `RecordFile.scan_eq_iff` : that is all a scan can do;
* `RecordFile.Tiled.scan`, `RecordFile.scan_fills` : the scan of the data region, and of a file;
* `RecordFile.scan_induction` : what every slot visited keeps;
* `RecordFile.scan_eq_slots` : a visitor that takes every slot is handed the slots of the range.
-/

namespace SlotStore

namespace ScanSummary

/-- The summary after one more row. -/
def across (s : ScanSummary) (row : Row) : ScanSummary := row.foldl (fun s p => s.visit p.2) s

/-- The summary of a scan that went over a row. -/
def ofRow (row : Row) (stop : Nat) (torn : Bool) : ScanSummary :=
  ⟨row.length, row.countP (·.2.inUse), stop, torn⟩

/-- What a scan counts across a row. -/
lemma across_eq (s : ScanSummary) (row : Row) :
    s.across row = ⟨s.records + row.length, s.live + row.countP (·.2.inUse), (s.across row).stop,
      s.torn⟩ := by
  induction row generalizing s with
  | nil => rfl
  | cons p rest ih =>
    have hstep : s.across (p :: rest) = (s.visit p.2).across rest := rfl
    rw [hstep, ih (s.visit p.2), List.countP_cons, List.length_cons, visit]
    dsimp only
    congr 1
    · omega
    · split <;> omega

lemma across_start {o : Nat} {row : Row} {stop : Nat} (hstop : ((start o).across row).stop = stop) :
    (start o).across row = ofRow row stop false := by
  rw [across_eq, hstop, start, ofRow]
  simp only [Nat.zero_add]

end ScanSummary

namespace Row

variable {σ : Type} {visit : Nat → Header → σ → Except Error σ} {take : Nat → Header → σ → σ}

/-- What a scan makes of the state of its visitor. -/
def gather (take : Nat → Header → σ → σ) (row : Row) (state : σ) : σ :=
  row.foldl (fun state p => take p.1 p.2 state) state

/-- What a scan makes of the state of a visitor that may refuse a slot. -/
def gatherM (visit : Nat → Header → σ → Except Error σ) (row : Row) (state : σ) : Except Error σ :=
  row.foldlM (fun state p => visit p.1 p.2 state) state

lemma gatherM_cons_eq_ok {o : Nat} {h : Header} {rest : Row} {state last : σ} :
    gatherM visit ((o, h) :: rest) state = .ok last ↔
      ∃ next, visit o h state = .ok next ∧ gatherM visit rest next = .ok last := by
  simp only [gatherM, List.foldlM_cons, bind, Except.bind]
  cases visit o h state <;> simp

/-- A visitor that refuses no slot. -/
lemma gatherM_eq_ok (htake : ∀ o h state, visit o h state = .ok (take o h state)) (row : Row)
    (state : σ) : gatherM visit row state = .ok (gather take row state) := by
  induction row generalizing state with
  | nil => rfl
  | cons p rest ih => exact gatherM_cons_eq_ok.mpr ⟨_, htake _ _ _, ih _⟩

lemma gather_slots (row seen : Row) :
    gather (fun o h seen => seen ++ [(o, h)]) row seen = seen ++ row := by
  induction row generalizing seen with
  | nil => exact (List.append_nil seen).symm
  | cons p rest ih => exact (ih _).trans (List.append_assoc ..)

/-- What each slot of a row keeps, the row keeps. -/
lemma Fills.gather_induction {c : Content} {start stop limit : Nat} {row : Row} {init : σ}
    {P : Nat → σ → Prop} (hf : Fills c start row stop) (hlimit : stop ≤ limit)
    (hinit : P start init)
    (hstep : ∀ o h state, P o state → c.HeaderAt o h → o + h.slotSize ≤ limit →
      P (o + h.slotSize) (take o h state)) : P stop (gather take row init) := by
  induction hf generalizing init with
  | nil => exact hinit
  | cons head tail ih =>
    exact ih hlimit (hstep _ _ _ hinit head (Nat.le_trans tail.le hlimit))

end Row

namespace Content

/-- The bytes from a position up to a limit hold no whole slot: they are too few for a header, or
the slot that begins there reaches past the limit. -/
inductive Leftover (c : Content) (stop limit : Nat) : Prop
  | short (lt : stop < limit) (few : limit < stop + Header.size)
  | long (h : Header) (head : c.HeaderAt stop h) (le : stop + Header.size ≤ limit)
      (large : limit < stop + h.slotSize)

/-- The bytes from a position to the end of a file hold no whole slot. -/
inductive Ragged (c : Content) (stop : Nat) : Prop
  | none (size : c.size = stop)
  | short (lt : stop < c.size) (size : c.size < stop + Header.size)
  | long (h : Header) (head : c.HeaderAt stop h) (le : stop + Header.size ≤ c.size)
      (large : c.size < stop + h.slotSize)

lemma Ragged.stop_le {c : Content} {stop : Nat} (hr : c.Ragged stop) : stop ≤ c.size := by
  cases hr <;> omega

end Content

namespace RecordFile

variable {f : RecordFile} {row : Row} {σ : Type} {visit : Nat → Header → σ → Except Error σ}
  {take : Nat → Header → σ → σ}

/-- **A scan decodes exactly the headers of the file.** -/
lemma decodeAt_eq_ok_iff {o : Nat} {h : Header} (hpos : o < positionLimit)
    (hle : o + Header.size ≤ f.content.size) :
    (f.bytesAt o Header.size).bind (Header.decode o) = .ok h ↔ f.content.HeaderAt o h := by
  rw [bytesAt_eq_ok hpos hle]
  exact Header.decode_eq_ok_iff

/-- **A scan goes over a row** of slots that end by its limit and that the visitor takes, and on
from the end of the row. -/
theorem scanFrom_row {limit stop : Nat} (fuel : Nat) (summary : ScanSummary) {state last : σ}
    (hf : Row.Fills f.content summary.stop row stop) (hvisit : row.gatherM visit state = .ok last)
    (hlimit : stop ≤ limit) (hsize : stop ≤ f.content.size) (hpos : stop < positionLimit) :
    f.scanFrom limit visit (row.length + fuel) summary state =
      f.scanFrom limit visit fuel (summary.across row) last ∧ (summary.across row).stop = stop := by
  generalize hstart : summary.stop = start at hf
  induction hf generalizing summary state with
  | nil =>
    cases hvisit
    exact ⟨by rw [List.length_nil, Nat.zero_add]; rfl, hstart⟩
  | @cons start stop h rest head tail ih =>
    subst hstart
    have hle := tail.le
    have hslot := h.size_le_slotSize
    have hhdr := h.slotSize_pos
    have hbytes : (f.bytesAt summary.stop Header.size).bind (Header.decode summary.stop) = .ok h :=
      (decodeAt_eq_ok_iff (by omega) (by omega)).mpr head
    obtain ⟨next, hnext, hrest⟩ := Row.gatherM_cons_eq_ok.mp hvisit
    obtain ⟨hscan, hstop⟩ := ih (summary.visit h) hrest hlimit hsize hpos rfl
    refine ⟨?_, hstop⟩
    rw [List.length_cons, Nat.add_right_comm, scanFrom, if_neg (by omega), if_neg (by omega),
      hbytes]
    dsimp only
    rw [if_neg (by omega), hnext]
    exact hscan

/-! ## How a scan ends -/

/-- **How a scan that has come to a position ends there**: with whether bytes are left that hold no
whole slot, or with an error. -/
inductive Ends (f : RecordFile) (limit : Nat) (visit : Nat → Header → σ → Except Error σ)
    (stop : Nat) (state : σ) : Except Error Bool → Prop
  /-- The last slot ends where the range does. -/
  | whole (eq : stop = limit) : Ends f limit visit stop state (.ok false)
  | torn (rest : f.content.Leftover stop limit) : Ends f limit visit stop state (.ok true)
  /-- Bytes below the limit that are no header. -/
  | corrupt (what : Corruption) (le : stop + Header.size ≤ limit)
      (bad : Header.decode stop (f.content.slice stop Header.size) =
        .error (.corruption stop what)) :
      Ends f limit visit stop state (.error (.corruption stop what))
  /-- A slot that the visitor does not take. -/
  | refused (h : Header) (e : Error) (head : f.content.HeaderAt stop h)
      (le : stop + h.slotSize ≤ limit) (no : visit stop h state = .error e) :
      Ends f limit visit stop state (.error e)

/-- **A scan goes over a row of slots**, hands each to the visitor, and ends behind them. -/
structure ScansTo (f : RecordFile) (start limit : Nat) (visit : Nat → Header → σ → Except Error σ)
    (init : σ) (row : Row) (stop : Nat) (state : σ) (ending : Except Error Bool) : Prop where
  /-- The slots lie back to back, from the beginning of the range. -/
  fills : Row.Fills f.content start row stop
  le : stop ≤ limit
  visited : row.gatherM visit init = .ok state
  ends : f.Ends limit visit stop state ending

variable {start limit stop : Nat} {init state : σ} {ending : Except Error Bool}

/-- A scan that has come to its end stops there. -/
lemma Ends.scanFrom_eq (he : f.Ends limit visit stop state ending)
    (hlimit : limit ≤ f.content.size) (hpos : stop < positionLimit) (fuel : Nat)
    {summary : ScanSummary} (hstop : summary.stop = stop) (hwhole : summary.torn = false) :
    f.scanFrom limit visit (fuel + 1) summary state =
      (ending.map fun torn => { summary with torn }, state) := by
  subst hstop
  have hhdr : 0 < Header.size := by decide
  rw [scanFrom]
  cases he with
  | whole eq =>
    rw [if_pos (by omega)]
    exact congrArg (fun torn => (Except.ok { summary with torn }, state)) hwhole
  | torn rest =>
    cases rest with
    | short lt few =>
      rw [if_neg (by omega), if_pos (by omega)]
      rfl
    | long h head le large =>
      rw [if_neg (by omega), if_neg (by omega),
        (decodeAt_eq_ok_iff (by omega) (by omega)).mpr head]
      dsimp only
      rw [if_pos large]
      rfl
  | corrupt what le bad =>
    rw [if_neg (by omega), if_neg (by omega), bytesAt_eq_ok (by omega) (by omega), Except.bind,
      bad]
    rfl
  | refused h e head le no =>
    have hslot := h.size_le_slotSize
    rw [if_neg (by omega), if_neg (by omega), (decodeAt_eq_ok_iff (by omega) (by omega)).mpr head]
    dsimp only
    rw [if_neg (by omega), no]
    rfl

/-- **What a scan gives** is told by the row it goes over and by how it ends. -/
theorem ScansTo.scan_eq (hs : f.ScansTo start limit visit init row stop state ending)
    (hlimit : limit ≤ f.content.size) (hpos : stop < positionLimit) :
    f.scan start limit visit init = (ending.map (.ofRow row stop), state) := by
  have hlen := hs.fills.length_le
  have hle := hs.le
  obtain ⟨fuel, hfuel⟩ := Nat.exists_eq_add_of_le (show row.length + 1 ≤ limit - start + 1 by omega)
  obtain ⟨hscan, hstop⟩ := scanFrom_row (f := f) (fuel + 1) (.start start) hs.fills hs.visited hle
    (by omega) (by omega)
  have hacross := ScanSummary.across_start hstop
  rw [RecordFile.scan, hfuel, Nat.add_right_comm, Nat.add_assoc, hscan,
    hs.ends.scanFrom_eq hlimit hpos fuel hstop (by rw [hacross]; rfl), hacross]
  rfl

/-- **Every scan ends.**  The measure is the distance to the limit, which each slot makes
smaller. -/
theorem exists_scansTo (visit : Nat → Header → σ → Except Error σ) (init : σ) {start : Nat}
    (hstart : start ≤ limit) :
    ∃ row stop state ending, f.ScansTo start limit visit init row stop state ending := by
  by_cases hend : start = limit
  · exact ⟨[], start, init, _, .nil start, hstart, rfl, .whole hend⟩
  by_cases hfew : limit < start + Header.size
  · exact ⟨[], start, init, _, .nil start, hstart, rfl, .torn (.short (by omega) hfew)⟩
  cases hdecode : Header.decode start (f.content.slice start Header.size) with
  | error e =>
    obtain ⟨what, rfl⟩ := Header.exists_corruption (f.content.length_slice _ _) hdecode
    exact ⟨[], start, init, _, .nil start, hstart, rfl, .corrupt what (by omega) hdecode⟩
  | ok h =>
    have head : f.content.HeaderAt start h := Header.decode_eq_ok_iff.mp hdecode
    by_cases hlarge : limit < start + h.slotSize
    · exact ⟨[], start, init, _, .nil start, hstart, rfl,
        .torn (.long h head (by omega) hlarge)⟩
    cases hvisit : visit start h init with
    | error e =>
      exact ⟨[], start, init, _, .nil start, hstart, rfl, .refused h e head (by omega) hvisit⟩
    | ok next =>
      have hshorter := h.slotSize_pos
      obtain ⟨row, stop, state, ending, hs⟩ :=
        exists_scansTo visit next (show start + h.slotSize ≤ limit by omega)
      exact ⟨(start, h) :: row, stop, state, ending, .cons head hs.fills, hs.le,
        Row.gatherM_cons_eq_ok.mpr ⟨next, hvisit, hs.visited⟩, hs.ends⟩
termination_by limit - start

/-- **The scan of any range of any file** visits slots that lie back to back and ends in one of the
four ways. -/
theorem scan_eq_iff (hstart : start ≤ limit) (hlimit : limit ≤ f.content.size)
    (hpos : limit < positionLimit) {result : Except Error ScanSummary × σ} :
    f.scan start limit visit init = result ↔
      ∃ row stop ending, f.ScansTo start limit visit init row stop result.2 ending ∧
        result.1 = ending.map (.ofRow row stop) := by
  constructor
  · rintro rfl
    obtain ⟨row, stop, state, ending, hs⟩ := exists_scansTo (f := f) visit init hstart
    have hscan := hs.scan_eq hlimit (Nat.lt_of_le_of_lt hs.le hpos)
    rw [hscan]
    exact ⟨row, stop, ending, hs, rfl⟩
  · rintro ⟨row, stop, ending, hs, hresult⟩
    rw [hs.scan_eq hlimit (Nat.lt_of_le_of_lt hs.le hpos), ← hresult]

/-! ## Files of slots -/

/-- **The data region of a tiled file is scanned slot by slot.** -/
theorem Tiled.scan (ht : f.Tiled row) (htake : ∀ o h state, visit o h state = .ok (take o h state))
    (init : σ) :
    f.scan 0 f.cursor visit init = (.ok (.ofRow row f.cursor false), Row.gather take row init) :=
  ScansTo.scan_eq ⟨ht.fills, Nat.le_refl _, Row.gatherM_eq_ok htake row init, .whole rfl⟩
    ht.cursor_le ht.cursor_lt

/-- What lies past the last slot of a tiled file without tail holds no whole slot. -/
lemma Tiled.ragged (ht : f.Tiled row) (hu : f.sealedAt = none) : f.content.Ragged f.cursor := by
  cases ht.rest with
  | clean _ size => exact .none size
  | torn h _ size head large => exact .long h head (by omega) (by omega)
  | tail start => rw [hu] at start; cases start

/-- A scan of a whole file ends at its ragged end. -/
lemma ends_of_ragged {c : Content} (hr : c.Ragged stop) :
    (ofContent c).Ends c.size visit stop state (.ok (decide (c.size ≠ stop))) := by
  cases hr with
  | none size =>
    rw [decide_eq_false (not_not.mpr size)]
    exact .whole size.symm
  | short lt size =>
    rw [decide_eq_true (by omega)]
    exact .torn (.short lt size)
  | long h head le large =>
    have hhdr : 0 < Header.size := by decide
    rw [decide_eq_true (by omega)]
    exact .torn (.long h head le large)

/-- **A file is scanned slot by slot** up to the bytes at its end that hold no whole slot, and is
torn if there are any. -/
theorem scan_fills {c : Content} {stop : Nat} (hf : Row.Fills c 0 row stop) (hr : c.Ragged stop)
    (hpos : stop < positionLimit) (htake : ∀ o h state, visit o h state = .ok (take o h state))
    (init : σ) :
    (ofContent c).scan 0 c.size visit init =
      (.ok (.ofRow row stop (decide (c.size ≠ stop))), Row.gather take row init) :=
  ScansTo.scan_eq (f := ofContent c)
    ⟨hf, hr.stop_le, Row.gatherM_eq_ok htake row init, ends_of_ragged hr⟩ (Nat.le_refl _) hpos

/-- **A scan sees nothing but headers**, whatever is in the file.  What holds of the visitor's state
and is kept by each slot up to the limit holds in the end, also when the scan fails. -/
theorem scan_induction {P : Nat → σ → Prop}
    (htake : ∀ o h state, visit o h state = .ok (take o h state)) (hstart : start ≤ limit)
    (hlimit : limit ≤ f.content.size) (hpos : limit < positionLimit) (hinit : P start init)
    (hstep : ∀ o h state, P o state → f.content.HeaderAt o h → o + h.slotSize ≤ limit →
      P (o + h.slotSize) (take o h state)) :
    ∃ stop ≤ limit, P stop (f.scan start limit visit init).2 ∧
      ∀ s, (f.scan start limit visit init).1 = .ok s → s.stop = stop := by
  obtain ⟨row, stop, state, ending, hs⟩ := exists_scansTo (f := f) visit init hstart
  obtain rfl : Row.gather take row init = state :=
    Except.ok.inj ((Row.gatherM_eq_ok htake row init).symm.trans hs.visited)
  rw [hs.scan_eq hlimit (Nat.lt_of_le_of_lt hs.le hpos)]
  refine ⟨stop, hs.le, ?_, fun s hs => ?_⟩
  · exact hs.fills.gather_induction hs.le hinit hstep
  · cases ending with
    | error e => cases hs
    | ok torn =>
      cases hs
      rfl

/-! ## Visitors that take every slot -/

/-- **Every scan gathers over the slots** that a plain scan finds. -/
lemma scanFrom_eq_slots (f : RecordFile) (limit : Nat)
    (htake : ∀ o h state, visit o h state = .ok (take o h state)) (fuel : Nat)
    (summary : ScanSummary) (seen : Row) (init : σ) :
    ∃ result row,
      f.scanFrom limit (fun o h seen => .ok (seen ++ [(o, h)])) fuel summary seen =
          (result, seen ++ row) ∧
        f.scanFrom limit visit fuel summary init = (result, Row.gather take row init) ∧
        ∀ p ∈ row, p.1 + p.2.slotSize ≤ limit := by
  have hhalt : ∀ (result : Except Error ScanSummary) (seen : Row) (init : σ), ∃ result' row,
      (result, seen) = (result', seen ++ row) ∧
        (result, init) = (result', Row.gather take row init) ∧
        ∀ p ∈ row, p.1 + p.2.slotSize ≤ limit := fun result seen _ =>
    ⟨result, [], by rw [List.append_nil], rfl, fun _ hp => nomatch hp⟩
  induction fuel generalizing summary seen init with
  | zero => exact hhalt _ _ _
  | succ fuel ih =>
    simp only [scanFrom]
    split
    · exact hhalt _ _ _
    split
    · exact hhalt _ _ _
    split
    · exact hhalt _ _ _
    · rename_i h _
      split
      · exact hhalt _ _ _
      · rename_i hinside
        simp only [htake]
        obtain ⟨result, row, hslots, hscan, hbelow⟩ := ih (summary.visit h)
          (seen ++ [(summary.stop, h)]) (take summary.stop h init)
        refine ⟨result, (summary.stop, h) :: row, ?_, hscan, ?_⟩
        · rw [hslots, List.append_assoc, List.singleton_append]
        · exact List.forall_mem_cons.mpr ⟨Nat.not_lt.mp hinside, hbelow⟩

/-- **A visitor that takes every slot** is handed the slots of the range, whatever the file and the
range are. -/
theorem scan_eq_slots (f : RecordFile) (start limit : Nat)
    (htake : ∀ o h state, visit o h state = .ok (take o h state)) (init : σ) :
    f.scan start limit visit init =
      ((f.slots start limit).1, Row.gather take (f.slots start limit).2 init) := by
  obtain ⟨result, row, hslots, hscan, _⟩ :=
    scanFrom_eq_slots f limit htake (limit - start + 1) (.start start) [] init
  rw [slots, scan, scan, hslots, hscan, List.nil_append]

/-- The slots that are found end below the limit. -/
lemma le_of_mem_slots {p : Nat × Header} (hp : p ∈ (f.slots start limit).2) :
    p.1 + p.2.slotSize ≤ limit := by
  have htake : ∀ o h (state : Row), Except.ok (state ++ [(o, h)]) =
      (.ok (state ++ [(o, h)]) : Except Error Row) := fun _ _ _ => rfl
  obtain ⟨result, row, hslots, _, hbelow⟩ :=
    scanFrom_eq_slots f limit htake (limit - start + 1) (.start start) [] []
  rw [slots, scan, hslots, List.nil_append] at hp
  exact hbelow p hp

end RecordFile

end SlotStore
