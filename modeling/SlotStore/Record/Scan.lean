import SlotStore.Record.File

/-!
# Scanning a record file

A scan goes from slot to slot by their headers and hands each to a visitor.  Bytes at the end that
hold no whole slot are a torn tail, which is reported and is no failure; a header that does not
decode is one.

* `ScanSummary` : what a scan went over;
* `RecordFile.scan` : the scan of a range with a visitor that may stop it;
* `RecordFile.slots` : the slots a scan visits.
-/

namespace SlotStore

/-- What a scan went over. -/
structure ScanSummary where
  /-- Slots visited. -/
  records : Nat
  /-- Slots visited that are in use. -/
  live : Nat
  /-- The end of the last slot visited. -/
  stop : Nat
  /-- Whether bytes were left that hold no whole slot. -/
  torn : Bool
deriving DecidableEq, Repr

namespace ScanSummary

/-- The summary before the first slot. -/
def start (offset : Nat) : ScanSummary := ⟨0, 0, offset, false⟩

/-- The summary with one more slot. -/
def visit (s : ScanSummary) (h : Header) : ScanSummary :=
  { s with
    records := s.records + 1
    live := if h.inUse then s.live + 1 else s.live
    stop := s.stop + h.slotSize }

end ScanSummary

namespace RecordFile

/-- Visits the slots from the end of the summary so far up to a limit.  The visitor's state is kept
also when the scan fails.  Each slot is longer than nothing, so `limit` steps are enough. -/
def scanFrom {σ : Type} (f : RecordFile) (limit : Nat)
    (visit : Nat → Header → σ → Except Error σ) :
    (fuel : Nat) → ScanSummary → σ → Except Error ScanSummary × σ
  | 0, summary, state => (.ok summary, state)
  | fuel + 1, summary, state =>
    if limit ≤ summary.stop then (.ok summary, state)
    else if limit - summary.stop < Header.size then (.ok { summary with torn := true }, state)
    else
      match (f.bytesAt summary.stop Header.size).bind (Header.decode summary.stop) with
      | .error e => (.error e, state)
      | .ok h =>
        if limit < summary.stop + h.slotSize then (.ok { summary with torn := true }, state)
        else
          match visit summary.stop h state with
          | .error e => (.error e, state)
          | .ok state => scanFrom f limit visit fuel (summary.visit h) state

/-- Scans the slots of a range. -/
def scan {σ : Type} (f : RecordFile) (start limit : Nat)
    (visit : Nat → Header → σ → Except Error σ) (init : σ) : Except Error ScanSummary × σ :=
  f.scanFrom limit visit (limit - start + 1) (.start start) init

/-- The slots of a range with their positions, and how their scan ended. -/
def slots (f : RecordFile) (start limit : Nat) : Except Error ScanSummary × List (Nat × Header) :=
  f.scan start limit (fun offset h seen => .ok (seen ++ [(offset, h)])) []

end RecordFile

end SlotStore
