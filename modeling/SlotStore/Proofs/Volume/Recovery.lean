import Mathlib.Tactic.Common
import SlotStore.Proofs.Volume.Rebuild

/-!
# Recovering a file of unknown bytes

A file that presents no table is recovered by a scan.  The scan keeps the slots that it could visit,
cuts off what is left behind them, and fails where bytes are no header.  Once is enough: the file it
leaves holds the same slots and nothing else, and is scanned to the same table again.

* `RecordFile.ScansTo.cut` : the slots that a scan visited fill the file that ends behind them;
* `Volume.rebuild_eq_ok` : the file and the table that a rebuild leaves;
* `Volume.Recovered` : what a recovered file has;
* `Volume.recovery_exact` : how the scan of any range ends, and what a rebuild leaves.
-/

namespace SlotStore

/-- A file that is cut keeps the bytes below the cut. -/
lemma Content.toBytes_resize (c : Content) {n : Nat} (h : n ≤ c.size) :
    (c.resize n).toBytes = c.toBytes.take n := by
  have hslice : c.slice 0 c.size = c.slice 0 n ++ c.slice n (c.size - n) := by
    have hadd := c.slice_add 0 n (c.size - n)
    rwa [Nat.add_sub_cancel' h, Nat.zero_add] at hadd
  rw [toBytes, toBytes, size_resize, hslice,
    List.take_append_of_le_length (Nat.le_of_eq (length_slice _ _ _).symm),
    List.take_of_length_le (Nat.le_of_eq (length_slice _ _ _))]
  exact slice_congr (c.agrees_resize 0 (by omega))

/-- **The slots that a scan visited fill the file that ends behind them**, which is scanned to the
same end, and whole. -/
lemma RecordFile.ScansTo.cut {σ : Type} {visit : Nat → Header → σ → Except Error σ}
    {f g : RecordFile} {start limit stop : Nat} {init state : σ} {row : Row}
    {ending : Except Error Bool} (hs : f.ScansTo start limit visit init row stop state ending)
    (ha : f.content.Agrees g.content start stop) :
    g.ScansTo start stop visit init row stop state (.ok false) :=
  ⟨hs.fills.congr ha, Nat.le_refl _, hs.visited, .whole rfl⟩

namespace Volume

open Steps

variable {f : RecordFile} {t u : Toc} {summary : ScanSummary} {v : Volume}

/-! ## A rebuild that succeeds -/

/-- **A rebuild that succeeds** was a scan of some row.  It leaves the file that the row fills, and
the table that the row comes to. -/
theorem rebuild_eq_ok (hpos : f.content.size < positionLimit)
    (h : rebuild f.content.size ⟨f, t⟩ = .ok summary v) :
    ∃ row, (∃ torn, f.ScansTo 0 f.content.size scanned (t, 0) row summary.stop
        (merged row t, highest row 0) (.ok torn) ∧ summary = .ofRow row summary.stop torn) ∧
      v.file.content = f.content.resize summary.stop ∧
      v.toc = (merged row t).observeVersion (highest row 0) := by
  have htake : ∀ o h state, scanned o h state = .ok (takeIn o h state) := fun _ _ _ => rfl
  obtain ⟨row, stop, state, ending, hs⟩ :=
    RecordFile.exists_scansTo (f := f) scanned (t, 0) (Nat.zero_le f.content.size)
  have hscan := hs.scan_eq (Nat.le_refl _) (Nat.lt_of_le_of_lt hs.le hpos)
  obtain rfl : (merged row t, highest row 0) = state := by
    rw [← gather_takeIn]
    exact Except.ok.inj ((Row.gatherM_eq_ok htake row _).symm.trans hs.visited)
  cases ending with
  | error e => cases h.symm.trans (rebuild_of_error hscan)
  | ok torn =>
    cases torn with
    | false =>
      cases h.symm.trans (rebuild_of_scan hscan rfl)
      have hwhole : stop = f.content.size := by
        cases hs.ends with
        | whole eq => exact eq
      refine ⟨row, ⟨false, hs, rfl⟩, ?_, rfl⟩
      rw [ScanSummary.ofRow, hwhole, Content.resize_self]
    | true =>
      cases h.symm.trans (rebuild_of_torn hscan rfl (Nat.lt_of_le_of_lt hs.le hpos))
      exact ⟨row, ⟨true, hs, rfl⟩, rfl, rfl⟩

/-! ## What is recovered -/

/-- **What a file has after it was recovered** by a scan that succeeded. -/
structure Recovered (f : RecordFile) (t : Toc) (summary : ScanSummary) (v : Volume) : Prop where
  /-- The file is what there was up to the end of the last slot. -/
  size : v.file.content.size = summary.stop
  bytes : v.file.content.toBytes = f.content.toBytes.take summary.stop
  /-- Another scan visits the same slots and leaves no bytes over. -/
  slots : v.file.slots 0 v.file.content.size =
    (.ok { summary with torn := false }, (f.slots 0 f.content.size).2)
  /-- Another rebuild changes nothing in the file, with whatever table it begins. -/
  again : ∀ u, ∃ w, rebuild v.file.content.size ⟨v.file, u⟩ =
    .ok { summary with torn := false } ⟨v.file, w⟩
  /-- If it begins with the same table it also comes to the same. -/
  same : rebuild v.file.content.size ⟨v.file, t⟩ = .ok { summary with torn := false } v

/-- The file that a row fills is rebuilt to the table of the row. -/
lemma rebuild_of_fills {row : Row} (hf : Row.Fills f.content 0 row f.content.size)
    (hpos : f.content.size < positionLimit) (u : Toc) :
    rebuild f.content.size ⟨f, u⟩ = .ok (.ofRow row f.content.size false)
      ⟨f, (merged row u).observeVersion (highest row 0)⟩ := by
  have htake : ∀ o h state, scanned o h state = .ok (takeIn o h state) := fun _ _ _ => rfl
  have hs : f.ScansTo 0 f.content.size scanned (u, 0) row f.content.size _ (.ok false) :=
    ⟨hf, Nat.le_refl _, Row.gatherM_eq_ok htake row _, .whole rfl⟩
  refine rebuild_of_scan ?_ rfl
  rw [hs.scan_eq (Nat.le_refl _) hpos, gather_takeIn]
  rfl

/-- The slots of a file are those that any scan of it visits. -/
lemma slots_of_scansTo {σ : Type} {visit : Nat → Header → σ → Except Error σ} {init state : σ}
    {row : Row} {limit stop : Nat} {torn : Bool}
    (hs : f.ScansTo 0 limit visit init row stop state (.ok torn)) (hlimit : limit ≤ f.content.size)
    (hpos : limit < positionLimit) :
    f.slots 0 limit = (.ok (.ofRow row stop torn), row) := by
  have htake : ∀ o h (seen : Row), (.ok (seen ++ [(o, h)]) : Except Error Row) =
      .ok (seen ++ [(o, h)]) := fun _ _ _ => rfl
  have hseen := Row.gatherM_eq_ok htake row []
  rw [Row.gather_slots, List.nil_append] at hseen
  have hslots : f.ScansTo 0 limit (fun o h seen => .ok (seen ++ [(o, h)])) [] row stop row
      (.ok torn) := by
    refine ⟨hs.fills, hs.le, hseen, ?_⟩
    cases hs.ends with
    | whole eq => exact .whole eq
    | torn rest => exact .torn rest
  exact hslots.scan_eq hlimit (Nat.lt_of_le_of_lt hs.le hpos)

lemma recovered (hpos : f.content.size < positionLimit)
    (h : rebuild f.content.size ⟨f, t⟩ = .ok summary v) : Recovered f t summary v := by
  obtain ⟨row, ⟨torn, hs, hsummary⟩, hcontent, htoc⟩ := rebuild_eq_ok hpos h
  have hsize : v.file.content.size = summary.stop := by rw [hcontent, Content.size_resize]
  have hstop : v.file.content.size < positionLimit := by
    have := hs.le
    omega
  have hagree : f.content.Agrees v.file.content 0 summary.stop :=
    hcontent ▸ (f.content.agrees_resize 0 (Nat.le_refl _)).symm
  have hcut := hs.cut hagree
  have hwhole : ScanSummary.ofRow row summary.stop false = { summary with torn := false } := by
    rw [hsummary]
    rfl
  have hrebuild := rebuild_of_fills (f := v.file) (hsize ▸ hcut.fills) hstop
  rw [hsize, hwhole] at hrebuild
  refine ⟨hsize, ?_, ?_, fun u => ?_, ?_⟩
  · rw [hcontent, f.content.toBytes_resize hs.le]
  · rw [slots_of_scansTo hs (Nat.le_refl _) hpos, hsize,
      slots_of_scansTo hcut (Nat.le_of_eq hsize.symm) (hsize ▸ hstop), hwhole]
  · rw [hsize]
    exact ⟨_, hrebuild u⟩
  · rw [hsize, hrebuild t, ← htoc]

/-- **Recovery is exact, and once is enough.**  The scan of any range of any file visits slots that
lie back to back and ends at the limit, at bytes that hold no whole slot, at the first bytes that
are no header, or where the visitor refuses.  A rebuild that succeeds leaves the file that the slots
fill, and repeating it changes nothing. -/
theorem recovery_exact {f : RecordFile} (hpos : f.content.size < positionLimit) :
    (∀ {σ : Type} (visit : Nat → Header → σ → Except Error σ) (init : σ) (start limit : Nat)
      (result : Except Error ScanSummary × σ), start ≤ limit → limit ≤ f.content.size →
      (f.scan start limit visit init = result ↔ ∃ row stop ending,
        f.ScansTo start limit visit init row stop result.2 ending ∧
        result.1 = ending.map (.ofRow row stop))) ∧
    ∀ t summary v, rebuild f.content.size ⟨f, t⟩ = .ok summary v → Recovered f t summary v :=
  ⟨fun _ _ _ _ _ hstart hlimit =>
      RecordFile.scan_eq_iff hstart hlimit (Nat.lt_of_le_of_lt hlimit hpos),
    fun _ _ _ => recovered hpos⟩

/-- A file of one slot of two bytes, and the header of a second slot that reaches past the end. -/
def overlong : RecordFile := .ofContent (.ofBytes ((RecordFile.placeholder 2).encode ++ [7, 8] ++
  (RecordFile.placeholder 9).encode ++ [1, 2, 3]))

/-- The second slot is cut off. -/
theorem recovery_exact_overlong : overlong.content.size < positionLimit ∧
    ∃ v, rebuild overlong.content.size ⟨overlong, .unfinished⟩ = .ok ⟨1, 0, 38, true⟩ v ∧
      Recovered overlong .unfinished ⟨1, 0, 38, true⟩ v := by
  have hpos : overlong.content.size < positionLimit := by decide +kernel
  obtain ⟨v, hv⟩ : ∃ v, rebuild overlong.content.size ⟨overlong, .unfinished⟩ =
      .ok ⟨1, 0, 38, true⟩ v := ⟨_, rfl⟩
  exact ⟨hpos, v, hv, (recovery_exact hpos).2 _ _ _ hv⟩

end Volume

end SlotStore
