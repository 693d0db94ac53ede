import Mathlib.Tactic.Common
import SlotStore.Proofs.Store.Compact
import SlotStore.Proofs.Store.Life

/-!
# Shrinks that fail

A shrink reads the record of each live entity, writes it into a shadow file, and then puts the
shadow in place of the file.  The reading may fail at any of the records.  Then the shadow may have
been taken away by somebody else, and the system may refuse to flush it, to rename it, or to open
the file again.  After most of these failures the shadow is cleared away and nothing else has
happened; but a shadow that is not flushed stays, and a file that is not opened again is gone from
its path.

* `Store.CopyFault`, `Store.copyLive_eq_error` : where the copy of some entries fails;
* `RecordFile.Installed`, `RecordFile.installed` : what an install comes to;
* `RecordFile.install_undone`, `RecordFile.install_eq_ok` : what it leaves if it fails or succeeds;
* `Store.shrinkUnder_resting` : what a shrink gives in a store at rest;
* `Store.Aftermath`, `Store.Aftermath.undone` : what a shrink that fails leaves;
* `Life.shrink_undone_unless` : when a shrink that fails has done nothing;
* `Life.shrink_not_undone` : when it has.
-/

namespace SlotStore

open Steps RecordFile

/-! ## Copies that fail -/

namespace Store

variable {f g g' : RecordFile} {e : Entry} {es : List Entry} {xs : List (Stamp × Bytes)}
  {err : Error}

/-- **Where the copy of some entries fails**: at the first whose record cannot be read, or at the
first whose record does not fit into the copy any more. -/
inductive CopyFault (f : RecordFile) (es : List Entry) : Error → Prop
  | unread {before after : List Entry} {e : Entry} {xs : List (Stamp × Bytes)} {err : Error}
      (split : es = before ++ e :: after) (reads : Reads f before xs)
      (bad : Volume.readEntry f e = .error err) : CopyFault f es err
  | unfit {before after : List Entry} {xs : List (Stamp × Bytes)} {err : Error}
      (split : es = before ++ after) (reads : Reads f before xs)
      (full : ofRecords xs = .error err) : CopyFault f es err

lemma recordOf_eq_error_iff : recordOf f e = .error err ↔ Volume.readEntry f e = .error err := by
  rw [recordOf]
  cases Volume.readEntry f e <;> simp [Except.map]

lemma Reads.exists_of_mem (h : Reads f es xs) {e : Entry} (he : e ∈ es) :
    ∃ x, recordOf f e = .ok x := by
  induction h with
  | nil => cases he
  | cons hx _ ih =>
    rcases List.mem_cons.mp he with rfl | he
    · exact ⟨_, hx⟩
    · exact ih he

/-- An entry that is not copied could not be read, or its record not appended. -/
lemma copyEntry_eq_error (h : copyEntry f e g = .error err g') :
    Volume.readEntry f e = .error err ∨
      ∃ x, recordOf f e = .ok x ∧ append x.1 x.2 x.2.length g = .error err g' := by
  cases hentry : Volume.readEntry f e with
  | error err' =>
    rw [copyEntry, hentry] at h
    cases h
    exact Or.inl rfl
  | ok r =>
    refine Or.inr ⟨(⟨r.1.key, r.1.version⟩, r.2), by rw [recordOf, hentry]; rfl, ?_⟩
    have hpure : RecordFile.orFail (Volume.readEntry f e) g = .ok r g := by
      rw [hentry]
      rfl
    rw [copyEntry, bind_of_ok hpure] at h
    rcases bind_eq_error h with happend | ⟨o, t, _, hlast⟩
    · exact happend
    · cases hlast

/-- The entries before the fault have been read, and their records appended. -/
lemma copy_eq_error (h : (es.mapM (copyEntry f)) g = .error err g') :
    ∃ before after xs, es = before ++ after ∧ Reads f before xs ∧
      ((∃ e rest, after = e :: rest ∧ Volume.readEntry f e = .error err) ∨
        appendAll xs g = .error err g') := by
  induction es generalizing g with
  | nil => cases h
  | cons e es ih =>
    rw [List.mapM_cons] at h
    rcases bind_eq_error h with hstep | ⟨e', g₁, hstep, hnext⟩
    · rcases copyEntry_eq_error hstep with hbad | ⟨x, hx, happend⟩
      · exact ⟨[], e :: es, [], rfl, .nil, Or.inl ⟨e, es, rfl, hbad⟩⟩
      · refine ⟨[e], es, [x], rfl, .cons hx .nil, Or.inr ?_⟩
        rw [appendAll_cons]
        exact bind_of_error happend
    · obtain ⟨x, o, hx, happend⟩ := copyEntry_eq_ok hstep
      rcases bind_eq_error hnext with hrest | ⟨_, _, _, hlast⟩
      · obtain ⟨before, after, xs, rfl, hreads, hfault⟩ := ih hrest
        refine ⟨e :: before, after, x :: xs, rfl, .cons hx hreads, hfault.imp_right fun hfull => ?_⟩
        rw [appendAll_cons, bind_of_ok happend]
        exact hfull
      · cases hlast

/-- **A copy that fails** has met a fault. -/
theorem copyLive_eq_error (h : copyLive f es = .error err) : CopyFault f es err := by
  rw [copyLive, EStateM.run] at h
  split at h
  · cases h
  · rename_i err' g' hrun
    cases h
    obtain ⟨before, after, xs, hsplit, hreads, ⟨e, rest, rfl, hbad⟩ | hfull⟩ := copy_eq_error hrun
    · exact .unread hsplit hreads hbad
    · refine .unfit hsplit hreads ?_
      rw [ofRecords_eq, hfull]

end Store

/-! ## Installs by a system that may refuse -/

namespace RecordFile

variable {r : Refusals} {copy : RecordFile} {site site' : Site} {e : Error}

/-- **What an install comes to**, with what is left of the file, at its path and at that of the
shadow. -/
inductive Installed (r : Refusals) (copy : RecordFile) (site : Site) :
    EStateM.Result Error Site Unit → Prop
  /-- The shadow stays where it is if it cannot be flushed. -/
  | unflushed {e : Error} (refused : r.flush = some e) : Installed r copy site (.error e site)
  /-- It is removed if it cannot be renamed. -/
  | unmoved {e : Error} (flushed : r.flush = none) (refused : renamed r site.shadow = .error e) :
      Installed r copy site (.error e { site with shadow := site.shadow.cleared })
  /-- If the file cannot be opened again, what stands at its path is the shadow's content, and the
  file that is still open has forgotten its tail. -/
  | unopened {e : Error} {c : Content} (flushed : r.flush = none)
      (moved : renamed r site.shadow = .ok c) (refused : r.reopen = some e) :
      Installed r copy site (.error e ⟨{ site.file with sealedAt := none }, c, .absent⟩)
  /-- Otherwise the file is the shadow, without a tail. -/
  | done {c : Content} (flushed : r.flush = none) (moved : renamed r site.shadow = .ok c)
      (opened : r.reopen = none) :
      Installed r copy site (.ok () ⟨⟨c, copy.cursor, none⟩, c, .absent⟩)

/-- **Every install** comes to one of these. -/
theorem installed (r : Refusals) (copy : RecordFile) (site : Site) :
    Installed r copy site (install r copy site) := by
  rw [install]
  cases hflush : r.flush with
  | some e => exact .unflushed hflush
  | none =>
    cases hmoved : renamed r site.shadow with
    | error e => exact .unmoved hflush hmoved
    | ok c =>
      cases hopened : r.reopen with
      | some e => exact .unopened hflush hmoved hopened
      | none => exact .done hflush hmoved hopened

lemma ShadowNode.cleared_of_ne {node : ShadowNode} (h : node ≠ .directory) :
    node.cleared = .absent := by
  cases node with
  | directory => exact absurd rfl h
  | absent => rfl
  | file g => rfl

/-- **An install that fails has done nothing** to a file that could have been opened again. -/
lemma install_undone (hopens : r.reopen = none) (h : install r copy site = .error e site') :
    site'.file = site.file ∧ site'.named = site.named := by
  have hcases := installed r copy site
  rw [h] at hcases
  cases hcases with
  | unflushed => exact ⟨rfl, rfl⟩
  | unmoved => exact ⟨rfl, rfl⟩
  | unopened _ _ refused => cases hopens.symm.trans refused

/-- An install that fails leaves no shadow if the shadow could have been flushed. -/
lemma shadow_of_install_error (hflushes : r.flush = none) (hshadow : site.shadow ≠ .directory)
    (h : install r copy site = .error e site') : site'.shadow = .absent := by
  have hcases := installed r copy site
  rw [h] at hcases
  cases hcases with
  | unflushed refused => cases hflushes.symm.trans refused
  | unmoved => exact ShadowNode.cleared_of_ne hshadow
  | unopened => rfl

/-- Only a file can be renamed. -/
lemma renamed_eq_ok {node : ShadowNode} {c : Content} (h : renamed r node = .ok c) :
    ∃ g, node = .file g ∧ c = g.content := by
  unfold renamed at h
  split at h <;> cases h
  exact ⟨_, rfl, rfl⟩

/-- **An install that succeeds** leaves the content that stood at the path of the shadow, and the
shadow's cursor. -/
lemma install_eq_ok (h : install r copy site = .ok () site') : ∃ g, site.shadow = .file g ∧
    site' = ⟨⟨g.content, copy.cursor, none⟩, g.content, .absent⟩ := by
  have hcases := installed r copy site
  rw [h] at hcases
  cases hcases with
  | done _ moved =>
    obtain ⟨g, hnode, rfl⟩ := renamed_eq_ok moved
    exact ⟨g, hnode, rfl⟩

end RecordFile

/-! ## Shrinks that fail -/

namespace Store

variable {s s' : Store} {node : RecordFile → ShadowNode} {r : Refusals} {e : Error}

/-- A shadow is made where no directory is in the way. -/
lemma makeShadow_of_ne (hshadow : s.shadow ≠ .directory) :
    s.makeShadow = copyLive s.file s.toc.activeEntries := by
  rw [makeShadow]
  split
  · rename_i h
    exact absurd h hshadow
  · rfl

variable {copy : RecordFile} {site : Site} {at? : ShadowNode}

lemma installCopy_error (h : install r copy (s.site at?) = .error e site) :
    installCopy r copy at? s = .error e (s.onSite site) := by
  rw [installCopy, h]

lemma installCopy_ok {u : Unit} (h : install r copy (s.site at?) = .ok u site) :
    installCopy r copy at? s = .ok () (s.onSite site) := by
  rw [installCopy, h]

/-- What a shrink gives behind the gate, from the copy that it made. -/
def placed (s : Store) (r : Refusals) (node : RecordFile → ShadowNode) :
    Except Error (RecordFile × List Entry) → EStateM.Result Error Store ShrinkReport
  | .error e => .error e { s with shadow := .absent }
  | .ok (copy, copied) =>
    match install r copy (s.site (node copy)) with
    | .error e site => .error e (s.onSite site)
    | .ok _ site => .ok (s.report site.file copied)
        { s.onSite site with volume := ⟨site.file, s.toc.replaceAll copied⟩ }

/-- **What a shrink gives** in a store at rest. -/
theorem shrinkUnder_resting (hr : s.Resting) (hshadow : s.shadow ≠ .directory) (r : Refusals)
    (node : RecordFile → ShadowNode) : s.shrinkUnder r node =
      match s.admitted s.unbounded with
      | .error e => .error e s
      | .ok () =>
        match s.waitReady with
        | .error e => .error e s
        | .ok () => s.placed r node (copyLive s.file s.toc.activeEntries) := by
  rw [shrinkUnder, throughGate_resting hr]
  cases hadmitted : s.admitted s.unbounded with
  | error e => rfl
  | ok u =>
    -- Whatever is done inside, the gate is left as it was found.
    have hleave : ∀ v shadow, leaveGate .exclusive
        { s.inside .exclusive with volume := v, shadow := shadow } =
          { s with volume := v, shadow := shadow } := fun v shadow =>
      leaveGate_inside (s := { s with volume := v, shadow := shadow })
        (hr.gate_opened (gate_open_of_admitted hadmitted)) .exclusive
    rw [get_bind, orFail_bind, show (s.inside .exclusive).waitReady = s.waitReady from rfl]
    cases s.waitReady with
    | error e => exact congrArg (EStateM.Result.error e) (hleave s.volume s.shadow)
    | ok u =>
      dsimp only
      rw [show (s.inside .exclusive).makeShadow = s.makeShadow from rfl, makeShadow_of_ne hshadow]
      cases copyLive s.file s.toc.activeEntries with
      | error e =>
        dsimp only
        rw [show (s.inside .exclusive).shadow = s.shadow from rfl, ShadowNode.cleared_of_ne hshadow]
        exact congrArg (EStateM.Result.error e) (hleave s.volume .absent)
      | ok p =>
        obtain ⟨copy, copied⟩ := p
        dsimp only
        rw [placed]
        cases hinstall : install r copy (s.site (node copy)) with
        | error e site =>
          have hfail := installCopy_error (s := s.inside .exclusive) hinstall
          rw [bind_of_error hfail]
          exact congrArg (EStateM.Result.error e) (hleave _ _)
        | ok u site =>
          have hdone := installCopy_ok (s := s.inside .exclusive) hinstall
          rw [bind_of_ok hdone]
          exact congrArg (EStateM.Result.ok _) (hleave _ _)

/-- **What a shrink that fails leaves** of a store. -/
inductive Aftermath (s : Store) (r : Refusals) (node : RecordFile → ShadowNode) (e : Error) :
    Store → Prop
  /-- It was not let in, or the table was not ready. -/
  | refused (why : s.admitted s.unbounded = .error e ∨ s.waitReady = .error e) :
      Aftermath s r node e s
  /-- A live record could not be read, or did not fit into the copy. -/
  | uncopied (fault : CopyFault s.file s.toc.activeEntries e) :
      Aftermath s r node e { s with shadow := .absent }
  /-- The copy could not be put in place. -/
  | uninstalled {copy : RecordFile} {copied : List Entry} {site : Site}
      (made : copyLive s.file s.toc.activeEntries = .ok (copy, copied))
      (failed : install r copy (s.site (node copy)) = .error e site) :
      Aftermath s r node e (s.onSite site)

/-- A shrink that fails behind the gate. -/
lemma aftermath_of_placed
    (h : s.placed r node (copyLive s.file s.toc.activeEntries) = .error e s') :
    s.Aftermath r node e s' := by
  cases hcopy : copyLive s.file s.toc.activeEntries with
  | error err =>
    rw [hcopy] at h
    cases h
    exact .uncopied (copyLive_eq_error hcopy)
  | ok p =>
    obtain ⟨copy, copied⟩ := p
    rw [hcopy, placed] at h
    cases hinstall : install r copy (s.site (node copy)) with
    | error err site =>
      rw [hinstall] at h
      cases h
      exact .uninstalled hcopy hinstall
    | ok u site =>
      rw [hinstall] at h
      cases h

/-- **A shrink that fails has done nothing**, if the system would have flushed the copy and opened
the file again. -/
lemma Aftermath.undone (h : s.Aftermath r node e s') (hnode : ∀ copy, node copy ≠ .directory)
    (hflushes : r.flush = none) (hopens : r.reopen = none) :
    s' = s ∨ s' = { s with shadow := .absent } := by
  cases h with
  | refused => exact Or.inl rfl
  | uncopied => exact Or.inr rfl
  | uninstalled _ failed =>
    have hfile := (install_undone hopens failed).1
    have hshadow := shadow_of_install_error hflushes (hnode _) failed
    refine Or.inr ?_
    rw [onSite, hfile, hshadow]
    rfl

/-- A live record that cannot be read is in the way of every shrink. -/
lemma placed_of_unread {d : Entry} (hd : d ∈ s.toc.activeEntries)
    (hbad : Volume.readEntry s.file d = .error e) : ∃ err,
      s.placed r node (copyLive s.file s.toc.activeEntries) =
        .error err { s with shadow := .absent } := by
  cases hcopy : copyLive s.file s.toc.activeEntries with
  | error err => exact ⟨err, rfl⟩
  | ok p =>
    obtain ⟨xs, hreads, _⟩ := copyLive_eq_ok_iff.mp hcopy
    obtain ⟨x, hx⟩ := Reads.exists_of_mem hreads hd
    cases (recordOf_eq_error_iff.mpr hbad).symm.trans hx

end Store

/-- **What a shrink that fails has done** in the life of a store, whatever its file holds, whoever
gets at the shadow and whatever the system refuses.  Nothing was done, and no shadow is left, unless
the system would not flush the shadow or would not open the file again; what is left then is what an
install leaves.  A live record that cannot be read always makes it fail, and leaves nothing.  An
install by itself changes neither the file nor what stands at its path if it fails and the system
would open the file again, and it leaves the shadow in their place if it succeeds. -/
theorem Life.shrink_undone_unless {α : Type} {c : Coding α} {s : Store} (life : Life c s)
    (hshadow : s.shadow ≠ .directory) (node : RecordFile → ShadowNode)
    (hnode : ∀ copy, node copy ≠ .directory) (r : Refusals) :
    (∀ e s', s.shrinkUnder r node = .error e s' → s.Aftermath r node e s' ∧
      (r.flush = none → r.reopen = none → s' = s ∨ s' = { s with shadow := .absent })) ∧
    (s.admitted s.unbounded = .ok () → s.waitReady = .ok () →
      ∀ d ∈ s.toc.activeEntries, ∀ bad, Volume.readEntry s.file d = .error bad →
        ∃ e, s.shrinkUnder r node = .error e { s with shadow := .absent }) ∧
    ∀ copy site, Installed r copy site (install r copy site) ∧
      (∀ e site', install r copy site = .error e site' → r.reopen = none →
        site'.file = site.file ∧ site'.named = site.named) ∧
      ∀ site', install r copy site = .ok () site' → ∃ g, site.shadow = .file g ∧
        site' = ⟨⟨g.content, copy.cursor, none⟩, g.content, .absent⟩ := by
  have hshrink := Store.shrinkUnder_resting life.still.resting hshadow r node
  refine ⟨fun e s' h => ?_, fun hadmitted hready d hd bad hbad => ?_, fun copy site =>
    ⟨installed r copy site, fun _ _ h hopens => install_undone hopens h, fun _ => install_eq_ok⟩⟩
  · have haftermath : s.Aftermath r node e s' := by
      rw [hshrink] at h
      cases hadmitted : s.admitted s.unbounded with
      | error err =>
        rw [hadmitted] at h
        cases h
        exact .refused (Or.inl hadmitted)
      | ok u =>
        cases hready : s.waitReady with
        | error err =>
          rw [hadmitted, hready] at h
          cases h
          exact .refused (Or.inr hready)
        | ok u =>
          rw [hadmitted, hready] at h
          exact Store.aftermath_of_placed h
    exact ⟨haftermath, haftermath.undone hnode⟩
  · rw [hshrink, hadmitted, hready]
    exact Store.placed_of_unread hd hbad

/-! ## A damaged record, a lost shadow, and a system that refuses -/

namespace Broken

/-- A store that was sealed with one entity. -/
def before : Store :=
  ((Store.fresh.perform .plain (.add .sample [7])).2.perform .plain .checkpoint).2

/-- The same store with something in its file and at the path of the shadow. -/
def store (content : Content) (shadow : ShadowNode) : Store :=
  { before.setContent content with shadow := shadow }

lemma life (content : Content) (shadow : ShadowNode) : Life .plain (store content shadow) :=
  .altered (((Life.opened Store.openFile_fresh).performed (.add .sample [7])).performed
    .checkpoint) content shadow

/-- The payload was overwritten, and there is what an earlier shrink left. -/
def damaged : Store := store (before.file.content.write 36 [9]) (.file (.ofContent .empty))

lemma shrink_damaged : damaged.shrinkUnder {} .file =
    .error (.corruption 0 .checksumMismatch) (final (damaged.shrinkUnder {} .file)) :=
  eq_error_of_failure? (by decide +kernel)

/-- Nothing was overwritten. -/
def intact : Store := store before.file.content .absent

/-- Somebody takes the shadow away. -/
lemma shrink_intact : intact.shrinkUnder {} (fun _ => .absent) =
    .error (.file .notFound) (final (intact.shrinkUnder {} fun _ => .absent)) :=
  eq_error_of_failure? (by decide +kernel)

/-- The copy is shorter than the file, which has a tail. -/
lemma copyLive_intact : ∃ copy copied,
    Store.copyLive intact.file intact.toc.activeEntries = .ok (copy, copied) ∧
      copy.content.size = 37 := by
  have hsize : (Store.copyLive intact.file intact.toc.activeEntries).toOption.map
    (·.1.content.size) = some 37 := by decide +kernel
  cases hcopy : Store.copyLive intact.file intact.toc.activeEntries with
  | error e =>
    rw [hcopy] at hsize
    cases hsize
  | ok p =>
    rw [hcopy] at hsize
    exact ⟨p.1, p.2, rfl, Option.some.inj hsize⟩

end Broken

/-- A damaged record is not copied, and the shadow of an intact one is lost.  Both stores keep their
seal, and no shadow is left. -/
theorem Life.shrink_undone_unless_sealed : ∃ s s' t t',
    (Life .plain s ∧ s.shadow ≠ .directory ∧ (∀ g : RecordFile, ShadowNode.file g ≠ .directory) ∧
      s.file.isSealed = true ∧
      s.shrinkUnder {} .file = .error (.corruption 0 .checksumMismatch) s' ∧
      (s' = s ∨ s' = { s with shadow := .absent })) ∧
    Life .plain t ∧ t.shadow ≠ .directory ∧ ShadowNode.absent ≠ .directory ∧
      t.file.isSealed = true ∧
      t.shrinkUnder {} (fun _ => .absent) = .error (.file .notFound) t' ∧
      (t' = t ∨ t' = { t with shadow := .absent }) := by
  have hdamaged : Broken.damaged.shadow ≠ .directory := fun h => by cases h
  have hfile : ∀ g : RecordFile, ShadowNode.file g ≠ .directory := fun g h => by cases h
  have hintact : Broken.intact.shadow ≠ .directory := fun h => by cases h
  have habsent : ShadowNode.absent ≠ .directory := fun h => by cases h
  obtain ⟨hundone, _⟩ := (Broken.life _ _).shrink_undone_unless hdamaged .file hfile {}
  obtain ⟨hlost, _⟩ := (Broken.life _ _).shrink_undone_unless hintact _ (fun _ => habsent) {}
  have hsealed : Broken.damaged.file.isSealed = true := by decide +kernel
  have hsealed' : Broken.intact.file.isSealed = true := by decide +kernel
  exact ⟨_, _, _, _, ⟨Broken.life _ _, hdamaged, hfile, hsealed, Broken.shrink_damaged,
    (hundone _ _ Broken.shrink_damaged).2 rfl rfl⟩, Broken.life _ _, hintact, habsent, hsealed',
    Broken.shrink_intact, (hlost _ _ Broken.shrink_intact).2 rfl rfl⟩

/-- **A shrink that fails may have done something.**  If the copy cannot be flushed it is left
behind. If the file cannot be opened again, the copy stands at its path, the store has forgotten the
tail and still has its old table. -/
theorem Life.shrink_not_undone : ∃ s, Life .plain s ∧ s.file.isSealed = true ∧ s.shadow = .absent ∧
    ∀ e, (∃ s' copy, s.shrinkUnder { flush := some e } .file = .error e s' ∧
        s'.shadow = .file copy) ∧
      ∃ s' copy copied site, Store.copyLive s.file s.toc.activeEntries = .ok (copy, copied) ∧
        install { reopen := some e } copy (s.site (.file copy)) = .error e site ∧
        s.shrinkUnder { reopen := some e } .file = .error e s' ∧
        site.named.size ≠ s.file.content.size ∧ s'.file.isSealed = false ∧ s'.toc = s.toc := by
  have life : Life .plain Broken.intact := Broken.life _ _
  have hintact : Broken.intact.shadow ≠ .directory := fun h => by cases h
  have hadmitted : Broken.intact.admitted Broken.intact.unbounded = .ok () := by decide +kernel
  have hready : Broken.intact.waitReady = .ok () := by decide +kernel
  have hlonger : 37 < Broken.intact.file.content.size := by decide +kernel
  obtain ⟨copy, copied, hcopy, hsize⟩ := Broken.copyLive_intact
  have hshrink : ∀ r, Broken.intact.shrinkUnder r .file =
      Broken.intact.placed r .file (.ok (copy, copied)) := fun r => by
    rw [Store.shrinkUnder_resting life.still.resting hintact, hadmitted, hready, hcopy]
  refine ⟨Broken.intact, life, by decide +kernel, rfl, fun e =>
    ⟨⟨_, copy, hshrink _, rfl⟩, _, copy, copied, _, hcopy, rfl, hshrink _, ?_, rfl, rfl⟩⟩
  show copy.content.size ≠ _
  omega

end SlotStore
