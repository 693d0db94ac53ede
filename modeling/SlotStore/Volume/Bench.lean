import SlotStore.Volume

/-!
# Opening one volume after another

On a bench a record file is opened and a table of contents made for it, again and again, each time
in place of what was there.  A rebuild need not run at once.  It keeps its file and its table until
it has run, so that those who wait for the table are told how it ended also after the bench has let
go of it.

Bytes, opened files and tables are known by numbers, so that a rebuild and the bench can share them.
A file that is installed over another takes the name from it, and whoever has opened the other still
works on the old bytes.

* `Bench.openFile`, `Bench.setFile`, `Bench.setContent`, `Bench.install` : the file;
* `Bench.makeToc`, `Bench.setToc`, `Bench.forget` : the table;
* `Bench.runAll`, `Bench.dropAll` : the rebuilds that have yet to run.
-/

namespace SlotStore

/-- A record file that was opened, and the number of the bytes it works on. -/
structure Opened where
  body : Nat
  file : RecordFile

/-- A rebuild that has yet to run, with the numbers of its file and its table. -/
structure Errand where
  limit : Nat
  file : Nat
  toc : Nat

/-- Files, tables, and rebuilds that have yet to run. -/
structure Bench where
  /-- The bytes of files. -/
  bodies : List Content
  /-- The number of the bytes that have the name. -/
  named : Nat
  files : List Opened
  /-- The file on the bench. -/
  fileNumber : Option Nat
  tocs : List Toc
  /-- The table on the bench. -/
  tocNumber : Option Nat
  /-- The table that was made last, and not taken from elsewhere. -/
  latest : Option Nat
  errands : List Errand

namespace Bench

/-- An empty file that is not opened yet. -/
def empty : Bench := ⟨[.empty], 0, [], none, [], none, none, []⟩

instance : Inhabited Bench := ⟨empty⟩

/-! ## The file -/

/-- Bytes by their number. -/
def body (b : Bench) (n : Nat) : Content := b.bodies.getD n .empty

/-- The bytes that have the name. -/
def content (b : Bench) : Content := b.body b.named

/-- An opened file by its number, on the bytes as they are now. -/
def opened? (b : Bench) (n : Nat) : Option RecordFile :=
  (b.files[n]?).map fun o => { o.file with content := b.body o.body }

/-- The file on the bench. -/
def file? (b : Bench) : Option RecordFile := b.fileNumber.bind b.opened?

/-- Puts a later state of an opened file in its place. -/
def putFile (n : Nat) (f : RecordFile) (b : Bench) : Bench :=
  match b.files[n]? with
  | none => b
  | some o =>
    let content := f.content.flat
    { b with
      bodies := b.bodies.set o.body content
      files := b.files.set n { o with file := { f with content } } }

/-- Puts a later state of the file on the bench in its place. -/
def setFile (f : RecordFile) (b : Bench) : Bench :=
  match b.fileNumber with
  | none => b
  | some n => b.putFile n f

/-- Changes the bytes that have the name, behind the back of whoever has opened them. -/
def setContent (c : Content) (b : Bench) : Bench := { b with bodies := b.bodies.set b.named c }

/-- Installs another file in place of the file on the bench.  If that succeeds the bytes of the
other file have the name from then on, and the file on the bench works on them. -/
def install (shadow : RecordFile.ShadowNode) (b : Bench) : Except Error Unit × Bench :=
  match b.fileNumber, b.file? with
  | some n, some f =>
    match RecordFile.install {} shadow.opened ⟨f, f.content, shadow⟩ with
    | .error e site => (.error e, b.setFile site.file)
    | .ok _ site =>
      let body := b.bodies.length
      (.ok (), { b with
        bodies := b.bodies ++ [site.named]
        named := body
        files := b.files.set n ⟨body, site.file⟩ })
  | _, _ => (.ok (), b)

/-! ## The table -/

/-- The table on the bench. -/
def toc? (b : Bench) : Option Toc := b.tocNumber.bind fun n => b.tocs[n]?

/-- What those are told who wait for the table that was made last. -/
def signal? (b : Bench) : Option Completion :=
  (b.latest.bind fun n => b.tocs[n]?).map (·.signal)

/-- Puts a later state of the table on the bench in its place. -/
def setToc (t : Toc) (b : Bench) : Bench :=
  match b.tocNumber with
  | none => b
  | some n => { b with tocs := b.tocs.set n t }

/-- Whether the bench or a rebuild still has a table. -/
def holds (b : Bench) (n : Nat) : Bool := b.tocNumber == some n || b.errands.any (·.toc == n)

/-- Gives up the tables that nobody has any more. -/
def abandonLost (b : Bench) : Bench :=
  { b with tocs := b.tocs.mapIdx fun n t =>
      if b.holds n then t else { t with signal := t.signal.abandon } }

/-- Lets go of the table.  Nobody will finish it unless a rebuild keeps it. -/
def forget (b : Bench) : Bench := { b with tocNumber := none }.abandonLost

/-- Takes a table in place of the one on the bench. -/
def takeToc (t : Toc) (b : Bench) : Bench :=
  let b := b.forget
  { b with tocs := b.tocs ++ [t], tocNumber := some b.tocs.length }

/-- Opens the file, or fails and leaves none open.  The table and the file that were open before are
let go of. -/
def openFile (content : Except FileFault Content) (b : Bench) : Except Error Unit × Bench :=
  let b := { b.forget with fileNumber := none }
  match content with
  | .error fault => (.error (.file fault), b)
  | .ok c =>
    let files := b.files ++ [⟨b.named, .ofContent c⟩]
    (.ok (), { b with files, fileNumber := some b.files.length })

/-! ## Rebuilds -/

/-- Runs one rebuild. -/
def runErrand (b : Bench) (e : Errand) : Bench :=
  match b.opened? e.file, b.tocs[e.toc]? with
  | some f, some t =>
    let v := match Volume.runRebuild e.limit ⟨f, t⟩ with
      | .ok _ v => v
      | .error _ v => v
    let b := b.putFile e.file v.file
    { b with tocs := b.tocs.set e.toc v.toc }
  | _, _ => b

/-- Makes the table of the file on the bench.  Its rebuild runs at once unless it is deferred. -/
def makeToc (deferred : Bool) (b : Bench) : Bench :=
  match b.fileNumber, b.file? with
  | some n, some f =>
    let (v, due) := Volume.mount f
    let b := (b.takeToc v.toc).setFile v.file
    let b := { b with latest := b.tocNumber }
    match due, b.tocNumber with
    | some limit, some toc =>
      let errand : Errand := ⟨limit, n, toc⟩
      if deferred then { b with errands := b.errands ++ [errand] } else b.runErrand errand
    | _, _ => b
  | _, _ => b

/-- Runs the rebuilds in the order they were asked for. -/
def runAll (b : Bench) : Bench :=
  { b.errands.foldl runErrand b with errands := [] }.abandonLost

/-- Drops the rebuilds.  Those who wait for a table that only a rebuild kept wait in vain. -/
def dropAll (b : Bench) : Bench := { b with errands := [] }.abandonLost

end Bench

end SlotStore
