import SlotStore.Bytes
import SlotStore.Error
import SlotStore.Toml

/-!
# Configuration

How a store is run.  A configuration can be kept in a TOML file; every setting has a default, so an
empty file will do, and settings it does not know are passed over.

* `Config.default`, `Config.testing` : two configurations to start from;
* `Config.validate` : which configurations a store accepts;
* `Config.read`, `Config.write` : the file.
-/

namespace SlotStore

/-- When writes reach stable storage. -/
inductive Durability
  | standard
  | always
deriving DecidableEq, Repr

/-- How a store is run. -/
structure Config where
  durability : String
  /-- Queries over at most this many entities decode them at once. -/
  materializeThreshold : Nat
  /-- Whether closing a store seals its file with the table of contents. -/
  persistOnClose : Bool
  /-- Whether a missing table of contents is rebuilt by a worker. -/
  backgroundRebuild : Bool
  /-- How many milliseconds a bounded operation waits for locks if it does not say. -/
  lockTimeout : Option Nat
  schedulerThreads : Nat
deriving DecidableEq, Repr

namespace Config

/-- The name under which a configuration is kept. -/
def fileName : String := "rackdb.toml"

def default : Config where
  durability := "standard"
  materializeThreshold := 256
  persistOnClose := true
  backgroundRebuild := true
  lockTimeout := none
  schedulerThreads := 1

/-- The default, but the table of contents is rebuilt while the store is opened. -/
def testing : Config := { default with backgroundRebuild := false }

/-- The durability a configuration asks for. -/
def durabilityMode (c : Config) : Except Error Durability :=
  if c.durability = "standard" then .ok .standard
  else if c.durability = "always" then .ok .always
  else .error (.config (.durability c.durability))

/-- Whether a store accepts a configuration. -/
def validate (c : Config) : Except Error Unit := do
  let _ ← c.durabilityMode
  if c.schedulerThreads = 0 then throw (.config .noThreads)

/-! ## Names of the settings -/

def durabilityName : String := "durability"
def thresholdName : String := "materialize_threshold"
def persistName : String := "persist_toc_on_close"
def rebuildName : String := "background_rebuild"
def timeoutName : String := "lock_timeout_ms"
def threadsName : String := "scheduler_threads"

/-- The default configuration as a file, with comments. -/
def defaultFile : String := String.intercalate "\n" [
  "# rackdb store configuration",
  "#",
  "# Durability mode: \"standard\" (default) or \"always\"",
  "#   \"standard\" = the OS flushes writes; the TOC is synced on checkpoint/close",
  "#   \"always\"   = fsync after every add, update and delete",
  "durability = \"standard\"",
  "",
  "# Queries over at most this many entries are decoded eagerly; larger ones stream.",
  "materialize_threshold = 256",
  "",
  "# Persist the TOC on close so the next open does not scan the file.",
  "persist_toc_on_close = true",
  "",
  "# Rebuild a missing TOC in the background instead of blocking open.",
  "background_rebuild = true",
  "",
  "# Bound lock waits in get/update/delete (milliseconds). Unset = wait forever.",
  "# lock_timeout_ms = 1000",
  "",
  "scheduler_threads = 1",
  ""]

/-! ## Reading -/

open Toml in
/-- The text of a setting, or its default. -/
def textOf (name other : String) (ms : Members) : Option String :=
  match ms.lookup name with
  | none => some other
  | some (.text s) => some s
  | some _ => none

open Toml in
/-- The truth value of a setting, or its default. -/
def flagOf (name : String) (other : Bool) (ms : Members) : Option Bool :=
  match ms.lookup name with
  | none => some other
  | some (.boolean b) => some b
  | some _ => none

open Toml in
/-- The number of a setting, if it is there; a number below zero is none. -/
def numberOf? (name : String) (ms : Members) : Option (Option Nat) :=
  match ms.lookup name with
  | none => some none
  | some (.integer n) => if 0 ≤ n then some (some n.toNat) else none
  | some _ => none

/-- The configuration of a TOML text. -/
def ofText? (s : String) : Option Config := do
  let ms ← Toml.read? s
  return {
    durability := ← textOf durabilityName default.durability ms
    materializeThreshold := (← numberOf? thresholdName ms).getD default.materializeThreshold
    persistOnClose := ← flagOf persistName default.persistOnClose ms
    backgroundRebuild := ← flagOf rebuildName default.backgroundRebuild ms
    lockTimeout := ← numberOf? timeoutName ms
    schedulerThreads := (← numberOf? threadsName ms).getD default.schedulerThreads }

/-- The configuration that the file at a path holds, if there is one. -/
def read (path : String) (content : Option Bytes) : Except Error Config := do
  match content.bind Bytes.text? with
  | none => throw (.config (.unreadable path))
  | some s =>
    match ofText? s with
    | none => throw (.config (.malformed path))
    | some c =>
      c.validate
      return c

/-! ## Writing -/

/-- A line that sets a number, which has to fit into 63 bits. -/
def numberLine (name : String) (n : Nat) : Except Error String :=
  if n < Toml.numberLimit then .ok (name ++ " = " ++ Text.natural n ++ "\n")
  else .error (.config .unwritable)

/-- A line that sets a truth value. -/
def flagLine (name : String) (b : Bool) : String :=
  name ++ " = " ++ (if b then "true" else "false") ++ "\n"

/-- A configuration as a file. -/
def write (c : Config) : Except Error String := do
  let threshold ← numberLine thresholdName c.materializeThreshold
  let timeout ← match c.lockTimeout with
    | none => pure ""
    | some n => numberLine timeoutName n
  let threads ← numberLine threadsName c.schedulerThreads
  return durabilityName ++ " = " ++ Toml.writeString c.durability ++ "\n" ++ threshold ++
    flagLine persistName c.persistOnClose ++ flagLine rebuildName c.backgroundRebuild ++
    timeout ++ threads

end Config

end SlotStore
