import SlotStore.Key
import SlotStore.Text.Number

/-!
# What can go wrong

Every operation fails with an `Error`, a cause with the data that describe it.  The wording of all
messages is here, in `Error.message` and the functions it uses.
-/

namespace SlotStore

/-- Why the file system refused. -/
inductive FileFault
  | notFound
  | isDirectory
  | unexpectedEnd
  /-- A position or length that no file can have. -/
  | invalidPosition
  /-- A writer was handed more bytes than it announced. -/
  | payloadOverrun
deriving DecidableEq, Repr

/-- What is wrong with the bytes at some offset. -/
inductive Corruption
  | badMarker (found : UInt8)
  | unknownFlags (found : UInt8)
  | lengthExceedsCapacity (length capacity : Nat)
  | checksumMismatch
  | footerTarget
  | tocFormat (version : Nat)
  | tocExtent (described actual : Nat)
  | foreignSlot (expected found : Key)
  | noted (text : String)
deriving DecidableEq, Repr

/-- Which bound an access would break. -/
inductive RangeFault
  | slotBelowHeader (size header : Nat)
  | lengthExceedsCapacity (length capacity : Nat)
  | writePastEnd (offset limit : Nat)
  | accessOutside (length offset limit : Nat)
  | payloadIncomplete (announced written : Nat)
  | backwardSeek (position target : Nat)
  | seekPastEnd (target length : Nat)
  | noted (text : String)
deriving DecidableEq, Repr

/-- Which rule of locking was broken. -/
inductive LockFault
  | sharedRelease
  | exclusiveRelease
  | managerClosed
  | tocUnfinished
  | readWaitEnded
  | waitEnded
  | noted (text : String)
deriving DecidableEq, Repr

/-- What is wrong with a configuration. -/
inductive ConfigFault
  | durability (mode : String)
  | noThreads
  | unreadable (path : String)
  | malformed (path : String)
  | unwritable
  | noted (text : String)
deriving DecidableEq, Repr

/-- Why an operation failed. -/
inductive Error
  | file (fault : FileFault)
  | serialization (text : String)
  | entityNotFound (key : Key)
  | corruption (offset : Nat) (what : Corruption)
  | range (fault : RangeFault)
  | concurrency (fault : LockFault)
  | cancelled
  | closed
  | payloadTooLarge (length : Nat)
  | config (fault : ConfigFault)
  | background (text : String)
deriving DecidableEq, Repr

/-! ## Wording -/

def FileFault.message : FileFault → String
  | .notFound => "no such file or directory"
  | .isDirectory => "is a directory"
  | .unexpectedEnd => "failed to fill whole buffer"
  | .invalidPosition => "invalid argument"
  | .payloadOverrun => "payload exceeds announced length"

/-- A length that does not fit its slot. -/
def lengthMessage (length capacity : Nat) : String :=
  "payload length " ++ Text.natural length ++ " exceeds slot capacity " ++ Text.natural capacity

/-- A byte in hexadecimal, as `0x1f`. -/
def hexMessage (b : UInt8) : String := "0x" ++ String.ofList (Key.hexByte b)

def Corruption.message : Corruption → String
  | badMarker b => "bad record marker " ++ hexMessage b
  | unknownFlags b => "unknown header flags " ++ hexMessage b
  | lengthExceedsCapacity length capacity => lengthMessage length capacity
  | checksumMismatch => "payload checksum mismatch"
  | footerTarget => "footer does not point at a TOC record"
  | tocFormat version => "unsupported TOC format " ++ Text.natural version
  | tocExtent described actual =>
    "TOC describes " ++ Text.natural described ++ " bytes but the data region is " ++
      Text.natural actual ++ " bytes"
  | foreignSlot expected found =>
    "TOC points " ++ expected.text ++ " at a slot holding " ++ found.text
  | noted text => text

def RangeFault.message : RangeFault → String
  | slotBelowHeader size header =>
    "slot of " ++ Text.natural size ++ " bytes cannot hold a " ++ Text.natural header ++
      "-byte header"
  | lengthExceedsCapacity length capacity => lengthMessage length capacity
  | writePastEnd offset limit =>
    "write offset " ++ Text.natural offset ++ " is past the end of the store (" ++
      Text.natural limit ++ ")"
  | accessOutside length offset limit =>
    "access of " ++ Text.natural length ++ " bytes at offset " ++ Text.natural offset ++
      " is outside the store (" ++ Text.natural limit ++ " bytes)"
  | payloadIncomplete announced written =>
    "payload of " ++ Text.natural announced ++ " bytes announced, " ++ Text.natural written ++
      " written"
  | backwardSeek position target =>
    "cannot seek backwards from " ++ Text.natural position ++ " to " ++ Text.natural target
  | seekPastEnd target length =>
    "seek to " ++ Text.natural target ++ " is past payload end " ++ Text.natural length
  | noted text => text

def LockFault.message : LockFault → String
  | sharedRelease => "shared release without a shared holder"
  | exclusiveRelease => "exclusive release without an exclusive holder"
  | managerClosed => "entity lock manager is closed"
  | tocUnfinished => "cannot persist a TOC that is still being rebuilt"
  | readWaitEnded => "unbounded read wait gave up"
  | waitEnded => "unbounded wait timed out"
  | noted text => text

def ConfigFault.message : ConfigFault → String
  | durability mode =>
    "invalid durability mode '" ++ mode ++ "'; expected \"standard\" or \"always\""
  | noThreads => "scheduler_threads must be at least 1"
  | unreadable path => "failed to read config file '" ++ path ++ "'"
  | malformed path => "failed to parse config file '" ++ path ++ "'"
  | unwritable => "failed to serialize config"
  | noted text => text

namespace Error

/-- The text shown for an error. -/
def message : Error → String
  | file fault => "I/O error: " ++ fault.message
  | serialization text => "Serialization error: " ++ text
  | entityNotFound key => "Entity not found: " ++ key.text
  | corruption offset what =>
    "Format corruption at offset " ++ Text.natural offset ++ ": " ++ what.message
  | range fault => "Range violation: " ++ fault.message
  | concurrency fault => "Concurrency violation: " ++ fault.message
  | cancelled => "Operation cancelled"
  | closed => "Store is closed"
  | payloadTooLarge length => "Payload too large: " ++ Text.natural length ++ " bytes"
  | config fault => "Invalid configuration: " ++ fault.message
  | background text => "Background task failed: " ++ text

/-- The result of an action, which itself no longer fails. -/
def observe {σ α : Type} (act : EStateM Error σ α) : EStateM Error σ (Except Error α) := fun s =>
  match act s with
  | .ok x s => .ok (.ok x) s
  | .error e s => .ok (.error e) s

/-- Whether the bytes of the file are at fault. -/
def isCorruption : Error → Bool
  | corruption .. => true
  | _ => false

end Error

end SlotStore
