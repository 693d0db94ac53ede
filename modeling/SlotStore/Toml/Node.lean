import SlotStore.Binary64

/-!
# Trees of TOML

A TOML text is a table of nodes by name.  Tables grow in several ways, and which of them may still
be extended depends on how they came about: a table that was only passed on the way to another is
implicit until its own header comes, and a table made by a dotted key takes more dotted keys but no
header.

* `Node` : values and tables;
* `Members.alter` : a change at the end of a path;
* `Members.define`, `Members.openTable?`, `Members.openItem?` : a key with its value, a header, a
  header of a list of tables.
-/

namespace SlotStore.Toml

/-- A value or table. -/
inductive Node
  | text (s : String)
  | integer (n : Int)
  | boolean (b : Bool)
  | float (x : Binary64)
  /-- A date, a time, or both. -/
  | moment
  | array (items : List Node)
  /-- A table written as a value, which is complete. -/
  | inlineTable (members : List (String × Node))
  /-- A table, with the marks whether it is implicit and whether a dotted key made it. -/
  | table (implicit dotted : Bool) (members : List (String × Node))
  /-- A list of tables, of which the last is open. -/
  | tables (items : List (List (String × Node)))
deriving Inhabited

/-- The nodes of a table in the order of their definition. -/
abbrev Members := List (String × Node)

namespace Members

/-- Replaces the node of a name. -/
def replace (name : String) (node : Node) (ms : Members) : Members :=
  ms.map fun (n, old) => if n = name then (n, node) else (n, old)

/-- Changes the table at the end of a path; the change is told whether a dotted key made that table.
Tables that are missing on the way are made, as implicit ones.  A dotted path leads through
implicit tables only; through a list of tables the way leads to the last. -/
def alter {α : Type} (dotted : Bool) (act : Bool → Members → Option (α × Members)) :
    List String → (madeDotted : Bool) → Members → Option (α × Members)
  | [], madeDotted, ms => act madeDotted ms
  | name :: path, _, ms =>
    match ms.lookup name with
    | none => do
      let (x, child) ← alter dotted act path dotted []
      return (x, ms ++ [(name, .table true dotted child)])
    | some (.table implicit made child) =>
      if dotted && !implicit then none
      else do
        let (x, child) ← alter dotted act path made child
        return (x, replace name (.table implicit made child) ms)
    | some (.tables items) => do
      let last ← items.getLast?
      let (x, last) ← alter dotted act path false last
      return (x, replace name (.tables (items.dropLast ++ [last])) ms)
    | some _ => none

/-- Defines a key in a table.  The key must be new, and a plain key needs a table that no dotted key
made, a dotted key one that a dotted key made. -/
def define (path : List String) (name : String) (node : Node) (ms : Members) : Option Members :=
  let put (madeDotted : Bool) (ms : Members) : Option (Unit × Members) :=
    if madeDotted == path.isEmpty then none
    else if (ms.lookup name).isSome then none
    else some ((), ms ++ [(name, node)])
  (alter true put path false ms).map (·.2)

/-- Takes out the table of a header, which has to be new or implicit, and gives what it holds. -/
def openTable? (path : List String) (name : String) (ms : Members) : Option (Members × Members) :=
  let take (_ : Bool) (ms : Members) : Option (Members × Members) :=
    match ms.lookup name with
    | none => some ([], ms)
    | some (.table true false members) => some (members, ms.filter fun m => m.1 ≠ name)
    | some _ => none
  alter false take path false ms

/-- Puts a finished table in. -/
def closeTable? (path : List String) (name : String) (members : Members) (ms : Members) :
    Option Members :=
  let put (_ : Bool) (ms : Members) : Option (Unit × Members) :=
    match ms.lookup name with
    | none => some ((), ms ++ [(name, .table false false members)])
    | some (.table true _ _) => some ((), replace name (.table false false members) ms)
    | some _ => none
  (alter false put path false ms).map (·.2)

/-- Checks that a header of a list of tables may stand here, and makes the list. -/
def openItem? (path : List String) (name : String) (ms : Members) : Option Members :=
  let put (_ : Bool) (ms : Members) : Option (Unit × Members) :=
    match ms.lookup name with
    | none => some ((), ms ++ [(name, .tables [])])
    | some (.tables _) => some ((), ms)
    | some _ => none
  (alter false put path false ms).map (·.2)

/-- Puts a finished table at the end of a list of tables. -/
def closeItem? (path : List String) (name : String) (members : Members) (ms : Members) :
    Option Members :=
  let put (_ : Bool) (ms : Members) : Option (Unit × Members) :=
    match ms.lookup name with
    | none => some ((), ms ++ [(name, .tables [members])])
    | some (.tables items) => some ((), replace name (.tables (items ++ [members])) ms)
    | some _ => none
  (alter false put path false ms).map (·.2)

end Members

end SlotStore.Toml
